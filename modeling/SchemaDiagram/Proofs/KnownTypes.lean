import SchemaDiagram.Proofs.Arrays
import SchemaDiagram.Run

/-!
Types that are reported as unknown. The report goes by the label that a type is shown with, not by the name that was
looked up. So a type with an entry in the table is reported all the same when its label is no name that is known, and
only a project can give it such a label. An array is never reported.
-/

set_option autoImplicit false

namespace SchemaDiagram

namespace TypeClause

-- The name in a type without a condition and without parameters.
def bareName (raw : Text) : Text := (withoutParameters (withoutCondition raw.trim).trim).trim

theorem clause_of_relationship (t : Text) (clause : TypeClause) (read : relationship? t = some clause) :
    ∃ kind target, clause = relationship kind target := by
  unfold relationship? at read
  split at read
  · obtain ⟨line, _, rfl⟩ := Option.map_eq_some_iff.mp read
    exact ⟨_, _, rfl⟩
  · obtain ⟨line, _, rfl⟩ := Option.map_eq_some_iff.mp read
    exact ⟨_, _, rfl⟩
  · contradiction

theorem clause_of_array (t : Text) (clause : TypeClause) (read : array? t = some clause) :
    ∃ element, clause = array element := by
  unfold array? at read
  split at read
  · contradiction
  · obtain ⟨line, _, rfl⟩ := Option.map_eq_some_iff.mp read
    exact ⟨_, rfl⟩

theorem name_text (raw text : Text) (named : ofText raw = name text) : text = (withoutCondition raw.trim).trim := by
  unfold ofText at named
  dsimp only at named
  split at named
  · rename_i clause read
    obtain ⟨kind, target, rfl⟩ := clause_of_relationship _ clause read
    contradiction
  · split at named
    · rename_i clause read
      obtain ⟨element, rfl⟩ := clause_of_array _ clause read
      contradiction
    · split at named
      · contradiction
      · cases named
        rfl

end TypeClause

namespace Resolution

def withoutArrayMarks (label : Text) : Text := (dropArrayMarks label.reverse).reverse

-- Labels that name something: an inline structure, an entry of the table or a declaration of the file.
def Recognized (types : TypeTable) (file : SourceFile) (label : Text) : Prop :=
  label = structLabel ∨ (types.lookup? label).isSome = true ∨ file.declares label = true

theorem opaque_iff (resolution : Resolution) (types : TypeTable) (file : SourceFile) :
    resolution.isOpaque types file = true ↔
      resolution.relation = none ∧ resolution.pending = none ∧
        ¬ Recognized types file (withoutArrayMarks resolution.label) := by
  simp only [isOpaque, Recognized, withoutArrayMarks, Bool.and_eq_true, Option.isNone_iff_eq_none, decide_eq_true_eq,
    Bool.not_eq_true', not_or, Bool.not_eq_true, Option.isSome_eq_false_iff, and_assoc]

theorem marked_label (label : Text) : withoutArrayMarks (label ++ arraySuffix) = withoutArrayMarks label := by
  rw [withoutArrayMarks, List.reverse_append]
  rfl

-- The labels of types that no project names are shown without array marks, and those of primitive types are names of
-- primitive types again.
theorem builtin_unmarked : ∀ label ∈ primitiveLabels.map Prod.snd ++ commonTypes, withoutArrayMarks label = label := by
  decide

theorem primitive_again : ∀ label ∈ primitiveLabels.map Prod.snd, (TypeTable.primitive? label).isSome = true := by
  decide

section

variable (types : TypeTable) (file : SourceFile)

theorem lookup_primitive (name label : Text) (found : TypeTable.primitive? name = some label) :
    types.lookup? name = some label := by
  rw [TypeTable.lookup?, found]

theorem primitive_recognized (name label : Text) (found : TypeTable.primitive? name = some label) :
    Recognized types file (withoutArrayMarks label) := by
  have among : label ∈ primitiveLabels.map Prod.snd :=
    List.mem_map_of_mem (f := Prod.snd) (TypeTable.mem_of_lookup primitiveLabels _ label found)
  obtain ⟨again, named⟩ := Option.isSome_iff_exists.mp (primitive_again label among)
  rw [builtin_unmarked label (List.mem_append_left _ among)]
  exact .inr (.inl (by rw [lookup_primitive types label again named, Option.isSome_some]))

-- A label is a name that the table has, unless a project gives it.
theorem known_recognized (name label : Text) (known : types.lookup? name = some label) :
    Recognized types file (withoutArrayMarks label) ∨
      TypeTable.primitive? name = none ∧ types.project.lookup name = some label := by
  have looked := known
  unfold TypeTable.lookup? at known
  split at known
  · rename_i primitive
    cases known
    exact .inl (primitive_recognized types file name label primitive)
  · rename_i other
    unfold TypeTable.project? at known
    split at known
    · rename_i given
      cases known
      exact .inr ⟨other, given⟩
    · have same : label = name := by simpa using List.find?_some known
      have common := List.mem_of_find?_eq_some known
      rw [builtin_unmarked label (List.mem_append_right _ common)]
      exact .inl (.inr (.inl (by rw [same, looked, Option.isSome_some])))

theorem struct_recognized : Recognized types file (withoutArrayMarks structLabel) := .inl (by decide)

theorem array_not_opaque (element : Text) : (ofArray types file element).isOpaque types file = false := by
  rw [Bool.eq_false_iff]
  intro reported
  obtain ⟨alone, _, unknown⟩ := (opaque_iff _ types file).mp reported
  unfold ofArray at alone unknown
  split at alone
  · rename_i struct
    rw [if_pos struct, marked_label] at unknown
    exact unknown (struct_recognized types file)
  · rename_i struct
    rw [if_neg struct] at unknown
    split at alone
    · rename_i label primitive
      simp only [primitive, marked_label] at unknown
      exact unknown (primitive_recognized types file _ label primitive)
    · contradiction

theorem relationship_not_opaque (kind : EdgeKind) (target : Text) :
    (ofRelationship types file kind target).isOpaque types file = false := by
  rw [Bool.eq_false_iff]
  intro reported
  obtain ⟨alone, _, unknown⟩ := (opaque_iff _ types file).mp reported
  unfold ofRelationship at alone unknown
  split at alone
  · rename_i struct
    rw [if_pos struct] at unknown
    exact unknown (struct_recognized types file)
  · contradiction

theorem resolve_array_not_opaque (lead : Text) (among : lead ∈ TypeClause.arrayLeads) (raw : Text)
    (unbroken : '\n' ∉ raw) : (resolve types file (lead ++ ' ' :: raw)).isOpaque types file = false := by
  have line : '\n' ∉ (TypeClause.behindLead (' ' :: raw)).dropWhile isWhite := by
    intro member
    have inside := (TypeClause.behind_lead_front _).subset ((List.dropWhile_suffix isWhite).subset member)
    simp [unbroken] at inside
  rw [resolve, TypeClause.of_array_lead lead among, TypeClause.onOneLine, if_neg (by simpa using line)]
  exact array_not_opaque types file _

theorem known_name (raw label text : Text) (known : types.lookup? (TypeClause.bareName raw) = some label)
    (named : TypeClause.ofText raw = .name text) : resolve types file raw = ⟨label, none, none⟩ := by
  rw [TypeClause.bareName, ← TypeClause.name_text raw text named] at known
  simp only [resolve, named, ofName, known]

-- Of a type with an entry in the table only the label counts, and only where the type is a plain name.
theorem known_opaque_iff (raw label : Text) (known : types.lookup? (TypeClause.bareName raw) = some label) :
    (resolve types file raw).isOpaque types file = true ↔
      (∃ text, TypeClause.ofText raw = .name text) ∧ ¬ Recognized types file (withoutArrayMarks label) := by
  cases clause : TypeClause.ofText raw with
  | relationship kind target => simp [resolve, clause, relationship_not_opaque]
  | array element => simp [resolve, clause, array_not_opaque]
  | struct =>
    have struct := struct_recognized types file
    simp [resolve, clause, opaque_iff, struct]
  | name text =>
    have shown := known_name types file raw label text known clause
    simp [shown, opaque_iff]

theorem element_findings (run : Run) (owner statement name raw : Text) :
    (run.element types file owner statement name raw).2.diagnostics = run.diagnostics ++
      if (resolve types file raw).isOpaque types file = true then
        [Diagnostic.unknownType owner name (resolve types file raw).label] else [] := by
  rw [(run.element_yields types file owner statement name raw).2]
  by_cases reported : (resolve types file raw).isOpaque types file = true <;>
    simp [Run.gather, Yield.ofElement, reported]

end

-- A type with an entry in the table is reported when it is a plain name whose label names nothing.
theorem known_type_findings (types : TypeTable) (file : SourceFile) (raw label : Text)
    (known : types.lookup? (TypeClause.bareName raw) = some label) :
    let reported := (∃ text, TypeClause.ofText raw = .name text) ∧ ¬ Recognized types file (withoutArrayMarks label)
    ((resolve types file raw).isOpaque types file = true ↔ reported) ∧
      (∀ (run : Run) (owner statement name : Text),
        let findings := (run.element types file owner statement name raw).2.diagnostics
        (reported → findings = run.diagnostics ++ [Diagnostic.unknownType owner name label]) ∧
          (¬ reported → findings = run.diagnostics)) ∧
      (reported → TypeTable.primitive? (TypeClause.bareName raw) = none ∧
        types.project.lookup (TypeClause.bareName raw) = some label) ∧
      ('\n' ∉ raw → ∀ lead ∈ TypeClause.arrayLeads,
        (resolve types file (lead ++ ' ' :: raw)).isOpaque types file = false ∧
          ∀ (run : Run) (owner statement name : Text),
            (run.element types file owner statement name (lead ++ ' ' :: raw)).2.diagnostics = run.diagnostics) := by
  have reports := known_opaque_iff types file raw label known
  refine ⟨reports, ?_, ?_, ?_⟩
  · intro run owner statement name
    have findings := element_findings types file run owner statement name raw
    constructor
    · intro reported
      obtain ⟨text, named⟩ := reported.1
      have shown := known_name types file raw label text known named
      rw [findings, if_pos (reports.mpr reported), shown]
    · intro accepted
      rw [findings, if_neg (mt reports.mp accepted), List.append_nil]
  · intro reported
    exact (known_recognized types file _ label known).resolve_left reported.2
  · intro unbroken lead among
    have accepted := resolve_array_not_opaque types file lead among raw unbroken
    refine ⟨accepted, ?_⟩
    intro run owner statement name
    rw [element_findings, accepted, if_neg Bool.false_ne_true, List.append_nil]

def renamedGenre : TypeTable := ⟨[("Genre", "Kind")]⟩

-- A name that is shown as another is reported in a file that does not declare the other one.
theorem renamed_genre_reported :
    renamedGenre.lookup? (TypeClause.bareName "Genre(9)") = some "Kind".toList ∧
      (resolve renamedGenre (SourceFile.ofText none []) "Genre(9)").isOpaque renamedGenre (SourceFile.ofText none []) =
        true ∧
      (resolve renamedGenre (SourceFile.ofText none "type Kind;".toList) "Genre(9)").isOpaque renamedGenre
        (SourceFile.ofText none "type Kind;".toList) = false ∧
      (({} : Run).element renamedGenre (SourceFile.ofText none []) "Books" "x : many Genre(9)" "x"
        "many Genre(9)").2.diagnostics = [] := by
  have known : renamedGenre.lookup? (TypeClause.bareName "Genre(9)") = some "Kind".toList := by decide +kernel
  have alone := known_type_findings renamedGenre (SourceFile.ofText none []) "Genre(9)" "Kind" known
  have beside := known_type_findings renamedGenre (SourceFile.ofText none "type Kind;".toList) "Genre(9)" "Kind" known
  refine ⟨known, alone.1.mpr ⟨⟨"Genre(9)", by decide +kernel⟩, ?_⟩, ?_, ?_⟩
  · unfold Recognized
    decide +kernel
  · rw [Bool.eq_false_iff]
    intro reported
    refine (beside.1.mp reported).2 ?_
    unfold Recognized
    decide +kernel
  · exact (alone.2.2.2 (by decide) "many" (by decide)).2 {} "Books" "x : many Genre(9)" "x"

theorem label_not_always_known :
    ¬ ∀ (types : TypeTable) (file : SourceFile) (raw : Text),
      (types.lookup? (TypeClause.bareName raw)).isSome = true →
        (resolve types file raw).isOpaque types file = false := by
  intro always
  have accepted := always renamedGenre (SourceFile.ofText none []) "Genre" (by decide +kernel)
  revert accepted
  decide +kernel

end Resolution

end SchemaDiagram

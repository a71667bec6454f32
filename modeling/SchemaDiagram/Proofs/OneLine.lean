import Mathlib.Data.List.TakeWhile
import SchemaDiagram.Rendering

/-!
What stays on one line: the blanks between the words of a type are no line breaks, and a label is made of such
words, or comes from a table. Only text that a block shows as it stands can hold a line break. More is true: what a
type is resolved to holds no character that neither the type nor a table holds.
-/

set_option autoImplicit false

namespace SchemaDiagram

namespace Text

theorem fields_apart (separates : Char → Bool) (t : Text) :
    ∀ field ∈ fields separates t, ∀ c ∈ field, separates c = false := by
  induction t with
  | nil => simp [fields]
  | cons c rest ih =>
    rw [fields]
    split
    · intro field member
      rcases List.mem_cons.mp member with rfl | later
      · simp
      · exact ih field later
    · rename_i inside
      split
      · rename_i nothing
        exact absurd nothing (fields_ne_nil separates rest)
      · rename_i first others split
        rw [split] at ih
        intro field member
        rcases List.mem_cons.mp member with rfl | later
        · intro d among
          rcases List.mem_cons.mp among with rfl | behind
          · simpa using inside
          · exact ih first List.mem_cons_self d behind
        · exact ih field (List.mem_cons_of_mem first later)

theorem field_sublist (separates : Char → Bool) (t : Text) : ∀ field ∈ fields separates t, field.Sublist t := by
  induction t with
  | nil =>
    intro field member
    obtain rfl := List.mem_singleton.mp member
    exact List.Sublist.refl []
  | cons c rest ih =>
    rw [fields]
    split
    · intro field member
      rcases List.mem_cons.mp member with rfl | later
      · exact List.nil_sublist _
      · exact (ih field later).cons c
    · split
      · rename_i nothing
        exact absurd nothing (fields_ne_nil separates rest)
      · rename_i first others split
        rw [split] at ih
        intro field member
        rcases List.mem_cons.mp member with rfl | later
        · exact (ih first List.mem_cons_self).cons_cons c
        · exact (ih field (List.mem_cons_of_mem first later)).cons c

theorem word_sublist (t : Text) : ∀ word ∈ words t, word.Sublist t :=
  fun word member => field_sublist isWhite t word (List.mem_filter.mp member).1

theorem intercalate_lacks (c : Char) (other : c ≠ ' ') (names : List Text) (each : ∀ name ∈ names, c ∉ name) :
    c ∉ [' '].intercalate names := by
  induction names with
  | nil => simp [List.intercalate]
  | cons first rest ih =>
    have others := ih fun name member => each name (List.mem_cons_of_mem first member)
    cases rest with
    | nil =>
      rw [List.intercalate_singleton]
      exact each first List.mem_cons_self
    | cons second more =>
      rw [List.intercalate_cons_cons, List.append_assoc, List.mem_append, not_or]
      exact ⟨each first List.mem_cons_self, by simpa [other] using others⟩

-- Of all white space only blanks are left.
theorem normalized_lacks (c : Char) (white : isWhite c = true) (other : c ≠ ' ') (t : Text) : c ∉ normalized t := by
  apply intercalate_lacks c other
  intro word member inside
  have apart := fields_apart isWhite t word (List.mem_filter.mp member).1 c inside
  rw [white] at apart
  contradiction

theorem trim_sublist (t : Text) : (trim t).Sublist t := by
  have reversed := ((List.dropWhile_suffix (l := (trimStart t).reverse) isWhite).sublist).reverse
  rw [List.reverse_reverse] at reversed
  exact reversed.trans (List.dropWhile_suffix isWhite).sublist

theorem after_suffix (lead t rest : Text) (found : after? lead t = some rest) : rest <:+ t := by
  rw [after_eq_some_iff] at found
  exact ⟨lead, found.symm⟩

theorem after_word_suffix (word t rest : Text) (found : afterWord? word t = some rest) : rest <:+ t :=
  after_suffix word t rest (Option.filter_eq_some_iff.mp found).1

end Text

namespace TypeClause

theorem without_condition_sublist (t : Text) : (withoutCondition t).Sublist t := by
  induction t with
  | nil => exact List.Sublist.slnil
  | cons c rest ih =>
    rw [withoutCondition]
    split
    · exact List.nil_sublist _
    · exact ih.cons_cons c

theorem without_parameters_sublist (t : Text) : (withoutParameters t).Sublist t := by
  fun_induction withoutParameters t with
  | case1 => exact List.Sublist.slnil
  | case2 c rest _ ih =>
    have behind := (List.drop_suffix 1 _).trans (List.dropWhile_suffix (l := rest) (· ≠ ')'))
    exact (ih.trans behind.sublist).cons c
  | case3 c rest _ ih => exact ih.cons_cons c

theorem on_one_line_sublist (t line : Text) (read : onOneLine t = some line) : line.Sublist t := by
  unfold onOneLine at read
  split at read
  · contradiction
  · cases read
    exact Text.trim_sublist t

theorem after_one_of_suffix (names : List Text) (t : Text) : afterOneOf names t <:+ t := by
  unfold afterOneOf
  split
  · exact List.suffix_refl t
  · rename_i rest found
    obtain ⟨word, _, read⟩ := List.exists_of_findSome?_eq_some found
    exact (List.dropWhile_suffix isWhite).trans (Text.after_word_suffix word t rest read)

theorem after_brackets_suffix (t : Text) : afterBrackets t <:+ t := by
  unfold afterBrackets
  split
  · rename_i rest opened
    have inside : rest <:+ t := (List.suffix_cons '[' rest).trans (opened ▸ List.dropWhile_suffix isWhite)
    split
    · exact List.suffix_refl t
    · rename_i closing after closed
      have behind : closing :: after <:+ rest := closed ▸ List.dropWhile_suffix (· ≠ ']')
      exact ((List.suffix_cons closing after).trans behind).trans inside
  · exact List.suffix_refl t

theorem target_suffix (t : Text) : target t <:+ t :=
  (after_one_of_suffix _ _).trans
    ((after_one_of_suffix _ _).trans ((List.dropWhile_suffix isWhite).trans (after_brackets_suffix t)))

theorem after_array_suffix (t rest : Text) (found : afterArray? t = some rest) : rest <:+ t := by
  unfold afterArray? at found
  split at found
  · rename_i behind read
    split at found
    · exact ((Text.after_word_suffix _ _ _ found).trans (List.dropWhile_suffix isWhite)).trans
        (Text.after_suffix _ _ _ read)
    · contradiction
  · exact Text.after_word_suffix _ _ _ found

-- What a clause says of another type.
def subject : TypeClause → Text
  | relationship _ target => target
  | array element => element
  | struct => []
  | name text => text

theorem relationship_sublist (t : Text) (clause : TypeClause) (read : relationship? t = some clause) :
    clause.subject.Sublist t := by
  have inside (word rest line : Text) (found : Text.afterWord? word t = some rest)
      (shown : onOneLine (target rest) = some line) : line.Sublist t :=
    (on_one_line_sublist _ line shown).trans
      ((target_suffix rest).trans (Text.after_word_suffix word t rest found)).sublist
  unfold relationship? at read
  split at read
  · rename_i rest found
    obtain ⟨line, shown, rfl⟩ := Option.map_eq_some_iff.mp read
    exact inside _ rest line found shown
  · rename_i rest _ found
    obtain ⟨line, shown, rfl⟩ := Option.map_eq_some_iff.mp read
    exact inside _ rest line found shown
  · contradiction

theorem array_sublist (t : Text) (clause : TypeClause) (read : array? t = some clause) : clause.subject.Sublist t := by
  unfold array? at read
  split at read
  · contradiction
  · rename_i rest found
    obtain ⟨line, shown, rfl⟩ := Option.map_eq_some_iff.mp read
    exact (on_one_line_sublist _ line shown).trans
      ((List.dropWhile_suffix isWhite).trans (after_array_suffix t rest found)).sublist

-- A clause says nothing of another type that the text of it does not say.
theorem subject_sublist (raw : Text) : (ofText raw).subject.Sublist raw := by
  have whole := ((Text.trim_sublist _).trans (without_condition_sublist raw.trim)).trans (Text.trim_sublist raw)
  unfold ofText
  dsimp only
  split
  · rename_i clause read
    exact (relationship_sublist _ clause read).trans whole
  · split
    · rename_i clause read
      exact (array_sublist _ clause read).trans whole
    · split
      · exact List.nil_sublist raw
      · exact whole

end TypeClause

theorem TypeTable.mem_of_lookup (entries : List (Text × Text)) (name label : Text)
    (found : entries.lookup name = some label) : (name, label) ∈ entries := by
  obtain ⟨before, after, rfl, _⟩ := List.lookup_eq_some_iff.mp found
  exact List.mem_append_right before List.mem_cons_self

theorem Reference.of_qualified_sublist (qualified : Text) (reference : Reference)
    (read : ofQualified? qualified = some reference) :
    reference.qualifier.Sublist qualified ∧ reference.name.Sublist qualified := by
  unfold ofQualified? Text.splitLast? at read
  split at read
  · contradiction
  · rename_i qualifier name cut
    split at read
    · contradiction
    · cases read
      split at cut
      · contradiction
      · rename_i separator before parted
        cases cut
        have behind : separator :: before <:+ qualified.reverse := parted ▸ List.dropWhile_suffix _
        have front := ((List.suffix_cons separator before).trans behind).sublist.reverse
        have last := (List.takeWhile_sublist (l := qualified.reverse) (· ≠ '.')).reverse
        rw [List.reverse_reverse] at front last
        exact ⟨front, last⟩

-- The labels of types that no project names.
def builtinLabels : List Text :=
  primitiveLabels.map Prod.snd ++ commonTypes ++ [Resolution.structLabel, Resolution.arraySuffix]

theorem TypeTable.primitive_builtin (name label : Text) (found : primitive? name = some label) :
    label ∈ builtinLabels := by
  have entry := mem_of_lookup primitiveLabels _ label found
  rw [builtinLabels, List.append_assoc]
  exact List.mem_append_left _ (List.mem_map_of_mem (f := Prod.snd) entry)

namespace Resolution

-- Nothing that a resolution says of other types holds the character.
structure Lacks (c : Char) (resolution : Resolution) : Prop where
  label : c ∉ resolution.label
  target : ∀ relation, resolution.relation = some relation → c ∉ relation.target
  pending : ∀ reference, resolution.pending = some reference → c ∉ reference.qualifier ∧ c ∉ reference.name

theorem target_name_sublist (target : Text) : (targetName target).Sublist target := by
  have inside := TypeClause.without_parameters_sublist ((Text.words target).head?.getD target)
  cases found : (Text.words target).head? with
  | none =>
    rw [found] at inside
    rwa [targetName, found]
  | some word =>
    rw [found] at inside
    rw [targetName, found]
    exact inside.trans (Text.word_sublist target word (List.mem_of_head? found))

variable (types : TypeTable) (c : Char) (builtin : ∀ label ∈ builtinLabels, c ∉ label)
  (labels : ∀ entry ∈ types.project, c ∉ entry.2) (file : SourceFile)

include builtin labels

theorem lookup_lacks (name label : Text) (found : types.lookup? name = some label) : c ∉ label := by
  unfold TypeTable.lookup? at found
  split at found
  · rename_i known
    cases found
    exact builtin label (TypeTable.primitive_builtin name label known)
  · unfold TypeTable.project? at found
    split at found
    · rename_i known
      cases found
      exact labels _ (TypeTable.mem_of_lookup types.project name label known)
    · apply builtin
      rw [builtinLabels, List.append_assoc]
      exact List.mem_append_right _ (List.mem_append_left _ (List.mem_of_find?_eq_some found))

theorem of_name_lacks (name : Text) (free : c ∉ name) :
    c ∉ (ofName types file name).1 ∧ ∀ reference, (ofName types file name).2 = some reference →
      c ∉ reference.qualifier ∧ c ∉ reference.name := by
  have inside := (Text.trim_sublist _).trans (TypeClause.without_parameters_sublist name)
  have base : c ∉ (TypeClause.withoutParameters name).trim := fun member => free (inside.subset member)
  unfold ofName
  dsimp only
  split
  · rename_i label found
    exact ⟨lookup_lacks types c builtin labels _ label found, by simp⟩
  · split
    · exact ⟨base, by simp⟩
    · rename_i reference read
      obtain ⟨front, last⟩ := Reference.of_qualified_sublist _ reference read
      have parts : c ∉ reference.qualifier ∧ c ∉ reference.name :=
        ⟨fun member => base (front.subset member), fun member => base (last.subset member)⟩
      refine ⟨parts.2, ?_⟩
      intro other asked
      split at asked
      · contradiction
      · cases asked
        exact parts

theorem of_relationship_lacks (kind : EdgeKind) (target : Text) (free : c ∉ target) :
    (ofRelationship types file kind target).Lacks c := by
  have named := of_name_lacks types c builtin labels file (targetName target)
    fun member => free ((target_name_sublist target).subset member)
  unfold ofRelationship
  split
  · exact ⟨builtin structLabel (by simp [builtinLabels]), by simp, by simp⟩
  · refine ⟨named.1, ?_, named.2⟩
    intro relation same
    cases same
    exact named.1

theorem of_array_lacks (element : Text) (free : c ∉ element) : (ofArray types file element).Lacks c := by
  have named := of_name_lacks types c builtin labels file (targetName element)
    fun member => free ((target_name_sublist element).subset member)
  have suffix (label : Text) (plain : c ∉ label) : c ∉ label ++ arraySuffix := by
    rw [List.mem_append, not_or]
    exact ⟨plain, builtin arraySuffix (by simp [builtinLabels])⟩
  unfold ofArray
  split
  · exact ⟨suffix structLabel (builtin structLabel (by simp [builtinLabels])), by simp, by simp⟩
  · split
    · rename_i label found
      exact ⟨suffix label (builtin label (TypeTable.primitive_builtin _ label found)), by simp, by simp⟩
    · refine ⟨suffix _ named.1, ?_, named.2⟩
      intro relation same
      cases same
      exact named.1

-- What a type is resolved to holds only what the type or a label holds.
theorem resolve_lacks (raw : Text) (free : c ∉ raw) : (resolve types file raw).Lacks c := by
  have subject : c ∉ (TypeClause.ofText raw).subject := fun member =>
    free ((TypeClause.subject_sublist raw).subset member)
  unfold resolve
  cases clause : TypeClause.ofText raw with
  | relationship kind target =>
    rw [clause] at subject
    exact of_relationship_lacks types c builtin labels file kind target subject
  | array element =>
    rw [clause] at subject
    exact of_array_lacks types c builtin labels file element subject
  | struct => exact ⟨builtin structLabel (by simp [builtinLabels]), by simp, by simp⟩
  | name text =>
    rw [clause] at subject
    have named := of_name_lacks types c builtin labels file text subject
    exact ⟨named.1, by simp, named.2⟩

end Resolution

namespace BodyLine

theorem element_name_letters (tokens : List Token) : ∀ c ∈ elementName tokens, c.isAlpha = true :=
  fun _ member => (List.mem_filter.mp member).2

-- The two sides of its colon that an element is read from.
theorem sides_of_element (statement name rawType : Text) (read : BodyLine.read statement = .element name rawType) :
    ∃ first second, splitAtColon? 0 (code (tokenize statement)) = some (first, second) ∧ elementName first = name ∧
      elementType second = rawType ∧ name ≠ [] ∧ rawType ≠ [] := by
  unfold BodyLine.read ofTokens at read
  dsimp only at read
  split at read
  · contradiction
  · split at read
    · unfold ofColonless at read
      split at read
      · contradiction
      · split at read <;> contradiction
    · rename_i first second sides
      unfold ofSides at read
      split at read
      · contradiction
      · rename_i filled
        cases read
        rw [Bool.or_eq_true, not_or, List.isEmpty_iff, List.isEmpty_iff] at filled
        exact ⟨first, second, sides, rfl, rfl, filled.1, filled.2⟩

-- An element has a name of letters and a type whose words blanks part, wherever its statement breaks lines.
theorem read_element (statement name rawType : Text) (read : BodyLine.read statement = .element name rawType) :
    (∀ c ∈ name, c.isAlpha = true) ∧ ∀ c, isWhite c = true → c ≠ ' ' → c ∉ rawType := by
  obtain ⟨first, second, _, rfl, rfl, _⟩ := sides_of_element statement name rawType read
  exact ⟨element_name_letters first, fun c white other => Text.normalized_lacks c white other _⟩

end BodyLine

end SchemaDiagram

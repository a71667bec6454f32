import SchemaDiagram.Proofs.OneLine
import SchemaDiagram.Proofs.Clauses

/-!
Arrays of primitive types. The element type ends at the first white space, before its parameters are taken off. So an
array of a primitive type connects to nothing as long as no white space stands among the parameters, and else it
connects to what is left in front of the white space.
-/

set_option autoImplicit false

namespace SchemaDiagram

namespace Text

theorem fields_front (separates : Char → Bool) (t rest : Text) (c : Char) (free : ∀ d ∈ t, separates d = false)
    (parts : separates c = true) : fields separates (t ++ c :: rest) = t :: fields separates rest := by
  induction t with
  | nil => rw [List.nil_append, fields, if_pos parts]
  | cons d t ih =>
    rw [List.cons_append, fields, free d List.mem_cons_self, ih fun e member => free e (List.mem_cons_of_mem d member)]
    rfl

theorem Solid.append {a b : Text} (first : a.Solid) (second : b.Solid) : (a ++ b).Solid :=
  List.forall_mem_append.mpr ⟨first, second⟩

theorem Solid.cons {t : Text} (c : Char) (first : isWhite c = false) (others : t.Solid) : Solid (c :: t) :=
  List.forall_mem_cons.mpr ⟨first, others⟩

-- A text that nothing but white space can follow directly.
def Parted (rest : Text) : Prop := ∀ c, rest.head? = some c → isWhite c = true

theorem first_word (t rest : Text) (filled : t ≠ []) (solid : t.Solid) (parted : Parted rest) :
    (words (t ++ rest)).head? = some t := by
  cases rest with
  | nil => rw [List.append_nil, words_of_solid t filled solid, List.head?_cons]
  | cons c rest =>
    rw [words, fields_front isWhite t rest c solid (parted c rfl), List.filter_cons_of_pos (by simpa using filled),
      List.head?_cons]

-- A text in front of its first white space, and from there on.
theorem cut_at_white (t : Text) :
    ∃ front rest, t = front ++ rest ∧ t.takeWhile (!isWhite ·) = front ∧ front.Solid ∧ Parted rest ∧
      (¬ t.Solid → rest ≠ []) := by
  have whole := List.takeWhile_append_dropWhile (p := (!isWhite ·)) (l := t)
  have solid : Solid (t.takeWhile (!isWhite ·)) := fun c member => by simpa using List.mem_takeWhile_imp member
  refine ⟨_, t.dropWhile (!isWhite ·), whole.symm, rfl, solid, ?_, ?_⟩
  · intro c first
    have stopped := List.head?_dropWhile_not (!isWhite ·) t
    rw [first] at stopped
    simpa using stopped
  · intro broken nothing
    rw [nothing, List.append_nil] at whole
    exact broken (whole ▸ solid)

theorem Parted.of_front (front t : Text) (inside : front <+: t) (parted : Parted t) : Parted front := by
  obtain ⟨behind, rfl⟩ := inside
  cases front with
  | nil => simp [Parted]
  | cons c front => exact parted

end Text

namespace TypeClause

theorem without_condition_front (t : Text) : withoutCondition t <+: t := by
  induction t with
  | nil => exact List.prefix_refl []
  | cons c rest ih =>
    rw [withoutCondition]
    split
    · exact List.nil_prefix
    · exact (List.prefix_cons_inj c).mpr ih

theorem without_parameters_front (t rest : Text) (free : '(' ∉ t) :
    withoutParameters (t ++ rest) = t ++ withoutParameters rest := by
  induction t with
  | nil => rfl
  | cons c t ih =>
    rw [List.mem_cons, not_or] at free
    rw [List.cons_append, withoutParameters, if_neg (by simp [Ne.symm free.1]), ih free.2]
    rfl

-- What is never closed is no parameter.
theorem without_parameters_open (t : Text) (free : ')' ∉ t) : withoutParameters t = t := by
  induction t with
  | nil => rw [withoutParameters]
  | cons c rest ih =>
    rw [List.mem_cons, not_or] at free
    rw [withoutParameters, if_neg (by simp [free.2]), ih free.2]

theorem without_parameters_closed (name inner : Text) (plain : '(' ∉ name) (free : ')' ∉ inner) :
    withoutParameters (name ++ '(' :: inner ++ [')']) = name := by
  have behind : (inner ++ [')']).dropWhile (· ≠ ')') = [')'] := by
    rw [List.dropWhile_append_of_pos]
    · rfl
    · intro c member
      exact decide_eq_true fun same => free (same ▸ member)
  rw [List.append_assoc, without_parameters_front name _ plain, List.cons_append, withoutParameters,
    if_pos (by simp), behind, List.drop_one, List.tail_cons, withoutParameters, List.append_nil]

-- The words that make an array of what follows them.
def arrayLeads : List Text := ["array of", "many"]

-- What is read of the text behind such words.
def behindLead (t : Text) : Text := Text.trimEnd (withoutCondition (Text.trimEnd t))

theorem behind_lead_front (t : Text) : behindLead t <+: t :=
  ((Text.trim_end_front _).trans (without_condition_front _)).trans (Text.trim_end_front t)

theorem behind_lead_name (name rest : Text) (filled : name ≠ []) (solid : name.Solid)
    (free : Text.afterWord? "on" (name ++ Text.trimEnd rest) = none) :
    behindLead (' ' :: (name ++ rest)) = ' ' :: (name ++ behindLead rest) := by
  have whole : Text.trimEnd (' ' :: name) = ' ' :: name := Text.trim_end_solid [' '] name filled solid
  have started := Text.trim_start_solid name (Text.trimEnd rest) filled solid
  rw [behindLead, ← List.cons_append, Text.trim_end_append _ rest whole, List.cons_append,
    without_condition_blank _ started free, without_condition_solid name _ solid, ← List.cons_append,
    Text.trim_end_append _ _ whole]
  rfl

section

variable (lead : Text) (among : lead ∈ arrayLeads)

include among

theorem lead_first (t : Text) : Text.trimStart (lead ++ t) = lead ++ t := by
  rcases List.mem_cons.mp among with rfl | later
  · rfl
  · rw [List.mem_singleton.mp later]
    rfl

theorem lead_last : Text.trimEnd lead = lead := by
  revert lead
  decide

theorem lead_stays (t : Text) : (withoutCondition (lead ++ t).trim).trim = lead ++ behindLead t := by
  have kept (t : Text) : withoutCondition (lead ++ t) = lead ++ withoutCondition t := by
    rcases List.mem_cons.mp among with rfl | later
    · rfl
    · rw [List.mem_singleton.mp later]
      rfl
  have whole := lead_last lead among
  have started := lead_first lead among
  rw [Text.trim, Text.trim, started, Text.trim_end_append lead t whole, kept, started,
    Text.trim_end_append lead _ whole]
  rfl

-- Behind its first words an array goes on with a blank, or ends. Without a line break its clause is read whole.
theorem of_array_lead (t : Text) :
    ofText (lead ++ ' ' :: t) =
      ((onOneLine ((behindLead (' ' :: t)).dropWhile isWhite)).map array).getD
        (name (lead ++ behindLead (' ' :: t))) := by
  have ends : Text.endsWord (behindLead (' ' :: t)) = true := by
    obtain ⟨rest, whole⟩ := behind_lead_front (' ' :: t)
    cases front : behindLead (' ' :: t) with
    | nil => rfl
    | cons c behind =>
      rw [front, List.cons_append] at whole
      rw [(List.cons.inj whole).1]
      rfl
  rw [ofText, lead_stays lead among]
  generalize behindLead (' ' :: t) = behind at ends
  have unrelated : relationship? (lead ++ behind) = none ∧ (lead ++ behind).head? ≠ some '{' := by
    rcases List.mem_cons.mp among with rfl | later
    · exact ⟨rfl, by simp⟩
    · rw [List.mem_singleton.mp later]
      exact ⟨rfl, by simp⟩
  have element : afterArray? (lead ++ behind) = some behind := by
    rcases List.mem_cons.mp among with rfl | later
    · change (some behind).filter Text.endsWord = some behind
      rw [Option.filter_some, if_pos ends]
    · rw [List.mem_singleton.mp later]
      change (some behind).filter Text.endsWord = some behind
      rw [Option.filter_some, if_pos ends]
  simp only [unrelated.1, array?, element, if_neg unrelated.2]
  cases onOneLine (behind.dropWhile isWhite) <;> rfl

end

-- The element is told by the first word behind the lead.
theorem of_array_word (lead : Text) (among : lead ∈ arrayLeads) (word rest : Text) (filled : word ≠ [])
    (solid : word.Solid) (free : Text.afterWord? "on" (word ++ Text.trimEnd rest) = none)
    (unbroken : '\n' ∉ behindLead rest) :
    ofText (lead ++ ' ' :: (word ++ rest)) = .array (word ++ Text.trimEnd (behindLead rest)) := by
  have started := Text.trim_start_solid word (behindLead rest) filled solid
  have line : '\n' ∉ word ++ behindLead rest := by
    rw [List.mem_append, not_or]
    exact ⟨fun member => absurd (solid '\n' member) (by decide), unbroken⟩
  have trimmed : (word ++ behindLead rest).trim = word ++ Text.trimEnd (behindLead rest) := by
    rw [Text.trim, Text.trimStart, started]
    exact Text.trim_end_append word _ (Text.trim_end_solid [] word filled solid)
  have shown : onOneLine ((behindLead (' ' :: (word ++ rest))).dropWhile isWhite) =
      some (word ++ Text.trimEnd (behindLead rest)) := by
    rw [behind_lead_name word rest filled solid free, List.dropWhile_cons_of_pos (by decide), started, onOneLine,
      if_neg (by simpa using line), trimmed]
  rw [of_array_lead lead among, shown]
  rfl

end TypeClause

namespace TypeTable

def primitiveNames : List Text :=
  primitiveLabels.map Prod.fst ++ primitiveLabels.map fun entry => "cds.".toList ++ entry.1

theorem name_of_primitive (name label : Text) (found : primitive? name = some label) : name ∈ primitiveNames := by
  have entry := mem_of_lookup primitiveLabels _ label found
  cases builtin : Text.after? "cds." name with
  | none =>
    rw [builtin] at entry
    exact List.mem_append_left _ (List.mem_map_of_mem (f := Prod.fst) entry)
  | some rest =>
    rw [builtin] at entry
    rw [(Text.after_eq_some_iff _ _ _).mp builtin]
    exact List.mem_append_right _ (List.mem_map_of_mem (f := fun entry => "cds.".toList ++ entry.1) entry)

theorem primitive_name_chars : ∀ name ∈ primitiveNames,
    name ≠ [] ∧ name.head? ≠ some 'o' ∧ name.all Scan.isWordChar = true := by
  decide

-- Names of primitive types are words, and none begins as a condition does.
theorem primitive_word (name label : Text) (found : primitive? name = some label) :
    name ≠ [] ∧ (∀ c ∈ name, Scan.isWordChar c = true) ∧ ∀ rest, Text.afterWord? "on" (name ++ rest) = none := by
  obtain ⟨filled, first, word⟩ := primitive_name_chars name (name_of_primitive name label found)
  refine ⟨filled, List.all_eq_true.mp word, ?_⟩
  intro rest
  cases name with
  | nil => contradiction
  | cons c name =>
    have apart : 'o' ≠ c := fun same => first (same ▸ rfl)
    have unread : Text.after? "on" (c :: name ++ rest) = none := if_neg apart
    rw [Text.afterWord?, unread]
    rfl

theorem primitive_solid (name label : Text) (found : primitive? name = some label) : name.Solid :=
  fun c member => Scan.word_char_not_white c ((primitive_word name label found).2.1 c member)

theorem primitive_without (name label : Text) (found : primitive? name = some label) (c : Char)
    (other : Scan.isWordChar c = false) : c ∉ name := by
  intro member
  rw [(primitive_word name label found).2.1 c member] at other
  contradiction

end TypeTable

namespace Resolution

theorem of_array_parted (types : TypeTable) (file : SourceFile) (word rest : Text) (filled : word ≠ [])
    (solid : word.Solid) (parted : Text.Parted rest) :
    ofArray types file (word ++ rest) = ofArray types file word := by
  have struct : isStruct (word ++ rest) = isStruct word := by
    cases word with
    | nil => contradiction
    | cons c word => rfl
  have named : targetName (word ++ rest) = targetName word := by
    rw [targetName, targetName, Text.first_word word rest filled solid parted,
      Text.words_of_solid word filled solid]
    rfl
  rw [ofArray, ofArray, struct, named]

section

variable (types : TypeTable) (file : SourceFile) (lead : Text) (among : lead ∈ TypeClause.arrayLeads)

include among

theorem resolve_array_word (word rest : Text) (filled : word ≠ []) (solid : word.Solid)
    (free : Text.afterWord? "on" (word ++ Text.trimEnd rest) = none) (unbroken : '\n' ∉ TypeClause.behindLead rest)
    (parted : Text.Parted rest) :
    resolve types file (lead ++ ' ' :: (word ++ rest)) = ofArray types file word := by
  have behind := parted.of_front _ _ ((Text.trim_end_front _).trans (TypeClause.behind_lead_front rest))
  rw [resolve, TypeClause.of_array_word lead among word rest filled solid free unbroken]
  exact of_array_parted types file word _ filled solid behind

-- An array of a word that begins with a primitive name.
theorem resolve_primitive_array (name label : Text) (primitive : TypeTable.primitive? name = some label)
    (inner rest : Text) (solid : inner.Solid) (unbroken : '\n' ∉ TypeClause.behindLead rest)
    (parted : Text.Parted rest) :
    resolve types file (lead ++ ' ' :: (name ++ inner ++ rest)) =
      match TypeTable.primitive? (TypeClause.withoutParameters (name ++ inner)) with
      | some label => ⟨label ++ arraySuffix, none, none⟩
      | none =>
        let entity := ofName types file (TypeClause.withoutParameters (name ++ inner))
        ⟨entity.1 ++ arraySuffix, some ⟨.arrayDerived, entity.1⟩, entity.2⟩ := by
  obtain ⟨filled, -, free⟩ := TypeTable.primitive_word name label primitive
  have whole : (name ++ inner).Solid := (TypeTable.primitive_solid name label primitive).append solid
  have filledWhole : name ++ inner ≠ [] := by simp [filled]
  have struct : isStruct (name ++ inner) = false := by
    have brace := TypeTable.primitive_without name label primitive '\x7b' (by decide)
    cases name with
    | nil => contradiction
    | cons c name =>
      rw [List.mem_cons, not_or] at brace
      simp [isStruct, Ne.symm brace.1]
  have target : targetName (name ++ inner) = TypeClause.withoutParameters (name ++ inner) := by
    rw [targetName, Text.words_of_solid _ filledWhole whole]
    rfl
  have condition : Text.afterWord? "on" (name ++ inner ++ Text.trimEnd rest) = none := by
    rw [List.append_assoc]
    exact free _
  have word := resolve_array_word types file lead among (name ++ inner) rest filledWhole whole condition unbroken parted
  rw [word, ofArray, struct, target]
  rfl

end

-- A name with a blank in it is no name of a type that is known everywhere.
theorem unknown_of_blank (name : Text) (blank : ' ' ∈ name) : TypeTable.lookup? {} name = none := by
  have unnamed : TypeTable.primitive? name = none := by
    cases found : TypeTable.primitive? name with
    | none => rfl
    | some label => exact absurd blank (TypeTable.primitive_without name label found ' ' (by decide))
  have uncommon : commonTypes.find? (· = name) = none := by
    have apart : ∀ common ∈ commonTypes, ' ' ∉ common := by decide
    rw [List.find?_eq_none]
    intro common member same
    exact apart common member (of_decide_eq_true same ▸ blank)
  rw [TypeTable.lookup?, unnamed]
  exact uncommon

-- A clause that a line break keeps from being an array is a name with blanks in it.
theorem broken_array_apart (file : SourceFile) (lead : Text) (among : lead ∈ TypeClause.arrayLeads)
    (name label rest : Text) (primitive : TypeTable.primitive? name = some label) (bare : file.declared = []) :
    ofName {} file (lead ++ ' ' :: (name ++ '(' :: rest)) ≠ (label ++ arraySuffix, none) := by
  have open_ : '(' ∉ lead ++ ' ' :: name := by
    have leads : ∀ lead ∈ TypeClause.arrayLeads, '(' ∉ lead := by decide
    simpa using ⟨leads lead among, TypeTable.primitive_without name label primitive '(' (by decide)⟩
  obtain ⟨filled, -, -⟩ := TypeTable.primitive_word name label primitive
  have solid := TypeTable.primitive_solid name label primitive
  obtain ⟨behind, base⟩ : ∃ behind,
      (TypeClause.withoutParameters (lead ++ ' ' :: (name ++ '(' :: rest))).trim = lead ++ ' ' :: behind := by
    refine ⟨name ++ Text.trimEnd (TypeClause.withoutParameters ('(' :: rest)), ?_⟩
    have spelled : lead ++ ' ' :: (name ++ '(' :: rest) = lead ++ ' ' :: name ++ '(' :: rest := by simp
    have whole := Text.trim_end_solid (lead ++ [' ']) name filled solid
    rw [spelled, TypeClause.without_parameters_front _ _ open_, Text.trim, List.append_assoc,
      TypeClause.lead_first lead among, ← List.append_assoc, Text.trim_end_append _ _ (by simpa using whole)]
    simp
  have blank : ' ' ∈ lead ++ ' ' :: behind := by simp
  intro same
  unfold ofName at same
  simp only [base, unknown_of_blank _ blank] at same
  cases dotted : Reference.ofQualified? (lead ++ ' ' :: behind) with
  | none =>
    have apart : ∀ label ∈ builtinLabels, ' ' ∉ label := by decide
    simp only [dotted, Prod.mk.injEq, and_true] at same
    rw [same, List.mem_append] at blank
    rcases blank with inside | suffix
    · exact apart label (TypeTable.primitive_builtin name label primitive) inside
    · revert suffix
      decide
  | some reference => simp [dotted, SourceFile.declares, bare] at same

-- A parameter list with white space in it is cut off at its first, and then never closed.
theorem resolve_cut_array (types : TypeTable) (file : SourceFile) (lead : Text) (among : lead ∈ TypeClause.arrayLeads)
    (name label : Text) (primitive : TypeTable.primitive? name = some label) (inner rest : Text) (free : ')' ∉ inner)
    (solid : inner.Solid) (unbroken : '\n' ∉ TypeClause.behindLead rest) (parted : Text.Parted rest) :
    let entity := ofName types file (name ++ '(' :: inner)
    resolve types file (lead ++ ' ' :: (name ++ '(' :: inner ++ rest)) =
      ⟨entity.1 ++ arraySuffix, some ⟨.arrayDerived, entity.1⟩, entity.2⟩ := by
  have whole : Text.Solid ('(' :: inner) := solid.cons '(' rfl
  have closing : ')' ∉ name ++ '(' :: inner := by
    simpa using ⟨TypeTable.primitive_without name label primitive ')' (by decide), free⟩
  have unnamed : TypeTable.primitive? (name ++ '(' :: inner) = none := by
    cases found : TypeTable.primitive? (name ++ '(' :: inner) with
    | none => rfl
    | some label => exact absurd (by simp) (TypeTable.primitive_without _ label found '(' (by decide))
  have resolved := resolve_primitive_array types file lead among name label primitive ('(' :: inner) rest whole unbroken
    parted
  rwa [TypeClause.without_parameters_open _ closing, unnamed] at resolved

-- Where a line break is left behind the cut the clause is read as a name.
theorem resolve_broken_array (file : SourceFile) (lead : Text) (among : lead ∈ TypeClause.arrayLeads)
    (name label : Text) (primitive : TypeTable.primitive? name = some label) (inner rest : Text) (solid : inner.Solid)
    (bare : file.declared = []) (line : '\n' ∈ TypeClause.behindLead rest) :
    resolve {} file (lead ++ ' ' :: (name ++ '(' :: inner ++ rest)) ≠ ⟨label ++ arraySuffix, none, none⟩ := by
  obtain ⟨-, -, free⟩ := TypeTable.primitive_word name label primitive
  have whole : Text.Solid (name ++ '(' :: inner) :=
    (TypeTable.primitive_solid name label primitive).append (solid.cons '(' rfl)
  have filledWhole : name ++ '(' :: inner ≠ [] := by simp
  have condition : Text.afterWord? "on" (name ++ '(' :: inner ++ Text.trimEnd rest) = none := by
    rw [List.append_assoc]
    exact free _
  have clause : TypeClause.ofText (lead ++ ' ' :: (name ++ '(' :: inner ++ rest)) =
      .name (lead ++ ' ' :: (name ++ '(' :: (inner ++ TypeClause.behindLead rest))) := by
    rw [TypeClause.of_array_lead lead among, TypeClause.behind_lead_name _ rest filledWhole whole condition,
      List.dropWhile_cons_of_pos (by decide), Text.trim_start_solid _ _ filledWhole whole, TypeClause.onOneLine,
      if_pos (by simp [line])]
    simp
  intro same
  rw [resolve, clause] at same
  simp only [Resolution.mk.injEq, true_and] at same
  exact broken_array_apart file lead among name label _ primitive bare (Prod.ext same.1 same.2)

end Resolution

end SchemaDiagram

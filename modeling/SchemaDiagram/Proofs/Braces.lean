import SchemaDiagram.Proofs.Fence

/-!
Braces and line breaks in what a block shows of its elements. The words of a type are parted by blanks, so that no label
breaks a line. Braces come into a label only with the text of a type that the table lacks, which is shown as it is
written. All other braces of a block are the pair around it and those of the lines that it shows as they stand.
-/

set_option autoImplicit false

namespace SchemaDiagram

def braces : List Char := ['\x7b', '\x7d']

def lineBreaks : List Char := ['\n', '\x0b', '\x0c', '\r', '\u0085', '\u2028', '\u2029']

namespace Resolution

-- The name that a clause looks up.
def sought? : TypeClause → Option Text
  | .relationship _ target => if isStruct target then none else some (targetName target)
  | .array element => if isStruct element then none else some (targetName element)
  | .struct => none
  | .name text => some text

-- A name that the table lacks is shown by its last segment, or else as it stands.
def unknownLabel? (types : TypeTable) (name : Text) : Option Text :=
  let base := (TypeClause.withoutParameters name).trim
  match types.lookup? base with
  | some _ => none
  | none => some (((Reference.ofQualified? base).map Reference.name).getD base)

-- The label that the text of a type makes up by itself.
def ownLabel? (types : TypeTable) (raw : Text) : Option Text :=
  (sought? (TypeClause.ofText raw)).bind (unknownLabel? types)

theorem of_name_unknown (types : TypeTable) (file : SourceFile) (name shown : Text)
    (unknown : unknownLabel? types name = some shown) : (ofName types file name).1 = shown := by
  unfold unknownLabel? at unknown
  dsimp only at unknown
  split at unknown
  · contradiction
  · rename_i missing
    cases unknown
    simp only [ofName, missing]
    cases Reference.ofQualified? (TypeClause.withoutParameters name).trim <;> rfl

theorem builtin_labels_plain (c : Char) (among : c ∈ braces ++ lineBreaks) :
    ∀ label ∈ builtinLabels, c ∉ label := by
  have plain : (braces ++ lineBreaks).all (fun c => builtinLabels.all fun label => !label.elem c) = true := by decide
  intro label inside
  simpa using List.all_eq_true.mp (List.all_eq_true.mp plain c among) label inside

section

variable (types : TypeTable) (c : Char) (builtin : ∀ label ∈ builtinLabels, c ∉ label)
  (labels : ∀ entry ∈ types.project, c ∉ entry.2) (file : SourceFile)

include builtin labels

theorem of_name_holds (name : Text) (holds : c ∈ (ofName types file name).1) :
    ∃ shown, unknownLabel? types name = some shown ∧ c ∈ shown := by
  cases unknown : unknownLabel? types name with
  | some shown => exact ⟨shown, rfl, of_name_unknown types file name shown unknown ▸ holds⟩
  | none =>
    unfold unknownLabel? at unknown
    dsimp only at unknown
    split at unknown
    · rename_i label known
      simp only [ofName, known] at holds
      exact absurd holds (lookup_lacks types c builtin labels _ label known)
    · contradiction

-- A label holds what the table's labels lack only where it is the text of the type.
theorem resolve_holds (raw : Text) (holds : c ∈ (resolve types file raw).label) :
    ∃ shown, ownLabel? types raw = some shown ∧ c ∈ shown := by
  have struct : structLabel ∈ builtinLabels := by simp [builtinLabels]
  have marks : arraySuffix ∈ builtinLabels := by simp [builtinLabels]
  unfold resolve at holds
  unfold ownLabel?
  cases clause : TypeClause.ofText raw with
  | relationship kind target =>
    simp only [clause, ofRelationship] at holds
    simp only [sought?]
    split at holds
    · exact absurd holds (builtin _ struct)
    · rename_i named
      rw [if_neg named]
      exact of_name_holds types c builtin labels file _ holds
  | array element =>
    simp only [clause, ofArray] at holds
    simp only [sought?]
    split at holds
    · rcases List.mem_append.mp holds with inside | inside
      · exact absurd inside (builtin _ struct)
      · exact absurd inside (builtin _ marks)
    · rename_i named
      rw [if_neg named]
      split at holds
      · rename_i label primitive
        rcases List.mem_append.mp holds with inside | inside
        · exact absurd inside (builtin label (TypeTable.primitive_builtin _ label primitive))
        · exact absurd inside (builtin _ marks)
      · rcases List.mem_append.mp holds with inside | inside
        · exact of_name_holds types c builtin labels file _ inside
        · exact absurd inside (builtin _ marks)
  | struct =>
    simp only [clause] at holds
    exact absurd holds (builtin _ struct)
  | name text =>
    simp only [clause] at holds
    exact of_name_holds types c builtin labels file text holds

end

theorem name_shown (types : TypeTable) (file : SourceFile) (raw text shown : Text)
    (named : TypeClause.ofText raw = .name text) (own : ownLabel? types raw = some shown) :
    (resolve types file raw).label = shown := by
  rw [ownLabel?, named] at own
  simp only [resolve, named]
  exact of_name_unknown types file text shown own

end Resolution

namespace Text

theorem count_of_lines (lines : List Text) (c : Char) (other : c ≠ '\n') :
    (ofLines lines).count c = lines.flatten.count c := by
  induction lines with
  | nil => rfl
  | cons line others ih =>
    rw [of_lines_cons, List.count_append, List.count_append, ih, List.flatten_cons, List.count_append,
      List.count_singleton, if_neg (by simpa using Ne.symm other), Nat.add_zero]

theorem count_lines (t : Text) (c : Char) (other : c ≠ '\n') : t.lines.flatten.count c = t.count c := by
  rw [← count_of_lines _ c other, of_lines_lines, List.count_append, List.count_singleton,
    if_neg (by simpa using Ne.symm other), Nat.add_zero]

end Text

namespace Entity

theorem member_of_attribute (entity : Entity) (element : Attribute) (shown : element ∈ entity.attributes) :
    .typed element ∈ entity.members := by
  obtain ⟨member, inside, typed⟩ := List.mem_filterMap.mp shown
  cases member with
  | typed other =>
    cases typed
    exact inside
  | verbatim text => contradiction

section

variable (c : Char) (brace : c ∈ braces)

include brace

theorem brace_cases : c = '\x7b' ∨ c = '\x7d' := by
  simpa [braces] using brace

theorem brace_apart : c ≠ '\n' ∧ c ≠ ' ' ∧ c ≠ ':' ∧ Scan.isWordChar c = false := by
  rcases brace_cases c brace with rfl | rfl <;> decide

theorem brace_not_letter (name : Text) (letters : ∀ d ∈ name, d.isAlpha = true) : c ∉ name := by
  have other : c.isAlpha = false := by
    rcases brace_cases c brace with rfl | rfl <;> rfl
  intro member
  rw [letters c member] at other
  contradiction

theorem typed_line_count (element : Attribute) (free : c ∉ element.name) :
    (Member.line (.typed element)).count c = element.label.count c := by
  obtain ⟨_, blank, colon, _⟩ := brace_apart c brace
  have name := List.count_eq_zero.mpr free
  simp [Member.line, List.count_append, name, Ne.symm blank, Ne.symm colon]

-- A line of a block holds the braces of the label on it, or else it stands in the schema.
theorem members_count (members : List Member)
    (names : ∀ element, .typed element ∈ members → c ∉ element.name) :
    (members.flatMap fun member => member.line ++ ['\n']).count c =
      ((members.filterMap Member.typed?).flatMap Attribute.label).count c +
        (members.flatMap Member.echoed).flatten.count c := by
  have other := (brace_apart c brace).1
  have feed : ['\n'].count c = 0 := by simpa [List.count_singleton] using Ne.symm other
  induction members with
  | nil => rfl
  | cons member rest ih =>
    have further := ih fun element inside => names element (List.mem_cons_of_mem member inside)
    rw [List.flatMap_cons, List.count_append, List.count_append, feed, further, List.flatMap_cons, List.flatten_append,
      List.count_append]
    cases member with
    | typed element =>
      rw [typed_line_count c brace element (names element List.mem_cons_self),
        List.filterMap_cons_some (rfl : Member.typed? (.typed element) = some element), List.flatMap_cons,
        List.count_append]
      simp only [Member.echoed, List.flatten_nil, List.count_nil]
      omega
    | verbatim text =>
      rw [List.filterMap_cons_none rfl]
      simp only [Member.line, Member.echoed, Text.count_lines text c other]
      omega

theorem frame_count : "class ".toList.count c = 0 ∧ "  <<type>>\n".toList.count c = 0 ∧
    " \x7b\n".toList.count c + "\x7d\n".toList.count c = 1 := by
  rcases brace_cases c brace with rfl | rfl <;> decide

theorem block_count (entity : Entity) (free : c ∉ entity.name)
    (names : ∀ element, .typed element ∈ entity.members → c ∉ element.name) :
    entity.block.count c =
      1 + (entity.attributes.flatMap Attribute.label).count c + entity.echoed.flatten.count c := by
  obtain ⟨opening, mark, pair⟩ := frame_count c brace
  have name := List.count_eq_zero.mpr free
  have marked : (if entity.kind = .typeAlias then "  <<type>>\n".toList else []).count c = 0 := by
    split
    · exact mark
    · rfl
  have members := members_count c brace entity.members names
  unfold block attributes echoed
  simp only [List.count_append]
  omega

end

end Entity

theorem Input.entity_braces (source : Source) (settings : Settings) (input : Input) (entity : Entity)
    (member : entity ∈ (input.report source settings).entities) (c : Char) (brace : c ∈ braces) :
    entity.block.count c =
      1 + (entity.attributes.flatMap Attribute.label).count c + entity.echoed.flatten.count c := by
  apply entity.block_count c brace
  · intro inside
    have word := input.entity_name_chars source settings entity member c inside
    rw [(Entity.brace_apart c brace).2.2.2] at word
    contradiction
  · intro element shown
    obtain ⟨file, text, fragment, _, rfl⟩ := input.entity_rendered source settings entity member
    obtain ⟨statement, read, _⟩ := fragment.typed_member settings.types file element shown
    exact Entity.brace_not_letter c brace _ (BodyLine.read_element statement element.name element.rawType read).1

theorem braces_of_labels (types : TypeTable)
    (labels : ∀ entry ∈ types.project, ∀ c ∈ braces ++ lineBreaks, c ∉ entry.2) :
    (∀ statement name rawType, BodyLine.read statement = .element name rawType → ∀ file,
      let label := (Resolution.resolve types file rawType).label
      (∀ c ∈ lineBreaks, c ∉ label) ∧
        (∀ c ∈ braces, c ∈ label → ∃ own, Resolution.ownLabel? types rawType = some own ∧ c ∈ own) ∧
        ∀ text own, TypeClause.ofText rawType = .name text → Resolution.ownLabel? types rawType = some own →
          label = own) ∧
      ∀ (source : Source) (settings : Settings) (input : Input), settings.types = types →
        ∀ entity ∈ (input.report source settings).entities, ∀ c ∈ braces,
          entity.block.count c =
              1 + (entity.attributes.flatMap Attribute.label).count c + entity.echoed.flatten.count c ∧
            ((∀ element ∈ entity.attributes, ∀ own,
              Resolution.ownLabel? types element.rawType = some own → c ∉ own) →
                entity.block.count c = 1 + entity.echoed.flatten.count c) := by
  have held (c : Char) (among : c ∈ braces ++ lineBreaks) (file : SourceFile) (raw : Text) :=
    Resolution.resolve_holds types c (Resolution.builtin_labels_plain c among)
      (fun entry member => labels entry member c among) file raw
  constructor
  · intro statement name rawType read file
    have line := (BodyLine.read_element statement name rawType read).2
    have each : lineBreaks.all (fun c => isWhite c && c != ' ') = true := by decide
    have white (c : Char) (among : c ∈ lineBreaks) : isWhite c = true ∧ c ≠ ' ' := by
      simpa using List.all_eq_true.mp each c among
    refine ⟨?_, ?_, ?_⟩
    · intro c among
      have either : c ∈ braces ++ lineBreaks := List.mem_append_right _ among
      exact (Resolution.resolve_lacks types c (Resolution.builtin_labels_plain c either)
        (fun entry member => labels entry member c either) file rawType
        (line c (white c among).1 (white c among).2)).label
    · intro c among
      exact held c (List.mem_append_left _ among) file rawType
    · intro text own named shown
      exact Resolution.name_shown types file rawType text own named shown
  · intro source settings input same entity member c brace
    have counted := input.entity_braces source settings entity member c brace
    refine ⟨counted, ?_⟩
    intro free
    have labelled : (entity.attributes.flatMap Attribute.label).count c = 0 := by
      rw [List.count_eq_zero, List.mem_flatMap]
      rintro ⟨element, shown, inside⟩
      obtain ⟨file, text, fragment, _, rfl⟩ := input.entity_rendered source settings entity member
      have typed := Entity.member_of_attribute _ element shown
      obtain ⟨statement, _, label⟩ := fragment.typed_member settings.types file element typed
      rw [label, same] at inside
      obtain ⟨own, told, holds⟩ := held c (List.mem_append_left _ brace) file element.rawType inside
      exact free element shown own told holds
    rw [counted, labelled, Nat.add_zero]

-- A line that is shown as it stands, a type with its values, and an inline structure.
def enumerated : Input :=
  .text "entity A \x7b\n  see \x7b below \x7d\n  s : String enum \x7b a; b; \x7d;\n  n : \x7b x : String; \x7d;\n\x7d"
    [] none

def enumeratedEntity : Entity :=
  ⟨"A", .entity, [.verbatim "  see \x7b below \x7d",
    .typed ⟨"s", "String enum \x7b a b \x7d", "String enum \x7b a b \x7d", false⟩,
    .typed ⟨"n", "\x7b x : String \x7d", "struct", false⟩], none⟩

theorem enumerated_braces :
    enumeratedEntity ∈ (enumerated.report twoFiles {}).entities ∧ enumeratedEntity.block.count '\x7b' = 3 ∧
      BodyLine.read "s : String enum \x7b a; b; \x7d" = .element "s" "String enum \x7b a b \x7d" ∧
      (Resolution.resolve {} (SourceFile.ofText none []) "String enum \x7b a b \x7d").label =
        "String enum \x7b a b \x7d" := by
  have facts : (enumerated.report twoFiles {}).entities = [enumeratedEntity] ∧
      BodyLine.read "s : String enum \x7b a; b; \x7d" = .element "s" "String enum \x7b a b \x7d" ∧
      TypeClause.ofText "String enum \x7b a b \x7d" = .name "String enum \x7b a b \x7d" ∧
      Resolution.ownLabel? {} "String enum \x7b a b \x7d" = some "String enum \x7b a b \x7d".toList := by
    decide +kernel
  obtain ⟨shown, read, named, own⟩ := facts
  obtain ⟨lines, blocks⟩ := braces_of_labels {} (by simp)
  have member : enumeratedEntity ∈ (enumerated.report twoFiles {}).entities := by
    rw [shown]
    exact List.mem_singleton_self _
  have counted := (blocks twoFiles {} enumerated rfl _ member '\x7b' (by decide)).1
  exact ⟨member, counted.trans (by decide), read,
    (lines _ _ _ read (SourceFile.ofText none [])).2.2 _ _ named own⟩

theorem values_in_label :
    ¬ ∀ types : TypeTable, (∀ entry ∈ types.project, ∀ c ∈ braces ++ lineBreaks, c ∉ entry.2) →
      ∀ statement name rawType, BodyLine.read statement = .element name rawType → ∀ file,
        ∀ c ∈ braces ++ lineBreaks, c ∉ (Resolution.resolve types file rawType).label := by
  intro always
  have plain := always {} (by simp) "s : String enum \x7b a; b; \x7d" "s" "String enum \x7b a b \x7d"
    (by decide +kernel) (SourceFile.ofText none []) '\x7b' (by decide)
  exact plain (by decide +kernel)

end SchemaDiagram

import Mathlib.Data.List.Infix
import SchemaDiagram.Proofs.Words
import SchemaDiagram.Proofs.Cuts
import SchemaDiagram.Proofs.Slices
import SchemaDiagram.Proofs.Endings
import SchemaDiagram.Proofs.Trimming

/-!
Fragments as slices of a text. Each of them begins at its keyword and is cut off at the end of a declaration. Behind the
keyword stands the name, unless that is the keyword of the next header itself.
-/

set_option autoImplicit false

namespace SchemaDiagram

-- A text that begins with the keyword of its kind, white space and a word of which the name is the last segment.
def Fragment.Headed (fragment : Fragment) : Prop :=
  ∃ keyword gap word rest, fragment.text = keyword ++ (gap ++ (word ++ rest)) ∧
    keyword.asciiLower = fragment.kind.keyword ∧
    (gap ≠ [] ∧ ∀ c ∈ gap, isWhite c = true) ∧
    (word ≠ [] ∧ ∀ c ∈ word, Scan.isWordChar c = true) ∧ rest.head?.any Scan.isWordChar = false ∧
    fragment.name = Text.afterLast '.' word

-- A declaration that its keyword is left of, since its name is the keyword of the next header, on another line.
def Declaration.Nameless (t : Text) (declaration : Declaration) : Prop :=
  declaration.ending = .header ∧ (Fragment.ofDeclaration declaration).text.asciiLower = declaration.kind.keyword ∧
    (∃ gap, declaration.text = (Fragment.ofDeclaration declaration).text ++ gap ∧ '\n' ∈ gap ∧
      ∀ c ∈ gap, isWhite c = true) ∧
    ∃ next ∈ Header.ofText t, ∃ keyword, next.start = declaration.stop ∧ next.lead.head? = some keyword ∧
      declaration.name = keyword.text

theorem Fragment.keyword_not_headed (fragment : Fragment) (alone : fragment.text.asciiLower = fragment.kind.keyword) :
    ¬ fragment.Headed := by
  rintro ⟨keyword, gap, word, rest, text, kind, ⟨filled, _⟩, _⟩
  have lengths := congrArg List.length (alone.trans kind.symm)
  rw [text, Text.asciiLower, Text.asciiLower, List.length_map, List.length_map, List.length_append,
    List.length_append] at lengths
  have more := List.length_pos_iff.mpr filled
  omega

theorem DeclarationKind.keyword_of_read (word : Text) (kind : DeclarationKind) (read : ofKeyword? word = some kind) :
    word = kind.keyword := by
  unfold ofKeyword? at read
  have same := List.find?_some read
  exact (of_decide_eq_true same).symm

theorem word_text (t : Text) (token : Token) (member : token ∈ tokenize t) (word : token.kind = .word) :
    token.text ≠ [] ∧ (∀ c ∈ token.text, Scan.isWordChar c = true) ∧ token.text.Solid := by
  have chars := word_chars_from 0 t token member word
  obtain ⟨c, front, _, text, _⟩ := cut_of_token 0 t token member
  exact ⟨by simp [text], chars, fun d among => Scan.word_char_not_white d (chars d among)⟩

theorem spaces_text (t : Text) (tokens : List Token) (inside : ∀ token ∈ tokens, token ∈ tokenize t)
    (spaces : ∀ token ∈ tokens, token.isSpace = true) : ∀ c ∈ untokenize tokens, isWhite c = true := by
  intro c member
  obtain ⟨token, among, within⟩ := List.mem_flatMap.mp member
  exact Scan.blank_white c (space_blank 0 t token (inside token among) (of_decide_eq_true (spaces token among)) c within)

theorem DeclarationKind.keyword_undotted (kind : DeclarationKind) : '.' ∉ kind.keyword := by
  cases kind <;> decide

namespace Fragment

section

variable {t : Text} {header : Header} {before gap : List Token} {keyword name : Token}
  (placed : header.Placed t before gap keyword name)

include placed

theorem keyword_text : keyword.text ≠ [] ∧ (∀ c ∈ keyword.text, Scan.isWordChar c = true) ∧ keyword.text.Solid :=
  word_text t keyword (by simp [placed.split]) placed.word

theorem gap_white : ∀ c ∈ untokenize gap, isWhite c = true :=
  spaces_text t gap (fun token member => by simp [placed.split, member]) placed.spelled.spaces

-- Trimming takes white space off the end only, as the text begins with the keyword.
theorem shown_front (limit : Option Nat) (limits : header.Limits t limit) :
    ∃ more, (Declaration.ofHeader header limit).text = keyword.text ++ more ∧
      (ofDeclaration (Declaration.ofHeader header limit)).text = keyword.text ++ more.trimEnd := by
  obtain ⟨filled, _, solid⟩ := keyword_text placed
  have before : limit.any (· ≤ keyword.start) = false := by
    cases limit with
    | none => rfl
    | some bound =>
      have later := (limits.later bound rfl).1
      rw [placed.spelled.start] at later
      simpa using later
  have lead : header.lead.takeWhile (fun token => !limit.any (· ≤ token.start)) =
      keyword :: (gap ++ [name]).takeWhile fun token => !limit.any (· ≤ token.start) := by
    rw [placed.spelled.lead, List.cons_append, List.takeWhile_cons_of_pos (by rw [before]; rfl)]
  obtain ⟨more, whole⟩ : ∃ more, (Declaration.ofHeader header limit).text = keyword.text ++ more := by
    rw [Declaration.text, Declaration.tokens, Declaration.ofHeader]
    dsimp only
    rw [lead, List.cons_append]
    exact ⟨_, List.flatMap_cons⟩
  refine ⟨more, whole, ?_⟩
  change (Declaration.ofHeader header limit).text.trim = _
  rw [whole, Text.trim_led _ _ filled solid]

theorem headed_whole (limit : Option Nat) (apart : ∀ token ∈ header.lead, limit.any (· ≤ token.start) = false) :
    (ofDeclaration (Declaration.ofHeader header limit)).Headed := by
  obtain ⟨keyFilled, _, keySolid⟩ := keyword_text placed
  obtain ⟨nameFilled, nameChars, nameSolid⟩ :=
    word_text t name (by rw [placed.at_name]; simp) placed.spelled.word
  have whole : (Declaration.ofHeader header limit).text = keyword.text ++
      ((untokenize gap ++ name.text) ++ untokenize (Declaration.extent limit 0 header.rest).1) := by
    rw [Declaration.text, Declaration.of_header_whole header limit apart, placed.spelled.lead]
    simp [untokenize]
  have gapFilled : untokenize gap ≠ [] := by
    obtain ⟨first, others, rfl⟩ := List.exists_cons_of_ne_nil placed.spelled.filled
    obtain ⟨c, front, _, text, _⟩ := cut_of_token 0 t first (by rw [← tokenize]; simp [placed.split])
    simp [untokenize, text]
  refine ⟨keyword.text, untokenize gap, name.text, (untokenize (Declaration.extent limit 0 header.rest).1).trimEnd,
    ?_, DeclarationKind.keyword_of_read _ _ placed.spelled.kind, ⟨gapFilled, gap_white placed⟩, ⟨nameFilled, nameChars⟩,
    ?_, placed.spelled.name⟩
  · change (Declaration.ofHeader header limit).text.trim = _
    rw [whole, Text.trim_led _ _ keyFilled keySolid,
      Text.trim_end_append _ _ (Text.trim_end_solid _ _ nameFilled nameSolid), List.append_assoc]
  · -- The word is a token, so the text behind it does not go on with it.
    obtain ⟨c, front, _, cut⟩ := cut_at_token 0 t _ _ name placed.at_name
    have stays := cut.apart 0
    rw [placed.spelled.word] at stays
    have taken := Declaration.extent_taken limit 0 header.rest
    exact Text.stops_front _ _ ((Text.trim_end_front _).trans (taken.flatMap Token.text)) stays

-- A keyword has no dot, so that it is all of the name.
theorem name_of_next (next : Header) (member : next ∈ Header.ofText t) (lead : next.lead.head? = some name) :
    header.name = name.text := by
  obtain ⟨_, other, _, _, spelled, _, _⟩ := Header.collected_spelled true _ next member
  rw [spelled.lead] at lead
  obtain rfl : other = name := Option.some.inj lead
  rw [placed.spelled.name]
  apply Text.after_last_whole
  intro dotted
  have still : '.' ∈ other.text.asciiLower := List.mem_map.mpr ⟨'.', dotted, rfl⟩
  rw [DeclarationKind.keyword_of_read _ _ spelled.kind] at still
  exact DeclarationKind.keyword_undotted next.kind still

theorem nameless (filled : header.rest ≠ []) (breaks : gap.any Token.isLineBreak = true) (next : Header)
    (member : next ∈ Header.ofText t) (start : next.start = name.start) (lead : next.lead.head? = some name) :
    (Declaration.ofHeader header (some name.start)).Nameless t := by
  have stop := Declaration.stop_nameless placed filled
  rw [Declaration.of_header_nameless placed filled] at stop ⊢
  obtain ⟨keyFilled, _, keySolid⟩ := keyword_text placed
  have white := gap_white placed
  have whole : Declaration.text ⟨header.kind, header.name, header.start, keyword :: gap, [], .header⟩ =
      keyword.text ++ untokenize gap := by simp [Declaration.text, Declaration.tokens, untokenize]
  have shown : (ofDeclaration ⟨header.kind, header.name, header.start, keyword :: gap, [], .header⟩).text =
      keyword.text := by
    rw [ofDeclaration, whole, Text.trim_led _ _ keyFilled keySolid, Text.trim_end_white _ white, List.append_nil]
  rw [Declaration.Nameless, shown]
  refine ⟨rfl, DeclarationKind.keyword_of_read _ _ placed.spelled.kind, ⟨untokenize gap, whole, ?_, white⟩,
    next, member, name, start.trans stop.symm, lead, name_of_next placed next member lead⟩
  obtain ⟨token, inside, breaks⟩ := List.any_eq_true.mp breaks
  rw [Token.isLineBreak, Bool.and_eq_true] at breaks
  exact List.mem_flatMap.mpr ⟨token, inside, List.mem_of_elem_eq_true breaks.2⟩

end

end Fragment

-- A declaration and what is shown of it are slices of the text, cut as the header and the tokens say.
structure Declaration.CutOut (t : Text) (declaration : Declaration) : Prop where
  slice : t.slice? declaration.start declaration.stop = some declaration.text
  ends : declaration.EndsAt t
  shown : ∃ stop, stop ≤ declaration.stop ∧
    t.slice? declaration.start stop = some (Fragment.ofDeclaration declaration).text
  filled : (Fragment.ofDeclaration declaration).text ≠ []
  trimmed : (Fragment.ofDeclaration declaration).text.trim = (Fragment.ofDeclaration declaration).text
  headed : (Fragment.ofDeclaration declaration).Headed ↔ ¬ declaration.Nameless t

theorem Declaration.cut_out (t : Text) (declaration : Declaration) (member : declaration ∈ ofText t) :
    declaration.CutOut t := by
  obtain ⟨header, among, limit, limits, rfl⟩ := of_text_limits t declaration member
  obtain ⟨before, gap, keyword, name, placed⟩ := header.placed t among
  obtain ⟨front, behind, text, start⟩ := text_of_source t header among limit
  obtain ⟨more, whole, shown⟩ := Fragment.shown_front placed limit limits
  obtain ⟨filled, _, solid⟩ := Fragment.keyword_text placed
  obtain ⟨back, parts, _⟩ := Text.trim_end_split more
  have cases := placed.limit_behind limit limits
  refine ⟨?_, ?_, ?_, ?_, ?_, ?_⟩
  · exact (Text.slice_eq_some_iff t _ _ _).mpr ⟨front, behind, text, start, rfl⟩
  · rcases cases with apart | ⟨rfl, behind, _⟩
    · exact ends_whole placed limit apart limits
    · exact ends_nameless placed behind limits
  · refine ⟨header.start + (keyword.text ++ more.trimEnd).byteSize, ?_, ?_⟩
    · rw [stop, whole]
      nth_rewrite 2 [parts]
      rw [← List.append_assoc, Text.byte_size_append _ back]
      exact Nat.add_le_add_left (Nat.le_add_right _ _) _
    · rw [shown]
      refine (Text.slice_eq_some_iff t _ _ _).mpr ⟨front, back ++ behind, ?_, start, rfl⟩
      nth_rewrite 1 [text, whole, parts]
      simp
  · rw [shown]
    exact List.append_ne_nil_of_left_ne_nil filled _
  · rw [shown, Text.trim_led _ _ filled solid, Text.trim_end_again]
  · rcases cases with apart | ⟨rfl, filled, breaks, next, member, start, lead⟩
    · have headed := Fragment.headed_whole placed limit apart
      exact iff_of_true headed fun nameless => Fragment.keyword_not_headed _ nameless.2.1 headed
    · have nameless := Fragment.nameless placed filled breaks next member start lead
      exact iff_of_false (Fragment.keyword_not_headed _ nameless.2.1) fun headed => headed nameless

-- The name has a place among the tokens, behind which the scan for the end of the declaration begins.
def Header.InRange (tokens : List Token) (header : Header) : Prop :=
  ∃ place, place < tokens.length ∧ tokens[place]? = header.lead.getLast? ∧ tokens.drop (place + 1) = header.rest

theorem Header.in_range (t : Text) (header : Header) (member : header ∈ ofText t) : header.InRange (tokenize t) := by
  obtain ⟨before, gap, keyword, name, placed⟩ := header.placed t member
  rw [placed.at_name]
  refine ⟨(before ++ keyword :: gap).length, by simp, ?_, ?_⟩
  · rw [List.getElem?_append_right (Nat.le_refl _), placed.spelled.lead, List.getLast?_append]
    simp
  · rw [List.drop_append]
    simp

-- Head and body of a fragment are slices of its text.
structure Fragment.InRange (fragment : Fragment) : Prop where
  head : fragment.text.slice? 0 fragment.head.byteSize = some fragment.head
  body : ∀ body, Body.ofText? fragment.text = some body → fragment.text.slice? body.start body.stop = some body.text

theorem Fragment.in_range (fragment : Fragment) : fragment.InRange := by
  refine ⟨?_, Body.of_text_in_range fragment.text⟩
  obtain ⟨behind, split⟩ := List.takeWhile_prefix (· ≠ '\x7b') (l := fragment.text)
  exact (Text.slice_eq_some_iff _ _ _ _).mpr ⟨[], behind, split.symm, rfl, (Nat.zero_add _).symm⟩

-- Each fragment is a slice of the text without comments, in order and apart from the others, and whatever is cut out
-- of a text or of its tokens is there.
theorem fragments_cut_out (source : Text) :
    (∃ shown : List Declaration, shown.Sublist (Declaration.ofText (withoutComments source)) ∧
      fragments source = shown.map Fragment.ofDeclaration) ∧
      (Declaration.ofText (withoutComments source)).Pairwise (fun a b => a.stop ≤ b.start) ∧
      (∀ declaration ∈ Declaration.ofText (withoutComments source), declaration.CutOut (withoutComments source)) ∧
      (∀ header ∈ Header.ofText (withoutComments source), header.InRange (tokenize (withoutComments source))) ∧
      ∀ fragment ∈ fragments source, fragment.InRange := by
  refine ⟨?_, Declaration.of_headers_apart 0 _, Declaration.cut_out _, Header.in_range _, fun fragment _ =>
    fragment.in_range⟩
  exact ⟨_, List.filter_sublist, List.filter_map⟩

-- The first header has the keyword of the second for its name, and nothing is left of its declaration.
theorem keyword_named_alone : ¬ ∀ source, ∀ fragment ∈ fragments source, fragment.Headed := by
  intro headed
  have alone : (⟨.entity, "entity", "entity"⟩ : Fragment) ∈ fragments "entity\nentity A \x7b \x7d" := by decide +kernel
  exact Fragment.keyword_not_headed _ (by decide) (headed _ _ alone)

end SchemaDiagram

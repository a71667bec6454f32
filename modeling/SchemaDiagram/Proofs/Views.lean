import SchemaDiagram.Proofs.Trimming
import SchemaDiagram.Proofs.Extents
import SchemaDiagram.Proofs.ViewScan

/-!
Which declarations are dropped. A declaration is a view or an enumeration by its text in front of the first brace
character. Where its name and the other tokens there say nothing by themselves, that is told by its tokens.
-/

set_option autoImplicit false

namespace SchemaDiagram

/-! White space around a text makes no difference. -/

theorem Text.apart_white (a b : Text) (white : ∀ c ∈ a, isWhite c = true) : apart a b = true ∧ apart b a = true := by
  have ends (o : Option Char) (inside : ∀ c, o = some c → c ∈ a) : o.any isWordUnit = false := by
    cases o with
    | none => rfl
    | some c => exact white_no_word c (white c (inside c rfl))
  have last := ends a.getLast? fun c found => List.mem_of_getLast? found
  have first := ends a.head? fun c found => List.mem_of_head? found
  simp [apart, last, first]

open Fragment

theorem shows_iff (t : Text) : showsView t = true ↔ Sighting.nothing.read (t.map foldCase) = .view :=
  (read_text _).nothing.symm

theorem shows_white (a t b : Text) (first : ∀ c ∈ a, isWhite c = true) (last : ∀ c ∈ b, isWhite c = true) :
    showsView (a ++ (t ++ b)) = showsView t := by
  rw [Bool.eq_iff_iff, shows_iff, shows_iff, List.map_append, List.map_append, fold_white a first, fold_white b last,
    Sighting.read_append _ _ _ (Text.apart_white a _ first).1, Sighting.read_white _ a first,
    Sighting.read_append _ _ _ (Text.apart_white b _ last).2, Sighting.read_white _ b last]

theorem head_shows (declaration : Declaration) :
    (ofDeclaration declaration).isView = showsView (declaration.text.takeWhile (· ≠ '\x7b')) := by
  obtain ⟨a, b, split, first, last⟩ := Text.trim_split declaration.text
  have passed (t : Text) (white : ∀ c ∈ t, isWhite c = true) : ∀ c ∈ t, decide (c ≠ '\x7b') = true := by
    intro c member
    apply decide_eq_true
    rintro rfl
    exact absurd (white _ member) (by decide)
  rw [is_view_found]
  change showsView (declaration.text.trim.takeWhile (· ≠ '\x7b')) = _
  generalize declaration.text.trim = inner at split
  rw [split, List.takeWhile_append_of_pos (passed a first), List.takeWhile_append]
  split
  · rename_i whole
    have same : inner.takeWhile (· ≠ '\x7b') = inner := (List.takeWhile_prefix _).eq_of_length whole
    rw [same, List.takeWhile_eq_self_iff.mpr (passed b last), shows_white a inner b first last]
  · have ended := shows_white a (inner.takeWhile (· ≠ '\x7b')) [] first (by simp)
    rw [List.append_nil] at ended
    exact ended.symm

-- Tokens that say nothing by themselves say nothing in front of others.
theorem shows_behind (lead tokens : List Token) (shaped : ∀ token ∈ lead, token.Shaped)
    (silent : ∀ token ∈ lead, token.kind = .space ∨ token.quiet = true) (apart : unjoined (lead ++ tokens) = true) :
    showsView (untokenize (lead ++ tokens)) = showsView (untokenize tokens) ∧ unjoined tokens = true := by
  induction lead with
  | nil => exact ⟨rfl, apart⟩
  | cons token lead ih =>
    rw [List.cons_append, unjoined, Bool.and_eq_true] at apart
    obtain ⟨same, others⟩ := ih (fun other member => shaped other (List.mem_cons_of_mem token member))
      (fun other member => silent other (List.mem_cons_of_mem token member)) apart.2
    refine ⟨?_, others⟩
    have first : Sighting.nothing.read (token.text.map foldCase) = .nothing := by
      rcases silent token List.mem_cons_self with space | quiet
      · have white := (shaped token List.mem_cons_self).space space
        rw [fold_white token.text white]
        exact Sighting.read_white _ token.text white
      · exact Sighting.read_quiet .nothing token quiet
    rw [← same, List.cons_append, untokenize, List.flatMap_cons, Bool.eq_iff_iff, shows_iff, shows_iff, List.map_append,
      Sighting.read_append, first]
    · rfl
    · rw [apart_fold]
      exact apart.1

-- The tokens in front of the first brace character, the last of them as far as that.
def beforeBrace : List Token → List Token
  | [] => []
  | token :: rest =>
    if '\x7b' ∈ token.text then
      let front := token.text.takeWhile (· ≠ '\x7b')
      if front.isEmpty then [] else [{ token with text := front }]
    else token :: beforeBrace rest

theorem before_brace_text (tokens : List Token) :
    untokenize (beforeBrace tokens) = (untokenize tokens).takeWhile (· ≠ '\x7b') := by
  induction tokens with
  | nil => rfl
  | cons token rest ih =>
    have whole : untokenize (token :: rest) = token.text ++ untokenize rest := List.flatMap_cons
    rw [beforeBrace, whole]
    split
    · rename_i brace
      have shorter : (token.text.takeWhile (· ≠ '\x7b')).length ≠ token.text.length := by
        intro same
        have all := List.takeWhile_eq_self_iff.mp ((List.takeWhile_prefix _).eq_of_length same) _ brace
        exact of_decide_eq_true all rfl
      rw [List.takeWhile_append, if_neg shorter]
      cases token.text.takeWhile (· ≠ '\x7b') with
      | nil => rfl
      | cons c front => exact List.append_nil _
    · rename_i free
      have passed : ∀ c ∈ token.text, decide (c ≠ '\x7b') = true := by
        intro c member
        exact decide_eq_true fun same => free (same ▸ member)
      rw [List.takeWhile_append_of_pos passed, ← ih]
      rfl

theorem before_brace_behind (lead tokens : List Token) (free : ∀ token ∈ lead, '\x7b' ∉ token.text) :
    beforeBrace (lead ++ tokens) = lead ++ beforeBrace tokens := by
  induction lead with
  | nil => rfl
  | cons token lead ih =>
    rw [List.cons_append, beforeBrace, if_neg (free token List.mem_cons_self), List.cons_append,
      ih fun other member => free other (List.mem_cons_of_mem token member)]

theorem before_brace_shaped (tokens : List Token) (shaped : ∀ token ∈ tokens, token.Shaped) :
    ∀ token ∈ beforeBrace tokens, token.Shaped := by
  induction tokens with
  | nil => simp [beforeBrace]
  | cons token rest ih =>
    obtain ⟨space, punct⟩ := shaped token List.mem_cons_self
    rw [beforeBrace]
    split
    · rename_i brace
      dsimp only
      split
      · simp
      · rename_i filled
        rw [List.forall_mem_singleton]
        -- A brace is no white space, and as a token by itself leaves nothing in front.
        constructor
        · intro kind
          exact absurd (space kind _ brace) (by decide)
        · intro kind
          obtain ⟨c, single⟩ := punct kind
          rw [single, List.mem_singleton] at brace
          rw [single, ← brace] at filled
          exact absurd rfl filled
    · rw [List.forall_mem_cons]
      exact ⟨⟨space, punct⟩, ih fun other member => shaped other (List.mem_cons_of_mem token member)⟩

theorem keyword_quiet (keyword : Token) (kind : DeclarationKind)
    (read : DeclarationKind.ofKeyword? keyword.text.asciiLower = some kind) : keyword.quiet = true := by
  have same : kind.keyword = keyword.text.asciiLower := by
    have found := List.find?_some read
    exact of_decide_eq_true found
  have folded : keyword.text.map foldCase = kind.keyword := by
    apply fold_of_lower keyword.text kind.keyword same.symm
    cases kind <;> decide
  rw [Token.quiet, showsView, List.map_append, List.map_append, folded]
  cases kind <;> decide

-- What a header is read from, as far as it belongs to the declaration.
theorem lead_of_text (t : Text) (declaration : Declaration) (reached : declaration ∈ Declaration.ofText t) :
    (∀ token ∈ declaration.lead, token.quiet = true ∨ token ∈ declaration.lead.tail) ∧
      (∀ token ∈ declaration.lead, token.kind = .space ∨ token.kind = .word) ∧
      declaration.tokens ⊆ tokenize t := by
  obtain ⟨header, among, limit, rfl⟩ := Declaration.of_headers_member 0 _ declaration reached
  obtain ⟨_, keyword, gap, name, spelled, word, _⟩ := Header.collected_spelled true _ header among
  have inside : (Declaration.ofHeader header limit).lead <+: keyword :: (gap ++ [name]) := by
    rw [← List.cons_append, ← spelled.lead]
    exact List.takeWhile_prefix _
  refine ⟨?_, ?_, ?_⟩
  · generalize (Declaration.ofHeader header limit).lead = lead at inside
    cases lead with
    | nil => simp
    | cons first lead =>
      intro token member
      obtain ⟨rfl, _⟩ := List.cons_prefix_cons.mp inside
      rcases List.mem_cons.mp member with rfl | later
      · exact .inl (keyword_quiet _ _ spelled.kind)
      · exact .inr later
  · intro token member
    rcases List.mem_cons.mp (inside.subset member) with rfl | later
    · exact .inr word
    · rcases List.mem_append.mp later with space | last
      · exact .inl (of_decide_eq_true (spelled.spaces token space))
      · rw [List.mem_singleton.mp last]
        exact .inr spelled.word
  · obtain ⟨before, after, whole, _⟩ := Declaration.of_header_stands t header among limit
    rw [whole]
    exact List.Subset.trans (List.subset_append_left _ _) (List.subset_append_right _ _)

theorem dropped_iff (source : Text) (declaration : Declaration)
    (reached : declaration ∈ Declaration.ofText (withoutComments source)) :
    ofDeclaration declaration ∉ fragments source ↔ (ofDeclaration declaration).isView = true := by
  have among : ofDeclaration declaration ∈ (Declaration.ofText (withoutComments source)).map ofDeclaration :=
    List.mem_map_of_mem reached
  simp [fragments, List.mem_filter, among]

theorem views_told (source : Text) (declaration : Declaration)
    (reached : declaration ∈ Declaration.ofText (withoutComments source)) :
    (ofDeclaration declaration ∉ fragments source ↔
      showsView (untokenize (beforeBrace declaration.tokens)) = true) ∧
      ((∀ token ∈ declaration.lead.tail, token.kind = .word → token.quiet = true) →
        (∀ token ∈ beforeBrace declaration.rest, token.legible = true) →
        unjoined (declaration.lead ++ beforeBrace declaration.rest) = true →
        (ofDeclaration declaration ∉ fragments source ↔
          tellsView ((beforeBrace declaration.rest).filter (!·.isSpace)) = true)) := by
  have dropped : ofDeclaration declaration ∉ fragments source ↔
      showsView (untokenize (beforeBrace declaration.tokens)) = true := by
    rw [dropped_iff source declaration reached, head_shows, before_brace_text]
    rfl
  refine ⟨dropped, ?_⟩
  intro named legible apart
  obtain ⟨first, kinds, among⟩ := lead_of_text _ declaration reached
  have shaped : ∀ token ∈ declaration.tokens, token.Shaped := fun token member => token_shaped 0 _ token (among member)
  have inLead : ∀ token ∈ declaration.lead, token.Shaped := fun token member =>
    shaped token (List.mem_append_left _ member)
  have behind : ∀ token ∈ declaration.rest, token.Shaped := fun token member =>
    shaped token (List.mem_append_right _ member)
  have silent : ∀ token ∈ declaration.lead, token.kind = .space ∨ token.quiet = true := by
    intro token member
    rcases first token member with quiet | later
    · exact .inr quiet
    · exact (kinds token member).imp id (named token later)
  have free : ∀ token ∈ declaration.lead, '\x7b' ∉ token.text := by
    intro token member brace
    rcases kinds token member with space | word
    · exact absurd ((inLead token member).space space _ brace) (by decide)
    · exact absurd (word_chars_from 0 _ token (among (List.mem_append_left _ member)) word _ brace) (by decide)
  obtain ⟨same, others⟩ := shows_behind declaration.lead _ inLead silent apart
  rw [dropped, Declaration.tokens, before_brace_behind _ _ free, same,
    tokens_told _ (before_brace_shaped _ behind) legible others]

def queriedBooks : Text :=
  "@(x: 'enum') entity Books @title: 'as told' : my.Enumerated AS ( SELECT from Shelf \x7b id \x7d );"

theorem queried_books_dropped : ∃ declaration ∈ Declaration.ofText (withoutComments queriedBooks),
    (∀ token ∈ declaration.lead.tail, token.kind = .word → token.quiet = true) ∧
      (∀ token ∈ beforeBrace declaration.rest, token.legible = true) ∧
      unjoined (declaration.lead ++ beforeBrace declaration.rest) = true ∧
      ofDeclaration declaration ∉ fragments queriedBooks := by
  have found : ∃ declaration ∈ Declaration.ofText (withoutComments queriedBooks),
      (∀ token ∈ declaration.lead.tail, token.kind = .word → token.quiet = true) ∧
        (∀ token ∈ beforeBrace declaration.rest, token.legible = true) ∧
        unjoined (declaration.lead ++ beforeBrace declaration.rest) = true ∧
        tellsView ((beforeBrace declaration.rest).filter (!·.isSpace)) = true := by decide +kernel
  obtain ⟨declaration, reached, named, legible, apart, told⟩ := found
  refine ⟨declaration, reached, named, legible, apart, ?_⟩
  exact ((views_told queriedBooks declaration reached).2 named legible apart).mpr told

-- What the tokens behind the name and in front of the body tell, the annotations and literals among them passed over.
def Declaration.tellsView (declaration : Declaration) : Bool :=
  SchemaDiagram.tellsView ((declaration.rest.takeWhile (!·.isPunct '\x7b')).filter fun token =>
    !token.isSpace && token.kind ≠ .tag && token.kind ≠ .literal)

def namedEnum : Text := "entity Enum \x7b a : String; \x7d"

def notedEnum : Text := "type Size @(x: \x7b a: 1 \x7d) : String enum \x7b small; large; \x7d;"

-- A name is taken for an enumeration, and a brace in an annotation for the beginning of the body.
theorem view_told_neither_way :
    (¬ ∀ source : Text, ∀ declaration ∈ Declaration.ofText (withoutComments source),
      ofDeclaration declaration ∉ fragments source → declaration.tellsView = true) ∧
    ¬ ∀ source : Text, ∀ declaration ∈ Declaration.ofText (withoutComments source),
      declaration.tellsView = true → ofDeclaration declaration ∉ fragments source := by
  constructor
  · intro always
    have found : ∃ declaration ∈ Declaration.ofText (withoutComments namedEnum),
        ofDeclaration declaration ∉ fragments namedEnum ∧ declaration.tellsView = false := by decide +kernel
    obtain ⟨declaration, reached, dropped, untold⟩ := found
    rw [always namedEnum declaration reached dropped] at untold
    contradiction
  · intro always
    have found : ∃ declaration ∈ Declaration.ofText (withoutComments notedEnum),
        declaration.tellsView = true ∧ ofDeclaration declaration ∈ fragments notedEnum := by decide +kernel
    obtain ⟨declaration, reached, told, kept⟩ := found
    exact always notedEnum declaration reached told kept

end SchemaDiagram

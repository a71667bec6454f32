import SchemaDiagram.Proofs.Extents
import SchemaDiagram.Proofs.LineEnds.Token
import SchemaDiagram.SourceFile

/-!
Declarations of a text with and without its CRs: they begin and end at the same places, and so hold the same text
but for the CRs in it. A file declares the same names in the same namespace.
-/

set_option autoImplicit false

namespace SchemaDiagram

open Text

/-! Lists whose elements go in pairs, under tests that each pair passes or fails together. -/

section

variable {α β : Type} {R : α → β → Prop} {p : α → Bool} {q : β → Bool} {as : List α} {bs : List β}
  (related : List.Forall₂ R as bs) (same : ∀ a b, R a b → q b = p a)

include related same

theorem related_take_while : List.Forall₂ R (as.takeWhile p) (bs.takeWhile q) := by
  induction related with
  | nil => exact .nil
  | cons first _ ih =>
    rw [List.takeWhile_cons, List.takeWhile_cons, same _ _ first]
    split
    · exact .cons first ih
    · exact .nil

theorem related_drop_while : List.Forall₂ R (as.dropWhile p) (bs.dropWhile q) := by
  induction related with
  | nil => exact .nil
  | cons first others ih =>
    rw [List.dropWhile_cons, List.dropWhile_cons, same _ _ first]
    split
    · exact ih
    · exact .cons first others

theorem related_filter : List.Forall₂ R (as.filter p) (bs.filter q) :=
  List.rel_filter (fun a b pair => by simp [same a b pair]) related

theorem related_any : bs.any q = as.any p := by
  induction related with
  | nil => rfl
  | cons first _ ih => rw [List.any_cons, List.any_cons, same _ _ first, ih]

theorem related_all : bs.all q = as.all p := by
  induction related with
  | nil => rfl
  | cons first _ ih => rw [List.all_cons, List.all_cons, same _ _ first, ih]

end

theorem related_empty {α β : Type} {R : α → β → Prop} {as : List α} {bs : List β} (related : List.Forall₂ R as bs) :
    bs.isEmpty = as.isEmpty := by
  cases related <;> rfl

variable (t : Text)

-- A header of a text and the same header without the CRs.
structure Header.Bare (header other : Header) : Prop where
  kind : other.kind = header.kind
  name : other.name = header.name
  start : Aligned t header.start other.start
  lead : List.Forall₂ (Token.Placed t) header.lead other.lead
  rest : List.Forall₂ (Token.Placed t) header.rest other.rest

structure Declaration.Bare (declaration other : Declaration) : Prop where
  kind : other.kind = declaration.kind
  name : other.name = declaration.name
  text : other.text = declaration.text.withoutReturns
  paired : pairedReturns declaration.text = true
  stop : Aligned t declaration.stop other.stop

namespace Header

theorem of_keyword_bare (keyword keyword' : Token) (rest rest' : List Token) (first : Token.Placed t keyword keyword')
    (word : keyword.kind = .word) (others : List.Forall₂ (Token.Placed t) rest rest') :
    Option.Rel (Bare t) (ofKeyword? keyword rest) (ofKeyword? keyword' rest') := by
  have gap := related_take_while others fun _ _ placed => placed.is_space
  have behind := related_drop_while others fun _ _ placed => placed.is_space
  rw [ofKeyword?, ofKeyword?, first.solid_text (.inl word)]
  cases DeclarationKind.ofKeyword? keyword.text.asciiLower with
  | none => exact .none
  | some kind =>
    dsimp only
    rw [related_empty gap]
    generalize rest.dropWhile Token.isSpace = after at behind ⊢
    generalize rest'.dropWhile Token.isSpace = after' at behind ⊢
    cases behind with
    | nil => exact .none
    | cons named after =>
      rename_i name name' _ _
      dsimp only
      rw [named.kind]
      split
      · exact .none
      · rename_i solid
        rw [Bool.or_eq_true, not_or] at solid
        have called : name'.text = name.text := named.solid_text (.inl (by simpa using solid.2))
        refine .some ⟨rfl, ?_, first.start, ?_, after⟩
        · rw [called]
        · exact .cons first (List.rel_append gap (.cons named .nil))

theorem collect_bare (boundary : Bool) (tokens others : List Token)
    (placed : List.Forall₂ (Token.Placed t) tokens others) :
    List.Forall₂ (Bare t) (collect boundary tokens) (collect boundary others) := by
  induction placed generalizing boundary with
  | nil => exact .nil
  | cons first behind ih =>
    rename_i token other rest rest'
    rw [collect, collect, first.kind]
    cases kind : token.kind with
    | space =>
      dsimp only
      rw [first.is_line_break]
      exact ih _
    | comment => exact ih _
    | tag => exact ih _
    | literal => exact ih _
    | punct =>
      dsimp only
      rw [first.is_punct, first.is_punct]
      exact ih _
    | word =>
      dsimp only
      rw [first.is_word]
      split
      · exact ih _
      · cases boundary with
        | false => exact ih _
        | true =>
          have read := of_keyword_bare t token other rest rest' first kind behind
          rw [if_pos rfl, if_pos rfl]
          generalize ofKeyword? token rest = found at read ⊢
          generalize ofKeyword? other rest' = found' at read ⊢
          cases read with
          | none => exact ih _
          | some header => exact .cons header (ih _)

end Header

namespace Declaration

theorem limit_alike (limit limit' : Option Nat) (same : Option.Rel (Aligned t) limit limit') (token other : Token)
    (placed : Token.Placed t token other) :
    limit'.any (· ≤ other.start) = limit.any (· ≤ token.start) := by
  cases same with
  | none => rfl
  | some place => exact decide_eq_decide.mpr (place.le_iff placed.start).symm

theorem extent_bare (limit limit' : Option Nat) (same : Option.Rel (Aligned t) limit limit') (depth : Nat)
    (tokens others : List Token) (placed : List.Forall₂ (Token.Placed t) tokens others) :
    List.Forall₂ (Token.Placed t) (extent limit depth tokens).1 (extent limit' depth others).1 := by
  induction placed generalizing depth with
  | nil => exact .nil
  | cons first behind ih =>
    rename_i token other rest rest'
    rw [extent, extent, limit_alike t limit limit' same token other first, first.is_punct, first.is_punct,
      first.is_punct]
    split
    · exact .nil
    · split
      · exact .cons first (ih _)
      · split
        · split
          · exact .cons first .nil
          · exact .cons first (ih _)
        · split
          · exact .cons first .nil
          · exact .cons first (ih _)

theorem of_header_bare (header other : Header) (member : header ∈ Header.ofText t) (bare : Header.Bare t header other)
    (limit limit' : Option Nat) (same : Option.Rel (Aligned t) limit limit') :
    Bare t (ofHeader header limit) (ofHeader other limit') := by
  have lead := related_take_while (p := fun token => !limit.any (· ≤ token.start))
    (q := fun token => !limit'.any (· ≤ token.start)) bare.lead
    fun token other placed => by rw [limit_alike t limit limit' same token other placed]
  have rest := extent_bare t limit limit' same 0 header.rest other.rest bare.rest
  have tokens : List.Forall₂ (Token.Placed t) (ofHeader header limit).tokens (ofHeader other limit').tokens :=
    List.rel_append lead rest
  obtain ⟨text, paired⟩ : (ofHeader other limit').text = (ofHeader header limit).text.withoutReturns ∧
      pairedReturns (ofHeader header limit).text = true :=
    untokenize_bare (tokens.imp fun _ _ placed => placed.toBare)
  obtain ⟨front, behind, split, start⟩ := text_of_source t header member limit
  have before : front <+: t := ⟨_, split.symm⟩
  have place := bare.start
  rw [start] at place
  obtain ⟨first, other_start⟩ := Aligned.of_front t front other.start place before
  refine ⟨bare.kind, bare.name, text, paired, ?_⟩
  have whole : front ++ (ofHeader header limit).text <+: t := ⟨behind, by rw [split, List.append_assoc]⟩
  have stop := Aligned.onward t front (ofHeader header limit).text whole first paired
  rw [← start, ← other_start, ← text] at stop
  exact stop

theorem of_headers_bare (consumed consumed' : Nat) (same : Aligned t consumed consumed') (headers others : List Header)
    (among : headers ⊆ Header.ofText t) (bare : List.Forall₂ (Header.Bare t) headers others) :
    List.Forall₂ (Bare t) (ofHeaders consumed headers) (ofHeaders consumed' others) := by
  induction bare generalizing consumed consumed' with
  | nil => exact .nil
  | cons first behind ih =>
    rename_i header other rest rest'
    have later : rest ⊆ Header.ofText t := fun _ member => among (List.mem_cons_of_mem header member)
    have inside : other.start < consumed' ↔ header.start < consumed := (first.start.lt_iff same).symm
    have limit : Option.Rel (Aligned t) (rest.head?.map Header.start) (rest'.head?.map Header.start) := by
      cases behind with
      | nil => exact .none
      | cons next _ => exact .some next.start
    rw [ofHeaders, ofHeaders]
    by_cases within : header.start < consumed
    · rw [if_pos within, if_pos (inside.mpr within)]
      exact ih consumed consumed' same later
    · rw [if_neg within, if_neg (mt inside.mp within)]
      have declaration := of_header_bare t header other (among List.mem_cons_self) first _ _ limit
      exact .cons declaration (ih _ _ declaration.stop later)

theorem of_text_bare (paired : pairedReturns t = true) :
    List.Forall₂ (Bare t) (ofText t) (ofText (withoutReturns t)) := by
  have headers := Header.collect_bare t true _ _ (tokenize_placed t paired)
  exact of_headers_bare t 0 0 (Aligned.start t) _ _ (List.Subset.refl _) headers

end Declaration

/-! Whether a declaration is shown. -/

namespace Fragment

def withoutReturns (fragment : Fragment) : Fragment := { fragment with text := fragment.text.withoutReturns }

theorem lower_return (c : Char) : c.toLower = '\r' ↔ c = '\r' := by
  unfold Char.toLower
  split
  · rename_i upper
    have low := UInt32.le_iff_toNat_le.mp upper.1
    have high := UInt32.le_iff_toNat_le.mp upper.2
    have first : 'A'.val.toNat = 65 := rfl
    have last : 'Z'.val.toNat = 90 := rfl
    have step : ('a'.val - 'A'.val).toNat = 32 := rfl
    have code : '\r'.val.toNat = 13 := rfl
    constructor
    · intro same
      have sum := congrArg (fun c => c.val.toNat) same
      simp only [UInt32.toNat_add, step] at sum
      omega
    · rintro rfl
      omega
  · rfl

theorem fold_case_return (c : Char) : foldCase c = '\r' ↔ c = '\r' := by
  unfold foldCase
  split
  · rename_i long
    subst long
    exact iff_of_false (by decide) (by decide)
  · split
    · rename_i kelvin
      subst kelvin
      exact iff_of_false (by decide) (by decide)
    · exact lower_return c

theorem fold_case_without_returns (t : Text) (paired : pairedReturns t = true) :
    (Text.withoutReturns t).map foldCase = Text.withoutReturns (t.map foldCase) ∧
      pairedReturns (t.map foldCase) = true := by
  induction t, paired using paired_induction with
  | nil => exact ⟨rfl, rfl⟩
  | ending rest _ _ ih => exact ih
  | other c rest apart _ _ ih =>
    have folded : foldCase c ≠ '\r' := mt (fold_case_return c).mp apart
    rw [without_returns_other rest c apart, List.map_cons, List.map_cons, without_returns_other _ _ folded,
      paired_other _ _ folded, ih.1]
    exact ⟨rfl, ih.2⟩

theorem starts_query_without_returns (t : Text) (paired : pairedReturns t = true) :
    startsQuery (Text.withoutReturns t) = startsQuery t := by
  rw [startsQuery, startsQuery, after_without_returns "as" (by decide) t paired]
  cases found : Text.after? "as" t with
  | none => rfl
  | some rest =>
    have behind := paired_drop_while isWhite rest (paired_after "as" t rest paired found)
    rw [Option.map_some]
    dsimp only
    rw [drop_while_passing isWhite (by decide) rest, after_without_returns "(" (by decide) _ behind]
    have query (inner : Text) (inside : pairedReturns inner = true) :
        ((afterWord? "projection" ((Text.withoutReturns inner).dropWhile isWhite)).isSome ||
          (afterWord? "select" ((Text.withoutReturns inner).dropWhile isWhite)).isSome) =
        ((afterWord? "projection" (inner.dropWhile isWhite)).isSome ||
          (afterWord? "select" (inner.dropWhile isWhite)).isSome) := by
      have further := paired_drop_while isWhite inner inside
      rw [drop_while_passing isWhite (by decide) inner, after_word_without_returns "projection" (by decide) _ further,
        after_word_without_returns "select" (by decide) _ further]
    cases opened : Text.after? "(" (rest.dropWhile isWhite) with
    | none => exact query _ behind
    | some inner => exact query inner (paired_after "(" _ inner behind opened)

theorem is_view_without_returns (fragment : Fragment) (paired : pairedReturns fragment.text = true) :
    fragment.withoutReturns.isView = fragment.isView := by
  have head : fragment.withoutReturns.head = Text.withoutReturns fragment.head :=
    take_while_passing (· ≠ '{') (by decide) fragment.text
  have first : pairedReturns fragment.head = true := paired_take_while _ (by decide) fragment.text paired
  obtain ⟨folded, further⟩ := fold_case_without_returns fragment.head first
  rw [isView, isView, head, folded, has_word_without_returns "enum" (by decide) (by decide) _ further,
    any_word_start_without_returns startsQuery (fun _ => ⟨rfl, rfl⟩) starts_query_without_returns false _ further]

theorem of_declaration_bare (t : Text) (declaration other : Declaration)
    (bare : Declaration.Bare t declaration other) :
    ofDeclaration other = (ofDeclaration declaration).withoutReturns ∧
      pairedReturns (ofDeclaration declaration).text = true := by
  refine ⟨?_, paired_trim _ bare.paired⟩
  rw [ofDeclaration, bare.kind, bare.name, bare.text, trim_without_returns]
  rfl

end Fragment

theorem fragments_without_returns (source : Text) (paired : pairedReturns source = true) :
    fragments (withoutReturns source) = (fragments source).map Fragment.withoutReturns ∧
      ∀ fragment ∈ fragments source, pairedReturns fragment.text = true := by
  obtain ⟨comments, code⟩ := without_comments_bare source paired
  have declarations := Declaration.of_text_bare _ code
  rw [fragments, fragments, comments]
  generalize Declaration.ofText (withoutComments source) = declared at declarations ⊢
  generalize Declaration.ofText (withoutReturns (withoutComments source)) = others at declarations ⊢
  induction declarations with
  | nil => exact ⟨rfl, by simp⟩
  | cons first _ ih =>
    obtain ⟨same, inside⟩ := Fragment.of_declaration_bare _ _ _ first
    rw [List.map_cons, List.map_cons, List.filter_cons, List.filter_cons, same,
      Fragment.is_view_without_returns _ inside]
    split
    · refine ⟨?_, ?_⟩
      · rw [ih.1, List.map_cons]
      · intro fragment member
        rcases List.mem_cons.mp member with rfl | later
        · exact inside
        · exact ih.2 fragment later
    · exact ih

theorem declared_names_without_returns (source : Text) (paired : pairedReturns source = true) :
    declaredNames (withoutReturns source) = declaredNames source := by
  obtain ⟨comments, code⟩ := without_comments_bare source paired
  have headers := Header.collect_bare _ true _ _ (tokenize_placed _ code)
  rw [declaredNames, declaredNames, comments, Header.ofText, Header.ofText]
  generalize Header.collect true (tokenize (withoutComments source)) = among at headers ⊢
  generalize Header.collect true (tokenize (withoutReturns (withoutComments source))) = others at headers ⊢
  induction headers with
  | nil => rfl
  | cons first _ ih => rw [List.map_cons, List.map_cons, first.name, ih]

namespace Namespace

/-! The name on a line ends where a character stands that neither a name nor the gap in front of it goes on with. -/

theorem drop_while_stopped (test : Char → Bool) (c : Char) (stops : test c = false) (t behind : Text) :
    (t ++ c :: behind).dropWhile test = t.dropWhile test ++ c :: behind := by
  induction t with
  | nil => exact List.dropWhile_cons_of_neg (by simp [stops])
  | cons d rest ih =>
    rw [List.cons_append, List.dropWhile_cons, List.dropWhile_cons]
    split
    · exact ih
    · rfl

theorem take_while_stopped (test : Char → Bool) (c : Char) (stops : test c = false) (t behind : Text) :
    (t ++ c :: behind).takeWhile test = t.takeWhile test := by
  induction t with
  | nil => exact List.takeWhile_cons_of_neg (by simp [stops])
  | cons d rest ih =>
    rw [List.cons_append, List.takeWhile_cons, List.takeWhile_cons, ih]

theorem after_stopped (lead : Text) (c : Char) (absent : c ∉ lead) (t behind : Text) :
    after? lead (t ++ c :: behind) = (after? lead t).map (· ++ c :: behind) := by
  induction lead generalizing t with
  | nil => rfl
  | cons p lead ih =>
    obtain ⟨apart, others⟩ : c ≠ p ∧ c ∉ lead := by simpa using absent
    cases t with
    | nil => exact if_neg (Ne.symm apart)
    | cons d rest =>
      rw [List.cons_append, after?, after?]
      split
      · exact ih others rest
      · rfl

theorem of_line_stopped (c : Char) (solid : isGap c = false) (ends : (isWordUnit c || c = '.') = false)
    (absent : c ∉ "namespace".toList) (line behind : Text) : ofLine? (line ++ c :: behind) = ofLine? line := by
  rw [ofLine?, ofLine?, drop_while_stopped isGap c solid, after_stopped "namespace" c absent]
  cases Text.after? "namespace" (line.dropWhile isGap) with
  | none => rfl
  | some rest =>
    have head : (rest ++ c :: behind).head?.any isGap = rest.head?.any isGap := by
      cases rest with
      | nil => simp [solid]
      | cons => rfl
    rw [Option.map_some]
    dsimp only
    rw [drop_while_stopped isGap c solid, take_while_stopped _ c ends, head]

theorem of_line_return (line : Text) : ofLine? (line ++ ['\r']) = ofLine? line :=
  of_line_stopped '\r' (by decide) (by decide) (by decide) line []

theorem of_line_without_returns (t : Text) (paired : pairedReturns t = true) (line : Text) (member : line ∈ lines t) :
    ofLine? (withoutReturns line) = ofLine? line := by
  rcases line_returns t paired line member with free | ⟨front, free, rfl⟩
  · rw [without_returns_free line free]
  · rw [without_returns_append, without_returns_free front free, of_line_return]
    exact congrArg ofLine? (List.append_nil front)

theorem of_source_without_returns (source : Text) (paired : pairedReturns source = true) :
    ofSource? (withoutReturns source) = ofSource? source := by
  obtain ⟨comments, code⟩ := without_comments_bare source paired
  have each := of_line_without_returns _ code
  rw [ofSource?, ofSource?, comments, lines_without_returns]
  generalize lines (withoutComments source) = among at each
  induction among with
  | nil => rfl
  | cons line rest ih =>
    rw [List.map_cons, List.findSome?_cons, List.findSome?_cons, each line List.mem_cons_self,
      ih fun other member => each other (List.mem_cons_of_mem line member)]

end Namespace

namespace SourceFile

def withoutReturns (file : SourceFile) : SourceFile :=
  { file with text := file.text.withoutReturns, fragments := file.fragments.map Fragment.withoutReturns }

theorem of_text_without_returns (path : Option Path) (text : Text) (paired : pairedReturns text = true) :
    ofText path text.withoutReturns = (ofText path text).withoutReturns := by
  rw [ofText, Namespace.of_source_without_returns text paired, declared_names_without_returns text paired,
    (fragments_without_returns text paired).1]
  rfl

end SourceFile

end SchemaDiagram

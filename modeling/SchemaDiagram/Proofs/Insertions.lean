import SchemaDiagram.Proofs.Fillings
import SchemaDiagram.Proofs.Seams

/-!
An annotation put in behind the type of an element. The declaration around the place is the only one that changes, and of
it only the text of the body.
-/

set_option autoImplicit false

namespace SchemaDiagram

open Scan

-- An annotation put in among blanks, with a blank in front of it; the two runs of blanks may be empty.
structure Insertion where
  left : Text
  bare : Bool
  body : Text
  right : Text
  leads : ∀ c ∈ left, isBlank c = true
  shape : Annotation bare body
  trails : ∀ c ∈ right, isBlank c = true

theorem loose_blanks (g : Text) (blanks : ∀ c ∈ g, isBlank c = true) : Loose (tokenize g) := by
  rcases tokens_of_blanks g blanks with rfl | alone
  · simp [tokenize_nil, Loose]
  · simp [alone, Loose]

theorem breaks_blanks (g : Text) (blanks : ∀ c ∈ g, isBlank c = true) :
    (tokenize g).any Token.isLineBreak = g.elem '\n' := by
  rcases tokens_of_blanks g blanks with rfl | alone
  · simp [tokenize_nil]
  · simp [alone, Token.isLineBreak]

namespace Insertion

variable (insertion : Insertion)

def gap : Text := insertion.left ++ insertion.right

def text : Text := insertion.left ++ ' ' :: '@' :: (insertion.body ++ insertion.right)

def bytes : Nat := 1 + Text.byteSize ('@' :: insertion.body)

-- A word as the value of the annotation has no brace right behind it.
def Fits (y : Text) : Prop := insertion.bare = true → insertion.right = [] → y.head? ≠ some '\x7d'

theorem size : insertion.text.byteSize = insertion.bytes + insertion.gap.byteSize := by
  have blank : ' '.utf8Size = 1 := rfl
  simp only [text, gap, bytes, Text.byte_size_append, Text.byteSize, blank]
  omega

theorem blanks : ∀ c ∈ insertion.gap, isBlank c = true := by
  intro c member
  exact (List.mem_append.mp member).elim (insertion.leads c) (insertion.trails c)

theorem tokens_before (u : Text) (follows : Follows insertion.bare u) :
    tokenize (insertion.left ++ ' ' :: '@' :: (insertion.body ++ u)) =
      ⟨.space, insertion.left ++ [' '], 0⟩ :: ⟨.tag, '@' :: insertion.body, insertion.left.byteSize + 1⟩ ::
        (tokenize u).map (Token.moved (insertion.left.byteSize + insertion.bytes)) := by
  have blanks : ∀ c ∈ insertion.left ++ [' '], isBlank c = true := by
    intro c member
    rcases List.mem_append.mp member with inside | last
    · exact insertion.leads c inside
    · obtain rfl := List.mem_singleton.mp last
      rfl
  have alone : tokenize (insertion.left ++ [' ']) = [⟨.space, insertion.left ++ [' '], 0⟩] :=
    (tokens_of_blanks _ blanks).resolve_left (by simp)
  have front := Apart.of_blanks (insertion.left ++ [' ']) ('@' :: (insertion.body ++ u)) blanks rfl
  rw [Apart, alone, tokenize_of_cut '@' insertion.body u .tag (insertion.shape.cut insertion.bare _ u follows),
    List.append_assoc, List.map_cons, moved_again, Text.byte_size_append] at front
  refine front.trans ?_
  simp only [List.singleton_append, Token.moved, Text.byteSize, Nat.add_zero, bytes, Nat.add_assoc]
  rfl

theorem follows (y : Text) (ends : Ends y) (fits : insertion.Fits y) :
    Follows insertion.bare (insertion.right ++ y) :=
  ends.follows insertion.bare insertion.right y insertion.trails fits

theorem tokens : tokenize insertion.text =
    ⟨.space, insertion.left ++ [' '], 0⟩ :: ⟨.tag, '@' :: insertion.body, insertion.left.byteSize + 1⟩ ::
      (tokenize insertion.right).map (Token.moved (insertion.left.byteSize + insertion.bytes)) := by
  have follows := insertion.follows [] (by simp [Ends]) (by simp [Fits])
  rw [List.append_nil] at follows
  exact insertion.tokens_before insertion.right follows

theorem loose : Loose (tokenize insertion.text) := by
  rw [insertion.tokens, Loose, List.forall_mem_cons, List.forall_mem_cons]
  exact ⟨.inl rfl, .inr rfl, (loose_blanks insertion.right insertion.trails).moved _⟩

theorem breaks : (tokenize insertion.text).any Token.isLineBreak = (tokenize insertion.gap).any Token.isLineBreak := by
  have moved (bytes : Nat) : Token.isLineBreak ∘ Token.moved bytes = Token.isLineBreak := rfl
  rw [insertion.tokens, breaks_blanks _ insertion.blanks, List.any_cons, List.any_cons, List.any_map, moved,
    breaks_blanks insertion.right insertion.trails]
  simp [Token.isLineBreak, gap]

theorem apart (y : Text) (ends : Ends y) (fits : insertion.Fits y) : Apart insertion.text y := by
  have whole : insertion.text ++ y = insertion.left ++ ' ' :: '@' :: (insertion.body ++ (insertion.right ++ y)) := by
    simp [text]
  rw [Apart, whole, insertion.tokens_before _ (insertion.follows y ends fits), ends.apart insertion.right y insertion.trails,
    insertion.tokens, List.map_append, moved_again, insertion.size]
  have size : insertion.left.byteSize + insertion.bytes + insertion.right.byteSize =
      insertion.bytes + insertion.gap.byteSize := by
    rw [gap, Text.byte_size_append]
    omega
  rw [size]
  rfl

theorem halts (w y : Text) : Halts w (insertion.text ++ y) := by
  have first (test : Char → Bool) (blind : ∀ c, isBlank c = true → test c = false) :
      (insertion.text ++ y).head?.any test = false := by
    rw [text]
    cases lead : insertion.left with
    | nil => exact blind ' ' rfl
    | cons c left => exact blind c (insertion.leads c (by simp [lead]))
  refine ⟨first isWordChar fun c blank => (blank_tests c blank).1, first opens fun c blank => (blank_tests c blank).2.2.1,
    first _ fun c blank => (blank_tests c blank).2.2.2, ?_, fun _ => first isValueChar fun c blank => (blank_tests c blank).2.1⟩
  have whole : insertion.text ++ y = insertion.left ++ ' ' :: '@' :: (insertion.body ++ insertion.right ++ y) := by
    simp [text]
  rw [whole, after_value_eq, List.dropWhile_append_of_pos insertion.leads]
  rfl

/-! The headers and declarations of a text that an annotation is put in. -/

-- The tokens behind the front of a text, with `g` between it and the rest.
def tokensBehind (x g y : Text) : List Token :=
  (tokenize g).map (Token.moved x.byteSize) ++ (tokenize y).map (Token.moved (x.byteSize + g.byteSize))

theorem tokens_behind_moved (x y : Text) :
    tokensBehind x insertion.text y = (tokenize insertion.text).map (Token.moved x.byteSize) ++
      ((tokenize y).map (Token.moved (x.byteSize + insertion.gap.byteSize))).map (Token.moved insertion.bytes) := by
  rw [tokensBehind, moved_again, insertion.size, Nat.add_left_comm]

theorem behind_far (x g y : Text) : ∀ token ∈ tokensBehind x g y, x.byteSize ≤ token.start := by
  intro token member
  rcases List.mem_append.mp member with inside | inside
  · obtain ⟨other, _, rfl⟩ := List.mem_map.mp inside
    exact Nat.le_add_right _ _
  · obtain ⟨other, _, rfl⟩ := List.mem_map.mp inside
    exact Nat.le_add_right_of_le (Nat.le_add_right _ _)

theorem behind_filled (x g y : Text) (filled : y ≠ []) : tokensBehind x g y ≠ [] := by
  have more : (tokenize y).map (Token.moved (x.byteSize + g.byteSize)) ≠ [] :=
    mt List.map_eq_nil_iff.mp (mt (tokenize_eq_nil_iff y).mp filled)
  simp [tokensBehind, more]

theorem marked (bytes : Nat) (y : Text) (ends : Ends y) : Marked ((tokenize y).map (Token.moved bytes)) := by
  cases y with
  | nil => simp [tokenize_nil, Marked]
  | cons c y =>
    have plain : isPlain c = true := by rcases ends c rfl with rfl | rfl <;> decide
    have read := tokenize_of_cut c [] y .punct (.plain c y plain)
    change tokenize (c :: y) = _ at read
    simp [read, Marked]

theorem Fits.front (y z : Text) (fits : insertion.Fits y) (inside : z <+: y) : insertion.Fits z := by
  obtain ⟨more, rfl⟩ := inside
  intro word alone brace
  obtain ⟨rest, rfl⟩ := List.head?_eq_some_iff.mp brace
  exact fits word alone rfl

section

variable (x y : Text) (seam : Seam x (insertion.gap ++ y)) (ends : Ends y) (fits : insertion.Fits y)

include seam ends

theorem tokens_with_gap (z : Text) (inside : z <+: y) :
    tokenize (x ++ (insertion.gap ++ z)) = tokenize x ++ tokensBehind x insertion.gap z := by
  have halts := ends.halts (insertion.gap ++ y) insertion.gap y insertion.blanks id
  have front := halts.front (insertion.gap ++ z) ((List.prefix_append_right_inj _).mpr inside)
  exact tokens_at x _ insertion.gap z seam front ((ends.front y z inside).apart insertion.gap z insertion.blanks)

include fits

theorem tokens_with_text (z : Text) (inside : z <+: y) :
    tokenize (x ++ (insertion.text ++ z)) = tokenize x ++ tokensBehind x insertion.text z :=
  tokens_at x _ insertion.text z seam (insertion.halts _ z)
    (insertion.apart z (ends.front y z inside) (fits.front insertion y z inside))

-- The headers in front of the place are followed by what is put in, and those behind it move.
theorem headers_around : ∃ later, (∀ header ∈ later, x.byteSize ≤ header.start) ∧
    Header.ofText (x ++ (insertion.gap ++ y)) =
      (Header.ofText x).map (Header.extended (tokensBehind x insertion.gap y)) ++ later ∧
    Header.ofText (x ++ (insertion.text ++ y)) =
      (Header.ofText x).map (Header.extended (tokensBehind x insertion.text y)) ++
        later.map (Header.moved insertion.bytes) := by
  have loose := (loose_blanks insertion.gap insertion.blanks).moved x.byteSize
  have loose' := insertion.loose.moved x.byteSize
  have mark := marked (x.byteSize + insertion.gap.byteSize) y ends
  have mark' : Marked (((tokenize y).map (Token.moved (x.byteSize + insertion.gap.byteSize))).map
      (Token.moved insertion.bytes)) := by
    rw [moved_again]
    exact marked _ y ends
  have breaks : ((tokenize insertion.text).map (Token.moved x.byteSize)).any Token.isLineBreak =
      ((tokenize insertion.gap).map (Token.moved x.byteSize)).any Token.isLineBreak := by
    rw [List.any_map, List.any_map]
    exact insertion.breaks
  have solid := seam.last_token
  refine ⟨Header.collect (clauseAfter true (tokenize x) || ((tokenize insertion.gap).map (Token.moved x.byteSize)).any
    Token.isLineBreak) ((tokenize y).map (Token.moved (x.byteSize + insertion.gap.byteSize))), ?_, ?_, ?_⟩
  · intro header member
    obtain ⟨token, inside, start⟩ := Header.collected_start _ _ header member
    rw [start]
    exact behind_far x insertion.gap y token (List.mem_append_right _ inside)
  · rw [Header.ofText, tokens_with_gap insertion x y seam ends y (List.prefix_refl y), tokensBehind,
      Header.collect_joined true _ _ solid fun keyword _ _ => Header.of_keyword_loose keyword _ _ loose mark,
      Header.collect_loose _ _ _ loose]
    rfl
  · rw [Header.ofText, tokens_with_text insertion x y seam ends fits y (List.prefix_refl y), tokens_behind_moved,
      Header.collect_joined true _ _ solid fun keyword _ _ => Header.of_keyword_loose keyword _ _ loose' mark',
      Header.collect_loose _ _ _ loose', breaks, Header.collect_moved]
    rfl

theorem names_around : (Header.ofText (x ++ (insertion.text ++ y))).map Header.name =
    (Header.ofText (x ++ (insertion.gap ++ y))).map Header.name := by
  obtain ⟨later, _, old, new⟩ := insertion.headers_around x y seam ends fits
  rw [old, new, List.map_append, List.map_append, List.map_map, List.map_map, List.map_map]
  rfl

-- The declaration around the place takes in what is put there; those in front of it stay, and those behind it move.
theorem declarations_around (filled : y ≠ []) (declaration : Declaration)
    (member : declaration ∈ Declaration.ofText (x ++ (insertion.gap ++ y))) (start : declaration.start < x.byteSize)
    (stop : x.byteSize < declaration.stop) :
    ∃ earlier header limit other later, header ∈ Header.ofText x ∧ Agree x.byteSize limit other ∧
      Declaration.Crosses header limit ∧
      declaration = Declaration.ofHeader (header.extended (tokensBehind x insertion.gap y)) limit ∧
      Declaration.ofText (x ++ (insertion.gap ++ y)) =
        earlier ++ declaration :: Declaration.ofHeaders declaration.stop later ∧
      Declaration.ofText (x ++ (insertion.text ++ y)) =
        earlier ++ Declaration.ofHeader (header.extended (tokensBehind x insertion.text y)) other ::
          Declaration.ofHeaders (Declaration.ofHeader (header.extended (tokensBehind x insertion.text y)) other).stop
            (later.map (Header.moved insertion.bytes)) := by
  obtain ⟨later, far, old, new⟩ := insertion.headers_around x y seam ends fits
  rw [Declaration.ofText, old] at member
  have front : ∀ header ∈ Header.ofText x, header.InFront x.byteSize ∧ header.start < x.byteSize := by
    intro header among
    have front := header.in_front x among
    obtain ⟨token, inside, same⟩ := Header.collected_start true _ header among
    exact ⟨front, same ▸ token_before x token inside⟩
  obtain ⟨earlier, header, limit, other, among, agree, crosses, whole, first, second⟩ :=
    Declaration.of_headers_across x.byteSize insertion.bytes 0 _ later _ _ front far (behind_filled x insertion.gap y filled)
      (behind_filled x insertion.text y filled) (behind_far x insertion.gap y) (behind_far x insertion.text y) declaration
      member start stop
  refine ⟨earlier, header, limit, other, later, among, agree, crosses, whole, ?_, ?_⟩
  · rw [Declaration.ofText, old, first]
  · rw [Declaration.ofText, new, second]

end

theorem untokenize_behind (x g y : Text) : untokenize (tokensBehind x g y) = g ++ y := by
  rw [tokensBehind, untokenize_append, untokenize_moved, untokenize_moved, untokenize_tokenize, untokenize_tokenize]

-- What a header at the front of a text holds of it, read by itself.
theorem stretch_of_header (x w : Text) (seam : Seam x w) (header : Header) (member : header ∈ Header.ofText x) :
    ∃ front v, x = front ++ v ∧ header.start = front.byteSize ∧ Seam v w ∧ untokenize header.tokens = v ∧
      header.tokens = (tokenize v).map (Token.moved header.start) := by
  obtain ⟨⟨keyword, more, lead, start⟩, before, split⟩ := Header.collected_stands true _ header member
  change before ++ header.tokens = tokenize x at split
  have filled : header.tokens ≠ [] := by simp [Header.tokens, lead]
  have back := tokens_of_back 0 x before header.tokens split.symm
  have first : tokenize x = before ++ keyword :: (more ++ header.rest) := by
    rw [← split, Header.tokens, lead]
    rfl
  have place := token_start 0 x before _ keyword first
  rw [Nat.zero_add] at back place
  rw [start] at place
  refine ⟨untokenize before, untokenize header.tokens, ?_, place, seam.back x w before _ split.symm filled, rfl, ?_⟩
  · rw [← untokenize_append, split, untokenize_tokenize]
  · rw [place, ← tokens_from_start]
    exact back.symm

-- Whether a fragment is a view is told by what stands in front of its first brace.
theorem view_behind_brace (first second : Fragment) (v a b : Text) (brace : '\x7b' ∈ v) (left : first.text = v ++ a)
    (right : second.text = v ++ b) : first.isView = second.isView := by
  have stops (t : Text) : (v ++ t).takeWhile (· ≠ '\x7b') = v.takeWhile (· ≠ '\x7b') := by
    rw [List.takeWhile_append, if_neg]
    intro whole
    have all := List.takeWhile_eq_self_iff.mp ((List.takeWhile_prefix _).eq_of_length whole) _ brace
    simp at all
  rw [Fragment.isView, Fragment.isView, Fragment.head, Fragment.head, left, right, stops, stops]

theorem trim_behind_seam (x w t : Text) (seam : Seam x w) : (x ++ t).trimEnd = x ++ t.trimEnd := by
  obtain ⟨c, ends, solid, _⟩ := seam.last
  obtain ⟨lead, rfl⟩ := List.getLast?_eq_some_iff.mp ends
  rw [List.append_assoc, List.append_assoc]
  exact Text.trim_end_behind lead t c solid

theorem trim_behind_gap (x w g t : Text) (seam : Seam x w) (filled : t ≠ []) (solid : t.head?.any isWhite = false) :
    (x ++ (g ++ t)).trimEnd = x ++ (g ++ t.trimEnd) := by
  obtain ⟨c, rest, rfl⟩ := List.exists_cons_of_ne_nil filled
  have alone := Text.trim_end_behind [] rest c solid
  rw [trim_behind_seam x w _ seam, Text.trim_end_behind g rest c solid]
  exact congrArg (fun t => x ++ (g ++ t)) alone.symm

-- A body that goes on behind a text ends behind it, and so does its declaration.
theorem stop_behind_place (t x p more : Text) (declaration : Declaration) (member : declaration ∈ Declaration.ofText t)
    (offset : Nat) (place : x.byteSize = declaration.start + (offset + p.byteSize))
    (found : Body.ofText? (Fragment.ofDeclaration declaration).text = some ⟨offset, p ++ more⟩) :
    x.byteSize < declaration.stop := by
  have longer : (Fragment.ofDeclaration declaration).text.byteSize ≤ declaration.text.byteSize := by
    obtain ⟨left, whole⟩ := Text.trim_end_front declaration.text
    have sizes := congrArg Text.byteSize whole
    rw [Text.byte_size_append] at sizes
    rw [Fragment.text_trimmed t declaration member]
    omega
  have enough := Body.stop_before_end _ _ found
  change offset + (p ++ more).byteSize < _ at enough
  rw [Text.byte_size_append] at enough
  change x.byteSize < declaration.start + declaration.text.byteSize
  omega

section

variable (x y : Text) (seam : Seam x (insertion.gap ++ y)) (ends : Ends y) (fits : insertion.Fits y)

include seam ends in
-- A body that begins in front of the place was opened by a brace there.
theorem opened_in_front (declaration : Declaration) (header : Header) (limit : Option Nat)
    (among : header ∈ Header.ofText x) (crosses : Declaration.Crosses header limit)
    (whole : declaration = Declaration.ofHeader (header.extended (tokensBehind x insertion.gap y)) limit)
    (member : declaration ∈ Declaration.ofText (x ++ (insertion.gap ++ y))) (body : Body)
    (found : Body.ofText? (Fragment.ofDeclaration declaration).text = some body)
    (start : declaration.start + body.start ≤ x.byteSize) : bracesOpen 0 header.rest ≠ 0 := by
  obtain ⟨front, v, split, place, seamed, text, tokens⟩ := stretch_of_header x _ seam header among
  have inside := Declaration.extent_taken limit (bracesOpen 0 header.rest) (tokensBehind x insertion.gap y)
  have taken := crosses.tokens header limit (tokensBehind x insertion.gap y)
  have lead := crosses.lead header limit (tokensBehind x insertion.gap y)
  rw [← whole] at taken lead
  generalize (Declaration.extent limit (bracesOpen 0 header.rest) (tokensBehind x insertion.gap y)).1 = more at taken inside
  have halts := (ends.halts (insertion.gap ++ y) insertion.gap y insertion.blanks id).front (untokenize more).trimEnd (by
    obtain ⟨left, parts⟩ := inside
    rw [← untokenize_behind x, ← parts, untokenize_append]
    exact (Text.trim_end_front _).trans (List.prefix_append _ _))
  have shown : (Fragment.ofDeclaration declaration).text = v ++ (untokenize more).trimEnd := by
    rw [Fragment.text_trimmed _ declaration member, Declaration.text, taken, untokenize_append, text,
      trim_behind_seam v _ _ seamed]
  rw [shown, Body.ofText?, seamed.apart_of_halts v _ _ halts] at found
  obtain ⟨opening, inner, brace⟩ := Body.opened_in_front v.byteSize _ _ body (by
      intro token behind
      obtain ⟨other, _, rfl⟩ := List.mem_map.mp behind
      exact Nat.le_add_right _ _) found (by
      have size := congrArg Text.byteSize split
      have same : declaration.start = header.start := by rw [whole]; rfl
      rw [Text.byte_size_append] at size
      omega)
  have held : opening.moved header.start ∈ header.tokens := by
    rw [tokens]
    exact List.mem_map_of_mem inner
  refine Declaration.braces_stay_open limit 0 header.rest crosses.2 (.inr ⟨opening.moved header.start, ?_, brace⟩)
  rcases List.mem_append.mp held with early | behind
  · have unpunct := declaration.lead_unpunctuated _ member _ (lead ▸ early) '\x7b'
    exact absurd (brace.symm.trans unpunct) (by simp)
  · exact behind

theorem taken_around (limit other : Option Nat) (depth : Nat) (deep : depth ≠ 0) :
    ∃ taken, (Declaration.extent limit depth (tokensBehind x insertion.gap y)).1 =
        (tokenize insertion.gap).map (Token.moved x.byteSize) ++ taken ∧
      (Declaration.extent other depth (tokensBehind x insertion.text y)).1 =
        (tokenize insertion.text).map (Token.moved x.byteSize) ++ taken.map (Token.moved insertion.bytes) ∧
      untokenize taken <+: y ∧ (untokenize taken).head? = y.head? := by
  have loose := (loose_blanks insertion.gap insertion.blanks).moved x.byteSize
  have loose' := insertion.loose.moved x.byteSize
  generalize behind : (tokenize y).map (Token.moved (x.byteSize + insertion.gap.byteSize)) = tokens
  have inside := Declaration.extent_taken limit depth tokens
  have same := Declaration.extent_unlimited other (limit.map (insertion.bytes + ·)) depth
    (tokens.map (Token.moved insertion.bytes)) deep
  have text : untokenize tokens = y := by rw [← behind, untokenize_moved, untokenize_tokenize]
  have front : untokenize (Declaration.extent limit depth tokens).1 <+: y := by
    obtain ⟨left, parts⟩ := inside
    have whole := congrArg untokenize parts
    rw [untokenize_append, text] at whole
    exact ⟨untokenize left, whole⟩
  refine ⟨(Declaration.extent limit depth tokens).1, ?_, ?_, front, ?_⟩
  · rw [tokensBehind, behind, Declaration.extent_loose limit depth _ _ loose deep]
  · rw [tokens_behind_moved, behind, Declaration.extent_loose other depth _ _ loose' deep, same, Declaration.extent_moved]
  · cases tokens with
    | nil =>
      rw [← text]
      rfl
    | cons token others =>
      obtain ⟨more, first⟩ := Declaration.extent_first limit depth token others deep
      have member : token ∈ (tokenize y).map (Token.moved (x.byteSize + insertion.gap.byteSize)) := by simp [behind]
      obtain ⟨origin, within, rfl⟩ := List.mem_map.mp member
      obtain ⟨c, left, _, letters, _⟩ := cut_of_token 0 y origin within
      obtain ⟨rest, parts⟩ := front
      rw [first] at parts ⊢
      have begins : untokenize (origin.moved (x.byteSize + insertion.gap.byteSize) :: more) =
          c :: (left ++ untokenize more) := by
        change origin.text ++ untokenize more = _
        rw [letters]
        rfl
      rw [← parts, begins]
      rfl

include seam ends fits

omit seam in
-- The body that the place is in has the annotation put in.
theorem body_around (z a p q : Text) (inside : z <+: y) (filled : p ≠ [])
    (found : Body.ofText? (a ++ p ++ (insertion.gap ++ z)) = some ⟨a.byteSize, p ++ (insertion.gap ++ q)⟩)
    (seamed : Seam (a ++ p) (insertion.gap ++ y)) :
    Body.ofText? (a ++ p ++ (insertion.text ++ z)) = some ⟨a.byteSize, p ++ (insertion.text ++ q)⟩ ∧
      '\x7b' ∈ a ++ p ∧ Seam p (insertion.gap ++ y) := by
  have loose := (loose_blanks insertion.gap insertion.blanks).moved (a ++ p).byteSize
  have loose' := insertion.loose.moved (a ++ p).byteSize
  rw [Body.ofText?, insertion.tokens_with_gap (a ++ p) y seamed ends z inside] at found
  rw [Body.ofText?, insertion.tokens_with_text (a ++ p) y seamed ends fits z inside, tokens_behind_moved]
  obtain ⟨read, before, opening, rest, split, brace, text⟩ := Body.refilled a p insertion.gap q _ _ _ insertion.bytes loose
    loose' (by rw [untokenize_moved, untokenize_tokenize]) (behind_far (a ++ p) insertion.gap z) found
  rw [untokenize_moved, untokenize_tokenize] at read
  refine ⟨read, ?_, ?_⟩
  · have letters := punct_text 0 (a ++ p) opening (by rw [← tokenize, split]; simp) '\x7b' brace
    rw [← untokenize_tokenize (a ++ p), split, untokenize, List.mem_flatMap]
    exact ⟨opening, by simp, by simp [letters]⟩
  · have more : rest ≠ [] := by
      rintro rfl
      exact filled text.symm
    rw [← text]
    exact seamed.back (a ++ p) _ (before ++ [opening]) rest (by simp [split]) more

-- The declaration is shown with the annotation where it was shown without it.
theorem shown_around (filled : y ≠ []) (declaration : Declaration)
    (member : declaration ∈ Declaration.ofText (x ++ (insertion.gap ++ y))) (lead p q : Text) (split : x = lead ++ p)
    (more : p ≠ []) (offset : Nat) (place : lead.byteSize = declaration.start + offset)
    (found : Body.ofText? (Fragment.ofDeclaration declaration).text = some ⟨offset, p ++ (insertion.gap ++ q)⟩) :
    ∃ earlier later changed front v z, Declaration.ofText (x ++ (insertion.gap ++ y)) = earlier ++ declaration :: later ∧
      Declaration.ofText (x ++ (insertion.text ++ y)) =
        earlier ++ changed :: later.map (Declaration.moved insertion.bytes) ∧
      changed.kind = declaration.kind ∧ changed.name = declaration.name ∧ x = front ++ v ∧
      declaration.start = front.byteSize ∧ Seam v (insertion.gap ++ y) ∧ z <+: y ∧
      (Fragment.ofDeclaration declaration).text = v ++ (insertion.gap ++ z) ∧
      (Fragment.ofDeclaration changed).text = v ++ (insertion.text ++ z) := by
  have size := congrArg Text.byteSize split
  rw [Text.byte_size_append] at size
  have inner := Text.byte_size_pos p more
  have stop := stop_behind_place _ x p _ declaration member offset (by omega) found
  obtain ⟨earlier, header, limit, other, later, among, agree, crosses, whole, old, new⟩ :=
    insertion.declarations_around x y seam ends fits filled declaration member (by omega) stop
  have deep := insertion.opened_in_front x y seam ends declaration header limit among crosses whole member _ found (by
    dsimp only
    omega)
  obtain ⟨front, v, parts, start, seamed, text, tokens⟩ := stretch_of_header x _ seam header among
  obtain ⟨taken, withGap, withText, inside, first⟩ := insertion.taken_around x y limit other _ deep
  have crosses' := crosses.agree x.byteSize header (header.in_front x among) limit other agree
  have oldText : declaration.text = v ++ (insertion.gap ++ untokenize taken) := by
    rw [Declaration.text, whole, crosses.tokens header limit, withGap, untokenize_append, untokenize_append, text,
      untokenize_moved, untokenize_tokenize]
  generalize same : Declaration.ofHeader (header.extended (tokensBehind x insertion.text y)) other = changed at new
  have newText : changed.text = v ++ (insertion.text ++ untokenize taken) := by
    rw [← same, Declaration.text, crosses'.tokens header other, withText, untokenize_append, untokenize_append, text,
      untokenize_moved, untokenize_tokenize, untokenize_moved]
  have begins : changed.start = declaration.start := by rw [← same, whole]; rfl
  have stops : changed.stop = insertion.bytes + declaration.stop := by
    rw [Declaration.stop, Declaration.stop, begins, newText, oldText]
    simp only [Text.byte_size_append, insertion.size]
    omega
  rw [stops, Declaration.of_headers_moved] at new
  have shown := Fragment.text_trimmed _ declaration member
  have shown' := Fragment.text_trimmed _ changed (by rw [new]; simp)
  have solid := ends.first y isWhite (by decide) (by decide)
  rw [← first] at solid
  have taking : untokenize taken ≠ [] := by
    intro nothing
    rw [nothing] at first
    exact filled (List.head?_eq_none_iff.mp first.symm)
  rw [oldText, trim_behind_gap v _ _ _ seamed taking solid] at shown
  rw [newText, trim_behind_gap v _ _ _ seamed taking solid] at shown'
  have inner := (Text.trim_end_front (untokenize taken)).trans inside
  refine ⟨earlier, _, changed, front, v, _, old, new, ?_, ?_, parts, ?_, seamed, inner, shown, shown'⟩
  · rw [← same, whole]
    rfl
  · rw [← same, whole]
    rfl
  · rw [← start, whole]
    rfl

theorem fragment_around (filled : y ≠ []) (declaration : Declaration)
    (member : declaration ∈ Declaration.ofText (x ++ (insertion.gap ++ y))) (lead p q : Text) (split : x = lead ++ p)
    (more : p ≠ []) (offset : Nat) (place : lead.byteSize = declaration.start + offset)
    (found : Body.ofText? (Fragment.ofDeclaration declaration).text = some ⟨offset, p ++ (insertion.gap ++ q)⟩) :
    ∃ earlier later changed, Declaration.ofText (x ++ (insertion.gap ++ y)) = earlier ++ declaration :: later ∧
      Declaration.ofText (x ++ (insertion.text ++ y)) =
        earlier ++ changed :: later.map (Declaration.moved insertion.bytes) ∧
      changed.kind = declaration.kind ∧ changed.name = declaration.name ∧
      (Fragment.ofDeclaration changed).isView = (Fragment.ofDeclaration declaration).isView ∧
      (Fragment.ofDeclaration changed).body? = some (p ++ (insertion.text ++ q)) ∧ Seam p (insertion.gap ++ y) := by
  obtain ⟨earlier, later, changed, front, v, z, old, new, kind, name, parts, start, seamed, inside, shown, shown'⟩ :=
    insertion.shown_around x y seam ends fits filled declaration member lead p q split more offset place found
  obtain ⟨a, rfl, rfl⟩ : ∃ a, v = a ++ p ∧ offset = a.byteSize := by
    obtain ⟨a, behind, whole, same, _⟩ := (Text.slice_eq_some_iff _ _ _ _).mp (Body.of_text_in_range _ _ found)
    change offset = a.byteSize at same
    have sizes := congrArg Text.byteSize (split.symm.trans parts)
    simp only [Text.byte_size_append] at sizes
    refine ⟨a, (Text.parts_at v (a ++ p) (insertion.gap ++ z) (insertion.gap ++ q ++ behind) ?_ ?_).1, same⟩
    · rw [← shown, whole]
      simp
    · rw [Text.byte_size_append]
      omega
  rw [shown] at found
  obtain ⟨body, brace, inner⟩ := insertion.body_around y ends fits z a p q inside more found seamed
  refine ⟨earlier, later, changed, old, new, kind, name, view_behind_brace _ _ _ _ _ brace shown' shown, ?_, inner⟩
  rw [Fragment.body?, shown', body]
  rfl

end

end Insertion

end SchemaDiagram

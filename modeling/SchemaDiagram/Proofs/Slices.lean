import SchemaDiagram.Proofs.Extents

/-!
Slices of a text between two byte offsets, which are there only where it can be cut in front of a character. Bodies are
slices of their texts.
-/

set_option autoImplicit false

namespace SchemaDiagram

namespace Text

-- A text in two at a byte offset, where one of its characters starts or the text ends.
def cutAt? : Text → Nat → Option (Text × Text)
  | t, 0 => some ([], t)
  | [], _ + 1 => none
  | c :: rest, offset + 1 =>
    if offset + 1 < c.utf8Size then none
    else (cutAt? rest (offset + 1 - c.utf8Size)).map fun parts => (c :: parts.1, parts.2)

-- The text between two byte offsets, if they are in order and each is a place where the text can be cut.
def slice? (t : Text) (start stop : Nat) : Option Text :=
  match cutAt? t start with
  | none => none
  | some (_, rest) => if stop < start then none else (cutAt? rest (stop - start)).map Prod.fst

theorem cut_at_append (front rest : Text) : cutAt? (front ++ rest) front.byteSize = some (front, rest) := by
  induction front with
  | nil => rw [List.nil_append, byteSize, cutAt?]
  | cons c front ih =>
    have size := c.utf8Size_pos
    obtain ⟨offset, same⟩ : ∃ offset, byteSize (c :: front) = offset + 1 :=
      Nat.exists_eq_add_one.mpr (byte_size_pos (c :: front) (by simp))
    have left : offset + 1 - c.utf8Size = byteSize front := by
      rw [← same, byteSize]
      omega
    rw [byteSize] at same
    rw [byteSize, same, List.cons_append, cutAt?, if_neg (by omega), left, ih]
    rfl

theorem cut_at_eq_some_iff (t front rest : Text) (offset : Nat) :
    cutAt? t offset = some (front, rest) ↔ t = front ++ rest ∧ offset = front.byteSize := by
  constructor
  · intro found
    fun_induction cutAt? t offset generalizing front with
    | case1 t =>
      cases found
      exact ⟨rfl, rfl⟩
    | case2 => contradiction
    | case3 => contradiction
    | case4 c t offset enough ih =>
      obtain ⟨⟨first, others⟩, read, same⟩ := Option.map_eq_some_iff.mp found
      cases same
      obtain ⟨rfl, left⟩ := ih first read
      refine ⟨rfl, ?_⟩
      change offset + 1 = c.utf8Size + byteSize first
      omega
  · rintro ⟨rfl, rfl⟩
    exact cut_at_append front rest

theorem slice_eq_some_iff (t part : Text) (start stop : Nat) :
    t.slice? start stop = some part ↔
      ∃ front behind, t = front ++ (part ++ behind) ∧ start = front.byteSize ∧ stop = start + part.byteSize := by
  rw [slice?]
  constructor
  · intro found
    split at found
    · contradiction
    · rename_i front rest cut
      obtain ⟨rfl, rfl⟩ := (cut_at_eq_some_iff _ _ _ _).mp cut
      split at found
      · contradiction
      · obtain ⟨⟨inside, behind⟩, second, rfl⟩ := Option.map_eq_some_iff.mp found
        obtain ⟨rfl, size⟩ := (cut_at_eq_some_iff _ _ _ _).mp second
        exact ⟨front, behind, rfl, rfl, by dsimp only; omega⟩
  · rintro ⟨front, behind, rfl, rfl, rfl⟩
    rw [(cut_at_eq_some_iff _ front (part ++ behind) _).mpr ⟨rfl, rfl⟩]
    dsimp only
    rw [if_neg (by omega), Nat.add_sub_cancel_left, (cut_at_eq_some_iff _ part behind _).mpr ⟨rfl, rfl⟩]
    rfl

end Text

/-! Bodies. -/

namespace Body

theorem inside_split (depth : Nat) (tokens inside : List Token) (found : inside? depth tokens = some inside) :
    ∃ closing after, tokens = inside ++ closing :: after ∧ closing.isPunct '\x7d' = true := by
  have onward (token : Token) (rest : List Token) (deeper : Nat)
      (ih : ∀ inside, inside? deeper rest = some inside →
        ∃ closing after, rest = inside ++ closing :: after ∧ closing.isPunct '\x7d' = true) :
      ∀ inside, (inside? deeper rest).map (token :: ·) = some inside →
        ∃ closing after, token :: rest = inside ++ closing :: after ∧ closing.isPunct '\x7d' = true := by
    intro inside found
    obtain ⟨others, read, rfl⟩ := Option.map_eq_some_iff.mp found
    obtain ⟨closing, after, rfl, punct⟩ := ih others read
    exact ⟨closing, after, rfl, punct⟩
  fun_induction inside? depth tokens generalizing inside with
  | case1 => contradiction
  | case2 depth token rest _ ih => exact onward token rest _ ih inside found
  | case3 token rest _ closing =>
    cases found
    exact ⟨token, rest, rfl, closing⟩
  | case4 token rest _ _ depth ih => exact onward token rest _ ih inside found
  | case5 depth token rest _ _ ih => exact onward token rest _ ih inside found

theorem of_text_in_range (t : Text) (body : Body) (found : ofText? t = some body) :
    t.slice? body.start body.stop = some body.text := by
  rw [ofText?, ofTokens?] at found
  have whole := List.takeWhile_append_dropWhile (p := (!·.isPunct '\x7b')) (l := tokenize t)
  generalize (tokenize t).takeWhile (!·.isPunct '\x7b') = front at whole
  split at found
  · contradiction
  · rename_i opening rest left
    obtain ⟨inside, read, rfl⟩ := Option.map_eq_some_iff.mp found
    obtain ⟨closing, after, rfl, _⟩ := inside_split 0 rest inside read
    rw [left] at whole
    have split : tokenize t = (front ++ [opening]) ++ (inside ++ closing :: after) := by simp [← whole]
    have stop := token_stop 0 t front _ opening whole.symm
    rw [Text.slice_eq_some_iff]
    exact ⟨_, _, stretch_of_tokens t _ inside _ split, by rw [stop, Nat.zero_add], rfl⟩

end Body

end SchemaDiagram

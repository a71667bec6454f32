import SchemaDiagram.Text.CharClass

/-!
Text as a list of characters, and the cuts and searches on it that the rest of the library shares.
Nothing is lost by a cut: `fields` puts back together with its separator, and `after?` with its prefix.
-/

set_option autoImplicit false

namespace SchemaDiagram

abbrev Text := List Char

instance : Coe String Text := ⟨String.toList⟩

namespace Text

def byteSize : Text → Nat
  | [] => 0
  | c :: rest => c.utf8Size + byteSize rest

theorem byte_size_append (a b : Text) : byteSize (a ++ b) = byteSize a + byteSize b := by
  induction a with
  | nil => simp [byteSize]
  | cons c rest ih => simp [byteSize, ih, Nat.add_assoc]

theorem byte_size_pos (t : Text) (filled : t ≠ []) : 0 < byteSize t := by
  cases t with
  | nil => contradiction
  | cons c rest => exact Nat.lt_of_lt_of_le c.utf8Size_pos (Nat.le_add_right _ _)

def trimStart (t : Text) : Text := t.dropWhile isWhite
def trimEnd (t : Text) : Text := (t.reverse.dropWhile isWhite).reverse
def trim (t : Text) : Text := trimEnd (trimStart t)

def isBlank (t : Text) : Bool := t.all isWhite

-- The stretches between separators, one more than there are separators.
def fields (separates : Char → Bool) : Text → List Text
  | [] => [[]]
  | c :: rest =>
    if separates c then [] :: fields separates rest
    else
      match fields separates rest with
      | [] => [[c]]
      | first :: others => (c :: first) :: others

theorem fields_ne_nil (separates : Char → Bool) (t : Text) : fields separates t ≠ [] := by
  cases t with
  | nil => simp [fields]
  | cons c rest =>
    simp only [fields]
    split
    · simp
    · split <;> simp

theorem fields_parted (separates : Char → Bool) (a b : Text) (c : Char) (parts : separates c = true) :
    fields separates (a ++ c :: b) = fields separates a ++ fields separates b := by
  induction a with
  | nil => simp [fields, parts]
  | cons d a ih =>
    obtain ⟨first, others, split⟩ := List.exists_cons_of_ne_nil (fields_ne_nil separates a)
    rw [List.cons_append, fields, fields, ih, split]
    split <;> rfl

def lines (t : Text) : List Text := fields (· = '\n') t
def segments (t : Text) : List Text := fields (· = '.') t

theorem intercalate_fields (sep : Char) (t : Text) : [sep].intercalate (fields (· = sep) t) = t := by
  induction t with
  | nil => simp [fields, List.intercalate]
  | cons c rest ih =>
    obtain ⟨first, others, eq⟩ := List.exists_cons_of_ne_nil (fields_ne_nil (· = sep) rest)
    rw [eq] at ih
    by_cases same : c = sep
    · simp [fields, same, eq, List.intercalate] at ih ⊢
      exact ih
    · simp only [fields, same, decide_false, Bool.false_eq_true, if_false, eq]
      cases others with
      | nil => simpa [List.intercalate, List.intersperse] using ih
      | cons second more => simpa [List.intercalate, List.intersperse] using ih

def words (t : Text) : List Text := (fields isWhite t).filter (!·.isEmpty)

-- White space between words becomes one blank, and around them none.
def normalized (t : Text) : Text := [' '].intercalate (words t)

def after? : (lead t : Text) → Option Text
  | [], t => some t
  | _ :: _, [] => none
  | p :: lead, c :: t => if p = c then after? lead t else none

theorem after_eq_some_iff (lead t rest : Text) : after? lead t = some rest ↔ t = lead ++ rest := by
  induction lead generalizing t with
  | nil => simp [after?]
  | cons p lead ih =>
    cases t with
    | nil => simp [after?]
    | cons c t =>
      by_cases same : p = c
      · simp [after?, same, ih]
      · simp [after?, same, Ne.symm same]

def before? (tail t : Text) : Option Text := (after? tail.reverse t.reverse).map List.reverse

def startsWith (lead t : Text) : Bool := (after? lead t).isSome
def endsWith (tail t : Text) : Bool := (before? tail t).isSome

def contains (part : Text) : Text → Bool
  | [] => part.isEmpty
  | c :: rest => startsWith part (c :: rest) || contains part rest

def endsWord : Text → Bool
  | [] => true
  | c :: _ => !isWordUnit c

def afterWord? (word t : Text) : Option Text := (after? word t).filter endsWord

-- Whether the test accepts the text from some place on where no word is going on; `inside` says that a
-- word character precedes `t`.
def anyWordStart (test : Text → Bool) (inside : Bool) : Text → Bool
  | [] => false
  | c :: rest => (!inside && test (c :: rest)) || anyWordStart test (isWordUnit c) rest

def hasWord (word t : Text) : Bool := anyWordStart (fun rest => (afterWord? word rest).isSome) false t

def afterLast (sep : Char) (t : Text) : Text := (t.reverse.takeWhile (· ≠ sep)).reverse

def splitLast? (sep : Char) (t : Text) : Option (Text × Text) :=
  match t.reverse.dropWhile (· ≠ sep) with
  | [] => none
  | _ :: before => some (before.reverse, afterLast sep t)

def asciiLower (t : Text) : Text := t.map Char.toLower

end Text

end SchemaDiagram

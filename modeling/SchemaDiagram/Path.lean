import SchemaDiagram.Text.Basic

/-!
Paths, kept as they are spelled and compared by their components: repeated slashes, a slash at the end and
inner `.` components do not count.
-/

set_option autoImplicit false

namespace SchemaDiagram

structure Path where
  text : Text
deriving DecidableEq, Repr

namespace Path

def isAbsolute (path : Path) : Bool := path.text.head? = some '/'

def lead (path : Path) : Text :=
  if path.isAbsolute then ['/']
  else if path.text = ['.'] || Text.startsWith "./" path.text then ['.']
  else []

def pieces (path : Path) : List Text := Text.fields (· = '/') (path.text.drop path.lead.length)

def names (piece : Text) : Bool := !piece.isEmpty && piece ≠ ['.']

def components (path : Path) : List Text :=
  (if path.lead.isEmpty then [] else [path.lead]) ++ path.pieces.filter names

def same (a b : Path) : Bool := a.components = b.components

-- The pieces from the last one that names something on backwards.
def fromLast (path : Path) : List Text := path.pieces.reverse.dropWhile (!names ·)

-- The path as spelled, up to its last component.
def parent? (path : Path) : Option Path :=
  match path.fromLast with
  | [] => if path.lead = ['.'] then some ⟨[]⟩ else none
  | _ :: before =>
    some ⟨path.lead ++ ['/'].intercalate (before.dropWhile (!names ·)).reverse⟩

def fileName? (path : Path) : Option Text := path.fromLast.head?.filter (· ≠ ['.', '.'])

def join (base path : Path) : Path :=
  if path.isAbsolute || base.text.isEmpty then path
  else if base.text.getLast? = some '/' then ⟨base.text ++ path.text⟩
  else ⟨base.text ++ '/' :: path.text⟩

-- The file `name` next to a path, or inside of it where the path names no file.
def sibling (path : Path) (name : Text) : Path :=
  if path.fileName?.isSome then (path.parent?.getD ⟨[]⟩).join ⟨name⟩ else path.join ⟨name⟩

-- Root, dot and dots come before names.
def rank (component : Text) : Nat :=
  if component = ['/'] then 0
  else if component = ['.'] then 1
  else if component = ['.', '.'] then 2
  else 3

def textBefore : Text → Text → Bool
  | [], b => !b.isEmpty
  | _ :: _, [] => false
  | a :: as, b :: bs => a < b || (a = b && textBefore as bs)

def componentBefore (a b : Text) : Bool :=
  rank a < rank b || (rank a = rank b && textBefore a b)

def componentsBefore : List Text → List Text → Bool
  | [], b => !b.isEmpty
  | _ :: _, [] => false
  | a :: as, b :: bs => componentBefore a b || (a = b && componentsBefore as bs)

def notAfter (a b : Path) : Bool := !componentsBefore b.components a.components

end Path

end SchemaDiagram

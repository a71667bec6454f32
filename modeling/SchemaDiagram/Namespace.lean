import SchemaDiagram.Comment

/-!
Namespaces. A file belongs to the namespace of its first line that declares one. A request for a
namespace is met by every namespace that ends with it on whole segments.
-/

set_option autoImplicit false

namespace SchemaDiagram

namespace Namespace

def isGap (c : Char) : Bool := c = ' ' || c = '\t'

def ofLine? (line : Text) : Option Text :=
  match Text.after? "namespace" (line.dropWhile isGap) with
  | none => none
  | some rest =>
    let name := (rest.dropWhile isGap).takeWhile fun c => isWordUnit c || c = '.'
    if rest.head?.any isGap && !name.isEmpty then some name else none

def ofSource? (source : Text) : Option Text := (withoutComments source).lines.findSome? ofLine?

-- Whether a file in the namespace `declared` is searched for the names of `requested`.
def accepts (declared requested : Text) : Bool :=
  !requested.isEmpty &&
    (declared = requested || (Text.before? requested declared).any (·.getLast? = some '.'))

end Namespace

end SchemaDiagram

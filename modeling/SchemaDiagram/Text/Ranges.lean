/-! Sets of characters given by increasing, disjoint ranges of code points. -/

set_option autoImplicit false

namespace SchemaDiagram

abbrev Ranges := List (Nat × Nat)

-- Looks no further than the first range that ends at or after the code point.
def Ranges.covers (code : Nat) : Ranges → Bool
  | [] => false
  | (low, high) :: rest => if code ≤ high then low ≤ code else covers code rest

end SchemaDiagram

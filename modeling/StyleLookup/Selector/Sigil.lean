/-!
The signs in front of class and id names.
-/

set_option autoImplicit false

namespace StyleLookup.Selector

/-- The text without one leading dot, or else without one leading number sign. -/
def dropSigil : List Char → List Char
  | '.' :: rest => rest
  | '#' :: rest => rest
  | text => text

end StyleLookup.Selector

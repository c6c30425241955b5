/-!
Whole numbers in decimal notation.
-/

set_option autoImplicit false

namespace StyleLookup.Text

def decimal (number : Nat) : List Char := Nat.toDigits 10 number

def signedDecimal : Int → List Char
  | .ofNat number => decimal number
  | .negSucc number => '-' :: decimal (number + 1)

end StyleLookup.Text

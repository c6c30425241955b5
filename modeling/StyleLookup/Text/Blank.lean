/-!
White space, as Unicode defines the property, and the trimming of texts. Texts are scanned as
lists of characters throughout this library.
-/

set_option autoImplicit false

namespace StyleLookup.Text

/-- Whether a character is white space: the property White_Space, which has 25 members. -/
def isBlank (c : Char) : Bool :=
  let point := c.toNat
  (0x9 ≤ point && point ≤ 0xD) || point == 0x20 || point == 0x85 || point == 0xA0 ||
    point == 0x1680 || (0x2000 ≤ point && point ≤ 0x200A) || point == 0x2028 ||
    point == 0x2029 || point == 0x202F || point == 0x205F || point == 0x3000

def trimStart (text : List Char) : List Char := text.dropWhile isBlank

def dropEndWhile (drops : Char → Bool) (text : List Char) : List Char :=
  (text.reverse.dropWhile drops).reverse

def trimEnd (text : List Char) : List Char := dropEndWhile isBlank text

def trim (text : List Char) : List Char := trimEnd (trimStart text)

theorem dropEndWhile_append_takeWhile (drops : Char → Bool) (text : List Char) :
    dropEndWhile drops text ++ (text.reverse.takeWhile drops).reverse = text := by
  rw [dropEndWhile, ← List.reverse_append, List.takeWhile_append_dropWhile, List.reverse_reverse]

theorem trim_isInfix (text : List Char) : trim text <:+: text := by
  refine ⟨text.takeWhile isBlank, ((trimStart text).reverse.takeWhile isBlank).reverse, ?_⟩
  rw [trim, trimEnd, List.append_assoc, dropEndWhile_append_takeWhile, trimStart,
    List.takeWhile_append_dropWhile]

end StyleLookup.Text

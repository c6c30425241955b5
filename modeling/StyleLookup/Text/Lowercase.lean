import StyleLookup.Text.CaseMap
import StyleLookup.Text.Letter

/-!
Full lower-casing of texts. It differs from mapping single characters in two places: the capital
dotted I becomes two characters, and a capital sigma that ends a word becomes a final sigma.
-/

set_option autoImplicit false

namespace StyleLookup.Text

/-- Whether the nearest character that case mapping does not look through is a cased letter. -/
def startsCased (text : List Char) : Bool :=
  match text.dropWhile isCaseIgnorable with
  | [] => false
  | c :: _ => isCased c

/-- Whether a capital sigma ends a word: a letter comes before it and none after it. The text
before the sigma is given from its end. -/
def endsWord (before after : List Char) : Bool :=
  startsCased before && !startsCased after

def lowerAt (before : List Char) (c : Char) (after : List Char) : List Char :=
  if c = 'Σ' then [if endsWord before after then 'ς' else 'σ']
  else if c = 'İ' then ['i', '\u0307']
  else [simpleLower c]

def lowercaseAfter (before : List Char) : List Char → List Char
  | [] => []
  | c :: after => lowerAt before c after ++ lowercaseAfter (c :: before) after

def lowercase (text : List Char) : List Char := lowercaseAfter [] text

def asciiLower (c : Char) : Char := c.toLower

def sameFold (left right : Char) : Bool := simpleFold left == simpleFold right

end StyleLookup.Text

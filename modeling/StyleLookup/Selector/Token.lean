import StyleLookup.Text.Blank
import StyleLookup.Text.Lowercase

/-!
Reference tokens: the words of markup or code that a caller wants matched with selectors, split into
the class, id and element names they may stand for.
-/

set_option autoImplicit false

namespace StyleLookup

/-- A token in normal form with the names it may stand for. -/
structure Token where
  text : String
  classes : List String
  ids : List String
  element? : Option String
deriving DecidableEq, Repr

namespace Token

def isNameChar (c : Char) : Bool := c.isAlphanum || c == '-' || c == '_'

/-- The names that follow the occurrences of a sigil, from left to right. Occurrences without a
name count for nothing. -/
def namesAfter (sigil : Char) : List Char → List (List Char)
  | [] => []
  | c :: rest =>
      let name := rest.takeWhile isNameChar
      if c = sigil && !name.isEmpty then name :: namesAfter sigil rest
      else namesAfter sigil rest

/-- Whether a token is one word that may name a class or an id: it is not empty and has neither
sigil. -/
def isBareWord (text : List Char) : Bool := !text.isEmpty && !text.contains '.' && !text.contains '#'

def leadingIdentifier? : List Char → Option (List Char)
  | [] => none
  | c :: rest => if c.isAlpha then some (c :: rest.takeWhile (·.isAlphanum)) else none

def ofNormal (text : List Char) : Token :=
  let bare := if isBareWord text then [text] else []
  { text := String.ofList text
    classes := (namesAfter '.' text ++ bare).map String.ofList
    ids := (namesAfter '#' text ++ bare).map String.ofList
    element? := (leadingIdentifier? text).map String.ofList }

/-- The normal form of selectors and tokens: trimmed and lower-cased. -/
def normalForm (text : List Char) : List Char := Text.lowercase (Text.trim text)

def parse (raw : String) : Token := ofNormal (normalForm raw.toList)

def isEmpty (token : Token) : Bool := token.text.isEmpty

end Token

end StyleLookup

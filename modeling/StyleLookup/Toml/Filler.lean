/-!
What stands between the parts of a TOML document: spaces, comments and line ends.
-/

set_option autoImplicit false

namespace StyleLookup.Toml

def isSpace (c : Char) : Bool := c == ' ' || c == '\t'

def skipSpace (text : List Char) : List Char := text.dropWhile isSpace

/-- Whether a character may stand in a comment: a tab or anything that is no control character. -/
def isPlain (c : Char) : Bool := c == '\t' || (0x20 ≤ c.toNat && c.toNat != 0x7F)

def afterNewline? : List Char → Option (List Char)
  | '\n' :: rest => some rest
  | '\r' :: '\n' :: rest => some rest
  | _ => none

def afterLineEnd? : List Char → Option (List Char)
  | [] => some []
  | text => afterNewline? text

def skipComment : List Char → List Char
  | '#' :: rest => rest.dropWhile isPlain
  | text => text

/-- The text after the rest of a line on which only spaces and a comment may stand. -/
def finishLine? (text : List Char) : Option (List Char) :=
  afterLineEnd? (skipComment (skipSpace text))

/-- The text after spaces, comments and line ends, as they may stand between the items of an array.
A comment has to end with its line. -/
def skipFiller? (inComment : Bool) : List Char → Option (List Char)
  | [] => if inComment then none else some []
  | '\n' :: rest => skipFiller? false rest
  | '\r' :: '\n' :: rest => skipFiller? false rest
  | c :: rest =>
      if inComment then if isPlain c then skipFiller? true rest else none
      else if c == '#' then skipFiller? true rest
      else if isSpace c then skipFiller? false rest
      else if c == '\r' then none
      else some (c :: rest)

end StyleLookup.Toml

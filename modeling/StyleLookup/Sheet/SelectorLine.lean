import StyleLookup.Selector.Sigil
import StyleLookup.Text.Blank
import StyleLookup.Text.Lines
import StyleLookup.Text.Lowercase
import StyleLookup.Text.Search

/-!
The line of a style sheet on which a selector stands. Rules do not carry positions, so the line is
looked for in the text of the sheet afterwards; the first plausible line is taken.
-/

set_option autoImplicit false

namespace StyleLookup.Sheet

/-- What a selector is looked for by: its first line, trimmed, without trailing commas and without
a leading sigil. -/
def searchText (selector : List Char) : List Char :=
  let line := Text.trim (Text.firstLine (Text.trim selector))
  Selector.dropSigil (Text.trimEnd (Text.dropEndWhile (· == ',') line))

def dropFolded? : List Char → List Char → Option (List Char)
  | [], text => some text
  | _ :: _, [] => none
  | c :: needle, d :: text => if Text.sameFold c d then dropFolded? needle text else none

/-- Whether a text starts with a selector in any case, then optional white space, and then a
character that can follow a selector. -/
def startsSelector (needle text : List Char) : Bool :=
  match dropFolded? needle text with
  | none => false
  | some rest =>
      match rest.dropWhile Text.isBlank with
      | c :: _ => c == '{' || c == '#' || c == ',' || c == ')'
      | [] => false

def holdsSelector (needle : List Char) : List Char → Bool
  | [] => startsSelector needle []
  | c :: rest => startsSelector needle (c :: rest) || holdsSelector needle rest

def holdsPart (needle line : List Char) : Bool :=
  ((needle.splitOn '-').filter fun part => !part.isEmpty).any fun part =>
    Text.contains ('.' :: part) line || Text.contains ('#' :: part) line

/-- The first line on which a selector text is found. A line that holds the selector in front of a
brace, number sign, comma or closing parenthesis is best; for a hyphenated text, a line with one of
its parts as a class or id is next; any line with the text itself comes last. -/
def lineOf? (needle content : List Char) : Option Nat :=
  if needle.isEmpty then none
  else
    let all := Text.lines content
    all.findIdx? (fun line => holdsSelector needle (Text.trim line))
      <|> (if '-' ∈ needle then all.findIdx? (holdsPart needle) else none)
      <|> all.findIdx? (Text.contains needle)

def selectorLine? (content selector : String) : Option Nat :=
  lineOf? (searchText selector.toList) content.toList

end StyleLookup.Sheet

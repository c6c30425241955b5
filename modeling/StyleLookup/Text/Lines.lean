/-!
The lines of a text.
-/

set_option autoImplicit false

namespace StyleLookup.Text

def dropCarriageReturn (text : List Char) : List Char :=
  match text.reverse with
  | '\r' :: before => before.reverse
  | _ => text

/-- The lines of a text. A line feed ends a line, together with a carriage return right before
it. A last line without a line feed is taken as it stands, and an empty one is not counted. -/
def lines (text : List Char) : List (List Char) :=
  let pieces := text.splitOn '\n'
  pieces.dropLast.map dropCarriageReturn ++
    (pieces.getLast?.toList.filter fun last => !last.isEmpty)

def firstLine (text : List Char) : List Char := (lines text).headD []

end StyleLookup.Text

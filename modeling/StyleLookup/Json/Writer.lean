import StyleLookup.StyleRule.Basic
import StyleLookup.Text.Decimal

/-!
Rules as JSON text, on one line or indented.
-/

set_option autoImplicit false

namespace StyleLookup

namespace Json

inductive Value where
  | null
  | number (value : Nat)
  | text (value : String)
  | array (items : List Value)
  | object (fields : List (String × Value))

def lowerHexDigit (value : Nat) : Char :=
  if value < 10 then Char.ofNat ('0'.toNat + value) else Char.ofNat ('a'.toNat + (value - 10))

/-- A character inside a string. Only quotes, backslashes and the control characters below space
are escaped. -/
def writeChar (c : Char) : List Char :=
  if c = '"' then ['\\', '"']
  else if c = '\\' then ['\\', '\\']
  else if c = '\x08' then ['\\', 'b']
  else if c = '\x0C' then ['\\', 'f']
  else if c = '\n' then ['\\', 'n']
  else if c = '\r' then ['\\', 'r']
  else if c = '\t' then ['\\', 't']
  else if c.toNat < 0x20 then
    ['\\', 'u', '0', '0', lowerHexDigit (c.toNat / 16), lowerHexDigit (c.toNat % 16)]
  else [c]

def writeString (text : String) : List Char := '"' :: text.toList.flatMap writeChar ++ ['"']

/-- How the parts of arrays and objects are set: on one line, or each on a line of its own that is
indented by two spaces for each level. -/
inductive Layout where
  | compact
  | indented
deriving DecidableEq, Repr

def Layout.break (layout : Layout) (level : Nat) : List Char :=
  match layout with
  | .compact => []
  | .indented => '\n' :: List.replicate (2 * level) ' '

def Layout.colon : Layout → List Char
  | .compact => [':']
  | .indented => [':', ' ']

def enclose (layout : Layout) (level : Nat) (opening closing : Char) (parts : List (List Char)) :
    List Char :=
  if parts.isEmpty then [opening, closing]
  else
    opening ::
      List.intercalate [','] (parts.map fun part => layout.break (level + 1) ++ part) ++
        layout.break level ++ [closing]

mutual

def Value.write (layout : Layout) (level : Nat) : Value → List Char
  | .null => "null".toList
  | .number value => Text.decimal value
  | .text value => writeString value
  | .array items => enclose layout level '[' ']' (writeItems layout (level + 1) items)
  | .object fields => enclose layout level '\x7b' '\x7d' (writeFields layout (level + 1) fields)

def writeItems (layout : Layout) (level : Nat) : List Value → List (List Char)
  | [] => []
  | item :: rest => item.write layout level :: writeItems layout level rest

def writeFields (layout : Layout) (level : Nat) : List (String × Value) → List (List Char)
  | [] => []
  | (key, value) :: rest =>
      (writeString key ++ layout.colon ++ value.write layout level) ::
        writeFields layout level rest

end

def Value.render (layout : Layout) (value : Value) : String :=
  String.ofList (value.write layout 0)

end Json

namespace Declarations

def toJson (declarations : Declarations) : Json.Value :=
  .object (declarations.entries.map fun (name, value) => (name, .text value))

end Declarations

namespace StyleRule

def toJson (rule : StyleRule) : Json.Value :=
  .object [("selector", .text rule.selector), ("properties", rule.properties.toJson),
    ("file", .text rule.file.spelling),
    ("line", match rule.line.line? with
      | some line => .number line
      | none => .null)]

end StyleRule

end StyleLookup

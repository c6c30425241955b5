import StyleLookup.Text.Decimal

/-!
Writing settings as lines of a TOML document.
-/

set_option autoImplicit false

namespace StyleLookup.Toml

inductive Setting where
  | text (value : String)
  | whole (value : Int)
  | flag (value : Bool)
  | list (items : List String)
deriving DecidableEq, Repr

/-- Whether a character can only be written as an escape: a control character other than tab and
line feed. -/
def needsEscape (c : Char) : Bool := (c.toNat < 0x20 && c != '\t' && c != '\n') || c.toNat == 0x7F

/-- The length of the longest run of a character, given the length of the run that ends before the
text. -/
def longestRunFrom (mark : Char) (current : Nat) : List Char → Nat
  | [] => current
  | c :: rest =>
      if c = mark then longestRunFrom mark (current + 1) rest
      else max current (longestRunFrom mark 0 rest)

def longestRun (mark : Char) (text : List Char) : Nat := longestRunFrom mark 0 text

inductive Quoting where
  | basic
  | literal
  | multiBasic
  | multiLiteral
deriving DecidableEq, Repr

/-- How a string is quoted: in the first form that can hold it with nothing escaped but tabs, and in
an escaped form if there is none. -/
def quotingOf (text : List Char) : Quoting :=
  let control := text.any needsEscape
  let backslash := text.contains '\\'
  let broken := text.contains '\n'
  let double := longestRun '"' text
  let single := longestRun '\'' text
  if !control && !backslash && !broken && double == 0 then .basic
  else if !control && !broken && single == 0 then .literal
  else if !control && !backslash && double ≤ 2 then .multiBasic
  else if !control && single ≤ 2 then .multiLiteral
  else if broken then .multiBasic
  else .basic

def upperHexDigit (value : Nat) : Char :=
  if value < 10 then Char.ofNat ('0'.toNat + value) else Char.ofNat ('A'.toNat + (value - 10))

def escapeOf (c : Char) : List Char :=
  if c = '\x08' then ['\\', 'b']
  else if c = '\t' then ['\\', 't']
  else if c = '\n' then ['\\', 'n']
  else if c = '\x0C' then ['\\', 'f']
  else if c = '\r' then ['\\', 'r']
  else if c = '"' then ['\\', '"']
  else if c = '\\' then ['\\', '\\']
  else
    ['\\', 'u', upperHexDigit (c.toNat / 4096 % 16), upperHexDigit (c.toNat / 256 % 16),
      upperHexDigit (c.toNat / 16 % 16), upperHexDigit (c.toNat % 16)]

def escapeBasic (text : List Char) : List Char :=
  text.flatMap fun c =>
    if c = '"' || c = '\\' || c = '\t' || c = '\n' || needsEscape c then escapeOf c else [c]

/-- A string between triple double quotes: line feeds stay, and of a run of double quotes every
third is escaped, so that the string is not closed early. The number counts the quotes written
since the last other character or escape. -/
def escapeMultiBasic (quotes : Nat) : List Char → List Char
  | [] => []
  | c :: rest =>
      if c = '"' then
        if quotes = 2 then escapeOf c ++ escapeMultiBasic 0 rest
        else c :: escapeMultiBasic (quotes + 1) rest
      else if c = '\\' || c = '\t' || needsEscape c then escapeOf c ++ escapeMultiBasic 0 rest
      else c :: escapeMultiBasic 0 rest

/-- A string in quotes. The forms that may hold line feeds start with one that is not part of the
string if the string has any. -/
def writeString (text : List Char) : List Char :=
  let opening := if text.contains '\n' then ['\n'] else []
  let tripleDouble := ['"', '"', '"']
  let tripleSingle := ['\'', '\'', '\'']
  match quotingOf text with
  | .basic => ['"'] ++ escapeBasic text ++ ['"']
  | .literal => ['\''] ++ text ++ ['\'']
  | .multiBasic => tripleDouble ++ opening ++ escapeMultiBasic 0 text ++ tripleDouble
  | .multiLiteral => tripleSingle ++ opening ++ text ++ tripleSingle

/-- A list of strings. Two items or more stand on lines of their own. -/
def writeList (items : List String) : List Char :=
  match items with
  | [] => ['[', ']']
  | [item] => ['['] ++ writeString item.toList ++ [']']
  | _ =>
      ['[', '\n'] ++
        items.flatMap (fun item => "    ".toList ++ writeString item.toList ++ [',', '\n']) ++ [']']

def Setting.write : Setting → List Char
  | .text value => writeString value.toList
  | .whole value => Text.signedDecimal value
  | .flag value => if value then "true".toList else "false".toList
  | .list items => writeList items

def writeLine (key : String) (setting : Setting) : List Char :=
  key.toList ++ " = ".toList ++ setting.write ++ ['\n']

def writeDocument (settings : List (String × Setting)) : List Char :=
  settings.flatMap fun (key, setting) => writeLine key setting

end StyleLookup.Toml

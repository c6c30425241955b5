import StyleLookup.Toml.Number

/-!
Reading TOML documents. A document is read statement by statement into the entries of its root
table; every fault of the text, a key that is defined twice included, makes the whole document
unreadable.
-/

set_option autoImplicit false

namespace StyleLookup.Toml

/-- How many steps a key may have, and how deep arrays and inline tables may nest. -/
def nestingLimit : Nat := 79

def isBareKeyChar (c : Char) : Bool := c.isAlphanum || c == '-' || c == '_'

def keyStep? (text : List Char) : Option (String × List Char) :=
  match text with
  | '"' :: rest => (basicBody? rest).map fun (step, after) => (String.ofList step, after)
  | '\'' :: rest => (literalBody? rest).map fun (step, after) => (String.ofList step, after)
  | _ =>
      let step := text.takeWhile isBareKeyChar
      if step.isEmpty then none
      else some (String.ofList step, text.dropWhile isBareKeyChar)

/-- A key of at most so many steps with dots in between, and the text after it and its spaces. -/
def key? : Nat → List Char → Option (List String × List Char)
  | 0, _ => none
  | limit + 1, text => do
      let (step, after) ← keyStep? (skipSpace text)
      match skipSpace after with
      | '.' :: rest =>
          let (steps, final) ← key? limit rest
          pure (step :: steps, final)
      | rest => pure ([step], rest)

abbrev ValueReader := List Char → Option (Node × List Char)

/-- The items of an array up to its closing bracket. The first number bounds how many there are. -/
def items? (value? : ValueReader) : Nat → List Char → Option (List Node × List Char)
  | 0, _ => none
  | bound + 1, text => do
      match ← skipFiller? false text with
      | ']' :: rest => pure ([], rest)
      | start =>
          let (item, after) ← value? start
          match ← skipFiller? false after with
          | ',' :: rest =>
              let (more, final) ← items? value? bound rest
              pure (item :: more, final)
          | ']' :: rest => pure ([item], rest)
          | _ => none

def defineKey (steps : List String) (value : Node) (entries : Entries) : Option Entries := do
  let key ← steps.getLast?
  entries.define steps.dropLast key value

def pair? (value? : ValueReader) (text : List Char) : Option (List String × Node × List Char) := do
  let (steps, after) ← key? nestingLimit text
  match after with
  | '=' :: rest =>
      let (value, final) ← value? (skipSpace rest)
      pure (steps, value, final)
  | _ => none

/-- The pairs of an inline table up to its closing brace, added to entries read before. The first
number bounds how many there are. -/
def inlinePairs? (value? : ValueReader) : Nat → Entries → List Char → Option (Entries × List Char)
  | 0, _, _ => none
  | bound + 1, entries, text => do
      let (steps, value, after) ← pair? value? text
      let entries ← defineKey steps value entries
      match skipSpace after with
      | ',' :: rest => inlinePairs? value? bound entries rest
      | '}' :: rest => pure (entries, rest)
      | _ => none

def inlineTable? (value? : ValueReader) (text : List Char) : Option (Entries × List Char) :=
  match skipSpace text with
  | '}' :: rest => some ([], rest)
  | _ => inlinePairs? value? text.length [] text

def scalar? (text : List Char) : Option (Node × List Char) :=
  match text with
  | '"' :: _ => (quoted? text).map fun (content, rest) => (.text (String.ofList content), rest)
  | '\'' :: _ => (quoted? text).map fun (content, rest) => (.text (String.ofList content), rest)
  | 't' :: 'r' :: 'u' :: 'e' :: rest => some (.flag true, rest)
  | 'f' :: 'a' :: 'l' :: 's' :: 'e' :: rest => some (.flag false, rest)
  | _ => number? text

/-- A value in which arrays and inline tables nest no deeper than the given limit. -/
def value? : Nat → ValueReader
  | 0, text => scalar? text
  | limit + 1, text =>
      match text with
      | '[' :: rest =>
          (items? (value? limit) (rest.length + 1) rest).map fun (items, after) =>
            (.array items, after)
      | '{' :: rest =>
          (inlineTable? (value? limit) rest).map fun (entries, after) =>
            (.table .inline entries, after)
      | _ => scalar? text

/-- The header of a table or of a member of an array of tables: the entries with the table opened,
the path of the table, and the text after the line. -/
def header? (entries : Entries) (text : List Char) : Option (Entries × List String × List Char) := do
  let (member, text) :=
    match text with
    | '[' :: rest => (true, rest)
    | _ => (false, text)
  let (steps, after) ← key? nestingLimit text
  let key ← steps.getLast?
  let rest ←
    match member, after with
    | true, ']' :: ']' :: rest => some rest
    | false, ']' :: rest => some rest
    | _, _ => none
  let rest ← finishLine? rest
  let opened ← entries.changeAt steps.dropLast fun table =>
    if member then table.openMember key else table.openTable key
  pure (opened, steps, rest)

/-- A document, read on from the given text with the entries read so far and the path of the open
table. The first number bounds the number of steps. -/
def statements? : Nat → Entries → List String → List Char → Option Entries
  | 0, _, _, _ => none
  | bound + 1, entries, path, text =>
      match skipSpace text with
      | [] => some entries
      | '#' :: rest => do statements? bound entries path (← afterLineEnd? (rest.dropWhile isPlain))
      | '[' :: rest => do
          let (opened, steps, after) ← header? entries rest
          statements? bound opened steps after
      | start =>
          match afterNewline? start with
          | some rest => statements? bound entries path rest
          | none => do
              let (steps, value, after) ← pair? (value? nestingLimit) start
              let rest ← finishLine? after
              let grown ← entries.changeAt path (defineKey steps value)
              statements? bound grown path rest

def document? (text : List Char) : Option Entries :=
  let body :=
    match text with
    | '\uFEFF' :: rest => rest
    | _ => text
  statements? (body.length + 1) [] [] body

end StyleLookup.Toml

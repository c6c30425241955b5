import StyleLookup.Toml.Filler

/-!
Reading the four quoted forms of TOML strings. Each reader takes the text after the opening quotes
and gives the content and the text after the closing quotes.
-/

set_option autoImplicit false

namespace StyleLookup.Toml

def hexDigit? (c : Char) : Option Nat :=
  if '0' ≤ c ∧ c ≤ '9' then some (c.toNat - '0'.toNat)
  else if 'a' ≤ c ∧ c ≤ 'f' then some (c.toNat - 'a'.toNat + 10)
  else if 'A' ≤ c ∧ c ≤ 'F' then some (c.toNat - 'A'.toNat + 10)
  else none

/-- The number that hexadecimal digits stand for, read after a number already read. -/
def hexNumber? (before : Nat) : List Char → Option Nat
  | [] => some before
  | c :: rest => do hexNumber? (16 * before + (← hexDigit? c)) rest

/-- The character whose code point is written in hexadecimal digits. Surrogates and numbers beyond
the last code point name no character. -/
def charOfHex? (digits : List Char) : Option Char := do
  let point ← hexNumber? 0 digits
  if point.isValidChar then some (Char.ofNat point) else none

def escaped? (c : Char) : Option Char :=
  match c with
  | 'b' => some '\x08'
  | 't' => some '\t'
  | 'n' => some '\n'
  | 'f' => some '\x0C'
  | 'r' => some '\r'
  | '"' => some '"'
  | '\\' => some '\\'
  | _ => none

def consRead (c : Char) (read : List Char × List Char) : List Char × List Char :=
  (c :: read.1, read.2)

def basicBody? : List Char → Option (List Char × List Char)
  | [] => none
  | '"' :: rest => some ([], rest)
  | '\\' :: 'u' :: a :: b :: c :: d :: rest => do
      let point ← charOfHex? [a, b, c, d]
      consRead point <$> basicBody? rest
  | '\\' :: 'U' :: a :: b :: c :: d :: e :: f :: g :: h :: rest => do
      let point ← charOfHex? [a, b, c, d, e, f, g, h]
      consRead point <$> basicBody? rest
  | '\\' :: c :: rest => do
      let point ← escaped? c
      consRead point <$> basicBody? rest
  | c :: rest => if isPlain c && c != '\\' then consRead c <$> basicBody? rest else none

def isBlankLine (text : List Char) : Bool := (afterNewline? (skipSpace text)).isSome

/-- A string between triple double quotes. Up to two quotes may stand right before the closing ones.
A backslash at the end of a line takes away all spaces and line ends that follow; while they are
being taken away, `trimming` is on. -/
def multiBasicBody? (trimming : Bool) : List Char → Option (List Char × List Char)
  | [] => none
  | '"' :: '"' :: '"' :: '"' :: '"' :: rest => some (['"', '"'], rest)
  | '"' :: '"' :: '"' :: '"' :: rest => some (['"'], rest)
  | '"' :: '"' :: '"' :: rest => some ([], rest)
  | '\r' :: '\n' :: rest =>
      if trimming then multiBasicBody? true rest
      else consRead '\n' <$> multiBasicBody? false rest
  | '\\' :: 'u' :: a :: b :: c :: d :: rest => do
      let point ← charOfHex? [a, b, c, d]
      consRead point <$> multiBasicBody? false rest
  | '\\' :: 'U' :: a :: b :: c :: d :: e :: f :: g :: h :: rest => do
      let point ← charOfHex? [a, b, c, d, e, f, g, h]
      consRead point <$> multiBasicBody? false rest
  | '\\' :: c :: rest =>
      if isBlankLine (c :: rest) then multiBasicBody? true (c :: rest)
      else do
        let point ← escaped? c
        consRead point <$> multiBasicBody? false rest
  | c :: rest =>
      if trimming && (isSpace c || c == '\n') then multiBasicBody? true rest
      else if c == '\n' || (isPlain c && c != '\\') then
        consRead c <$> multiBasicBody? false rest
      else none

/-- A string between single quotes, on one line. Nothing is escaped. -/
def literalBody? : List Char → Option (List Char × List Char)
  | [] => none
  | '\'' :: rest => some ([], rest)
  | c :: rest => if isPlain c then consRead c <$> literalBody? rest else none

/-- A string between triple single quotes. Up to two quotes may stand right before the closing
ones. -/
def multiLiteralBody? : List Char → Option (List Char × List Char)
  | [] => none
  | '\'' :: '\'' :: '\'' :: '\'' :: '\'' :: rest => some (['\'', '\''], rest)
  | '\'' :: '\'' :: '\'' :: '\'' :: rest => some (['\''], rest)
  | '\'' :: '\'' :: '\'' :: rest => some ([], rest)
  | '\r' :: '\n' :: rest => consRead '\n' <$> multiLiteralBody? rest
  | c :: rest =>
      if c == '\n' || isPlain c then consRead c <$> multiLiteralBody? rest else none

def skipNewline (text : List Char) : List Char := (afterNewline? text).getD text

def quoted? : List Char → Option (List Char × List Char)
  | '"' :: '"' :: '"' :: rest => multiBasicBody? false (skipNewline rest)
  | '"' :: rest => basicBody? rest
  | '\'' :: '\'' :: '\'' :: rest => multiLiteralBody? (skipNewline rest)
  | '\'' :: rest => literalBody? rest
  | _ => none

end StyleLookup.Toml

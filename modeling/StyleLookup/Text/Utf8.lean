/-!
Texts as bytes. A text is written in UTF-8. Where bytes to be read are no UTF-8, replacement
characters stand for them: one for the start of a character that is not carried on, as far as it
goes, and one for each other byte.
-/

set_option autoImplicit false

namespace StyleLookup.Text

def utf8 (text : List Char) : List UInt8 := text.flatMap String.utf8EncodeChar

def replacement : Char := '\ufffd'

/-- A character of which the first bytes have been read: what they amount to, how many bytes are
missing, and between which bounds the next one has to lie. -/
structure OpenChar where
  value : Nat
  missing : Nat
  least : Nat
  greatest : Nat
deriving DecidableEq, Repr

/-- What a byte stands for if it does not carry on a character: the characters that it completes
and the one that it opens. The bounds keep out surrogates, points that do not exist, and
characters written with more bytes than they take. -/
def openChar (byte : UInt8) : List Char × Option OpenChar :=
  let code := byte.toNat
  if code < 0x80 then ([Char.ofNat code], none)
  else if code < 0xC2 then ([replacement], none)
  else if code < 0xE0 then ([], some ⟨code - 0xC0, 1, 0x80, 0xBF⟩)
  else if code < 0xF0 then
    ([], some ⟨code - 0xE0, 2,
      if code = 0xE0 then 0xA0 else 0x80, if code = 0xED then 0x9F else 0xBF⟩)
  else if code < 0xF5 then
    ([], some ⟨code - 0xF0, 3,
      if code = 0xF0 then 0x90 else 0x80, if code = 0xF4 then 0x8F else 0xBF⟩)
  else ([replacement], none)

def readByte (underWay : Option OpenChar) (byte : UInt8) : List Char × Option OpenChar :=
  match underWay with
  | none => openChar byte
  | some begun =>
      if begun.least ≤ byte.toNat ∧ byte.toNat ≤ begun.greatest then
        let value := 64 * begun.value + (byte.toNat - 0x80)
        if begun.missing = 1 then ([Char.ofNat value], none)
        else ([], some ⟨value, begun.missing - 1, 0x80, 0xBF⟩)
      else
        let (read, next) := openChar byte
        (replacement :: read, next)

def readBytes (underWay : Option OpenChar) : List UInt8 → List Char
  | [] => if underWay.isSome then [replacement] else []
  | byte :: rest =>
      let (read, next) := readByte underWay byte
      read ++ readBytes next rest

/-- The text that bytes are read as. -/
def ofUtf8 (bytes : List UInt8) : List Char := readBytes none bytes

end StyleLookup.Text

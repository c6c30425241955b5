import StyleLookup.Path.Basic
import StyleLookup.Text.Utf8

/-!
What the characters of a path stand for. Most paths are text. But a file system keeps bytes, which
need not be the UTF-8 of any text, and such a path is held with a character for each byte. It is
taken apart and put together like any other, since no byte of a longer character is that of a slash
or a dot.
-/

set_option autoImplicit false

namespace StyleLookup.Path

/-- How paths are held: as text, or as bytes, each by the character of its code. With bytes the
names that meet paths, in settings and in listings, are held by their bytes as well. -/
inductive Encoding where
  | text
  | bytes
deriving DecidableEq, Repr

namespace Encoding

/-- The path that a text spells. -/
def encode : Encoding → String → Path
  | .text, spelling => ⟨spelling⟩
  | .bytes, spelling => ofText ((Text.utf8 spelling.toList).map Char.ofUInt8)

/-- The text that a path is read as. -/
def decode : Encoding → Path → String
  | .text, path => path.spelling
  | .bytes, path => String.ofList (Text.ofUtf8 (path.text.map Char.toUInt8))

/-- What is left of a part of a path when it is read as text, held as paths are. -/
def reread (encoding : Encoding) (part : String) : String :=
  (encoding.encode (encoding.decode ⟨part⟩)).spelling

/-- Nothing of a path is lost when it is read as text. -/
def Legible (encoding : Encoding) (path : Path) : Prop :=
  encoding.encode (encoding.decode path) = path

instance (encoding : Encoding) (path : Path) : Decidable (encoding.Legible path) :=
  inferInstanceAs (Decidable (_ = _))

end Encoding

end StyleLookup.Path

import StyleLookup.Discovery.Walk
import StyleLookup.Selector.Sigil
import StyleLookup.Text.Blank
import StyleLookup.Usage.Attribute

/-!
Uses of a class or id in the markup of a workspace.
-/

set_option autoImplicit false

namespace StyleLookup

/-- A place where a name is used. Lines and columns are counted from zero, columns in characters. -/
structure Usage where
  path : Path
  line : Nat
  column : Nat
  kind : Attribute
deriving DecidableEq, Repr

namespace Usage

def markupExtensions : List String :=
  ["html", "htm", "js", "jsx", "ts", "tsx", "vue", "php", "erb", "ejs", "hbs"]

/-- The line and column of the place so many characters into a text. -/
def position (text : List Char) (offset : Nat) : Nat × Nat :=
  let before := text.take offset
  (before.count '\n', (before.reverse.takeWhile (· != '\n')).length)

def notAfter (left right : Usage) : Bool :=
  left.line < right.line || (left.line == right.line && left.column ≤ right.column)

def scan (path : Path) (name text : List Char) : List Usage :=
  let found := [Attribute.classList, .className, .id].flatMap fun kind =>
    (kind.places name text).map fun offset =>
      let (line, column) := position text offset
      ⟨path, line, column, kind⟩
  found.mergeSort notAfter

def searchedName (token : String) : List Char := Selector.dropSigil (Text.trim token.toList)

variable {m : Type → Type} [Monad m]

def inFile (fs : FileSystem m) (name : List Char) (path : Path) : m (List Usage) := do
  match ← fs.readText path with
  | .ok content => pure (scan path name content.toList)
  | .error _ => pure []

/-- The uses of a token in the files below a root that have one of the given extensions. A token
without a name is used nowhere, and nothing is read for it. -/
def find (fs : FileSystem m) (scoping : Scoping) (extensions : List String) (token : String)
    (root : Path) : m (List Usage) := do
  let name := searchedName token
  if name.isEmpty then pure []
  else
    let files ← Discovery.walk fs scoping (hasExtension extensions) root
    let found ← files.mapM (inFile fs name)
    pure found.flatten

end Usage

end StyleLookup

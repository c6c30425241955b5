/-!
Paths as written, and the components they are read as. A path keeps its spelling, because that is
what is printed; two spellings name the same place when their components agree.
-/

set_option autoImplicit false

namespace StyleLookup

/-- A path, as it was written. -/
structure Path where
  spelling : String
deriving DecidableEq, Repr, Inhabited

namespace Path

/-- One step of a path. A `.` counts as a step only at the start of a relative path. -/
inductive Component where
  | root
  | current
  | parent
  | name (entry : String)
deriving DecidableEq, Repr

def ofText (text : List Char) : Path := ⟨String.ofList text⟩

def text (path : Path) : List Char := path.spelling.toList

@[simp] theorem text_ofText (text : List Char) : (ofText text).text = text := by
  simp [ofText, Path.text]

@[simp] theorem ofText_text (path : Path) : ofText path.text = path := by
  simp [ofText, Path.text]

def empty : Path := ofText []

def root : Path := ofText ['/']

def isAbsolute (path : Path) : Bool := path.text.head? == some '/'

def pieces (path : Path) : List (List Char) := path.text.splitOn '/'

/-- Whether a stretch is passed over when a path is read: it is empty or a dot. -/
def isSilent (piece : List Char) : Bool := piece.isEmpty || piece == ['.']

def Component.ofPiece? (piece : List Char) : Option Component :=
  if isSilent piece then none
  else if piece = ['.', '.'] then some .parent
  else some (.name (String.ofList piece))

/-- Where a path starts: at the root, at an explicit `.`, or nowhere in particular. -/
inductive Start where
  | root
  | here
  | relative
deriving DecidableEq, Repr

def start (path : Path) : Start :=
  if path.isAbsolute then .root
  else if path.pieces.head? = some ['.'] then .here
  else .relative

/-- The steps of a path. Repeated and trailing slashes and inner dots leave no trace. -/
def components (path : Path) : List Component :=
  let steps := path.pieces.filterMap Component.ofPiece?
  match path.start with
  | .root => .root :: steps
  | .here => .current :: steps
  | .relative => steps

def sameAs (left right : Path) : Bool := left.components == right.components

/-- Whether a path lies at or below another one, step by step. -/
def startsWith (path base : Path) : Bool := base.components.isPrefixOf path.components

/-- A path read from a directory. An absolute path stands for itself. One slash is put in between
unless the directory is empty or ends in a slash. -/
def join (directory path : Path) : Path :=
  if path.isAbsolute then path
  else if directory.text.isEmpty || directory.text.getLast? == some '/' then
    ofText (directory.text ++ path.text)
  else ofText (directory.text ++ '/' :: path.text)

def child (directory : Path) (name : String) : Path := directory.join ⟨name⟩

def Component.text : Component → List Char
  | .root => []
  | .current => ['.']
  | .parent => ['.', '.']
  | .name entry => entry.toList

def ofComponents : List Component → Path
  | .root :: steps => ofText ('/' :: List.intercalate ['/'] (steps.map Component.text))
  | steps => ofText (List.intercalate ['/'] (steps.map Component.text))

/-- The name at the end of a path. A path that ends in `..`, the root and the empty path have
none. -/
def fileName? (path : Path) : Option String :=
  match path.components.getLast? with
  | some (.name entry) => some entry
  | _ => none

end Path

end StyleLookup

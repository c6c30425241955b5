import StyleLookup.Path.Basic
import StyleLookup.Text.Search

/-!
The directories above a path. They are cut out of its spelling, so that what is left of a path
still looks as it was written.
-/

set_option autoImplicit false

namespace StyleLookup.Path

def assemble (start : Start) (pieces : List (List Char)) : Path :=
  let body := List.intercalate ['/'] pieces
  match start, pieces with
  | .root, _ => ofText ('/' :: body)
  | .here, [] => ofText ['.']
  | .here, _ => ofText ('.' :: '/' :: body)
  | .relative, _ => ofText body

def bodyPieces (path : Path) : List (List Char) :=
  match path.start with
  | .relative => path.pieces
  | _ => path.pieces.tail

/-- The ancestors of the path that starts as given and goes on with the given stretches, which
stand in reverse order. Each stretch that counts as a step gives the ancestor in front of it. -/
def ancestorsBefore (start : Start) : List (List Char) → List Path
  | [] => if start = .here then [empty] else []
  | piece :: before =>
      if isSilent piece then ancestorsBefore start before
      else assemble start (before.dropWhile isSilent).reverse :: ancestorsBefore start before

/-- The directories above a path, the nearest first. The last one is the root or, for a relative
path, the empty path. -/
def ancestors (path : Path) : List Path := ancestorsBefore path.start path.bodyPieces.reverse

/-- The directory that holds a path. The root and the empty path have none. -/
def parent? (path : Path) : Option Path := path.ancestors.head?

/-- The file name up to its last dot. A dot that starts the name does not count. -/
def fileStem? (path : Path) : Option String :=
  path.fileName?.map fun name =>
    match Text.splitLast? '.' name.toList with
    | some (before, _) => if before.isEmpty then name else String.ofList before
    | none => name

end StyleLookup.Path

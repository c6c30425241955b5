import StyleLookup.FileSystem.Basic
import StyleLookup.Scoping.Basic

/-!
The walk through a directory tree. It goes down at most a given number of levels, so it ends even if
links make the tree cyclic. A directory that cannot be listed contributes nothing.
-/

set_option autoImplicit false

namespace StyleLookup.Discovery

variable {m : Type → Type} [Monad m]

def isHidden (name : String) : Bool := name.toList.head? == some '.'

/-- What an entry contributes to a walk. Excluded names contribute nothing, a file contributes
itself if its name is wanted, and a directory that is not hidden contributes what lies in it. -/
def visitEntry (scoping : Scoping) (wanted : String → Bool) (enter : Path → m (List Path))
    (entry : DirEntry) : m (List Path) :=
  if scoping.isExcluded entry.name then pure []
  else
    match entry.kind with
    | .file => pure (if wanted entry.name then [entry.path] else [])
    | .directory => if isHidden entry.name then pure [] else enter entry.path
    | .other => pure []

def visitDirectory (fs : FileSystem m) (scoping : Scoping) (wanted : String → Bool)
    (enter : Path → m (List Path)) (directory : Path) : m (List Path) := do
  let entries ← fs.entries directory
  let found ← entries.mapM (visitEntry scoping wanted enter)
  pure found.flatten

/-- The wanted files in a directory and up to so many levels below it. -/
def filesBelow (fs : FileSystem m) (scoping : Scoping) (wanted : String → Bool) :
    Nat → Path → m (List Path)
  | 0 => visitDirectory fs scoping wanted fun _ => pure []
  | levels + 1 => visitDirectory fs scoping wanted (filesBelow fs scoping wanted levels)

def walk (fs : FileSystem m) (scoping : Scoping) (wanted : String → Bool) (root : Path) :
    m (List Path) :=
  filesBelow fs scoping wanted scoping.scanDepth root

def globalFiles (fs : FileSystem m) (scoping : Scoping) (root : Path) : m (List Path) :=
  walk fs scoping scoping.hasStyleExtension root

end StyleLookup.Discovery

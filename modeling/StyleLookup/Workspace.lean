import StyleLookup.FileSystem.Basic
import StyleLookup.Path.Ancestor
import StyleLookup.Path.Normal

/-!
Workspaces: the directory trees to which source files belong.
-/

set_option autoImplicit false

namespace StyleLookup

/-- How the workspace of a source file is found: it is a fixed directory, or the nearest one above
the source that holds an entry with one of the given names. -/
inductive Workspace where
  | fixed (root : Path)
  | marked (markers : List String)
deriving DecidableEq, Repr

namespace Workspace

def standardMarkers : List String := [".git", "package.json", "Cargo.toml", "stylepeek.toml"]

def atRoot (root : Path) : Workspace := .fixed root.normalize

/-- The root of a fixed workspace, if a source lies at it or below. -/
def enclosingRoot? (root source : Path) : Option Path :=
  if source.normalize.startsWith root then some root else none

variable {m : Type → Type} [Monad m]

def isMarked (fs : FileSystem m) (directory : Path) : List String → m Bool
  | [] => pure false
  | marker :: rest => do
      let path := directory.child marker
      if ← fs.isFile path then pure true
      else if ← fs.isDir path then pure true
      else isMarked fs directory rest

def firstMarked? (fs : FileSystem m) (markers : List String) : List Path → m (Option Path)
  | [] => pure none
  | directory :: rest => do
      if ← isMarked fs directory markers then pure (some directory)
      else firstMarked? fs markers rest

def root? (fs : FileSystem m) (workspace : Workspace) (source : Path) : m (Option Path) :=
  match workspace with
  | .fixed root => pure (enclosingRoot? root source)
  | .marked markers => firstMarked? fs markers source.ancestors

end Workspace

end StyleLookup

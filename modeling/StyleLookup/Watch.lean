import StyleLookup.Fault
import StyleLookup.Scoping.Basic

/-!
The roots that are watched for changes. A root is watched under its canonical path, which is found
anew on every request, since links and directories may have changed in between. Of the changes below
a root those of style sheets count.
-/

set_option autoImplicit false

namespace StyleLookup

/-- Whether a change at a path is one of a style sheet. Only the name at the end of the path says
so. -/
def Scoping.isStyleSheet (scoping : Scoping) (path : Path) : Bool :=
  path.fileName?.any scoping.hasStyleExtension

structure WatchedRoots where
  roots : List Path
deriving DecidableEq, Repr

namespace WatchedRoots

def empty : WatchedRoots := ⟨[]⟩

/-- Watches a root. A root without a canonical path cannot be watched. -/
def watch (watched : WatchedRoots) (canonical : Path → Except FileFault Path) (root : Path) :
    Except Fault WatchedRoots :=
  match canonical root with
  | .error fault => .error (.inaccessible root fault)
  | .ok path => .ok (if watched.roots.contains path then watched else ⟨watched.roots ++ [path]⟩)

/-- Stops watching a root. Nothing changes if the root has no canonical path. -/
def unwatch (watched : WatchedRoots) (canonical : Path → Except FileFault Path) (root : Path) :
    WatchedRoots :=
  match canonical root with
  | .error _ => watched
  | .ok path => ⟨watched.roots.filter (· != path)⟩

def size (watched : WatchedRoots) : Nat := watched.roots.length

end WatchedRoots

end StyleLookup

import StyleLookup.FileSystem.Basic
import StyleLookup.Scoping.Toml

/-!
Loading scoping settings from a file.
-/

set_option autoImplicit false

namespace StyleLookup.Scoping

variable {m : Type → Type} [Monad m]

def load (fs : FileSystem m) (path : Path) : m (Except Fault Scoping) := do
  match ← fs.readText path with
  | .error fault => pure (.error (.inaccessible path fault))
  | .ok content =>
      match ofToml? content with
      | some scoping => pure (.ok scoping)
      | none => pure (.error (.malformedSettings (some path)))

end StyleLookup.Scoping

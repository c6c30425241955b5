import StyleLookup.Path.Basic

/-!
Lexical normalization: the steps `.` and `..` are worked out on the text of a path alone, without
asking a file system.
-/

set_option autoImplicit false

namespace StyleLookup.Path

/-- Takes one step from the place reached so far, whose steps stand in reverse order. A `..` takes
back the last step, whatever it was; where there is none to take back, that is at the root and at
the empty path, it is kept as a step of its own. -/
def advance (reached : List Component) : Component → List Component
  | .root => [.root]
  | .current => reached
  | .parent =>
      match reached with
      | [] => [.parent]
      | [.root] => [.parent, .root]
      | _ :: before => before
  | .name entry => .name entry :: reached

def normalSteps (steps : List Component) : List Component := (steps.foldl advance []).reverse

/-- The path with `.` and `..` worked out on its text. -/
def normalize (path : Path) : Path := ofComponents (normalSteps path.components)

/-- The absolute form of a path seen from a working directory. Dots and repeated slashes go, `..`
stays, and so do a trailing slash and a start of exactly two slashes. -/
def absoluteFrom (path workingDirectory : Path) : Path :=
  let steps := path.components.filter fun step => step != .root && step != .current
  let base :=
    match path.text with
    | '/' :: '/' :: '/' :: _ => root
    | '/' :: '/' :: _ => ofText ['/', '/']
    | '/' :: _ => root
    | _ => workingDirectory
  let whole := steps.foldl (fun reached step => reached.join (ofText step.text)) base
  if path.text.getLast? == some '/' then whole.join empty else whole

end StyleLookup.Path

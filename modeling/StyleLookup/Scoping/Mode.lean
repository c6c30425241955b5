import StyleLookup.Fault
import StyleLookup.Text.Blank
import StyleLookup.Text.Lowercase

/-!
Scoping modes: which directories are searched for the style sheets of a source file.
-/

set_option autoImplicit false

namespace StyleLookup

/-- All style sheets of the workspace, those next to the source file, those named after it, or the
last two and the common directories before the whole workspace. -/
inductive Mode where
  | global
  | folder
  | filename
  | smart
deriving DecidableEq, Repr

namespace Mode

def name : Mode → String
  | .global => "global"
  | .folder => "folder"
  | .filename => "filename"
  | .smart => "smart"

def ofName? (name : String) : Option Mode :=
  [global, folder, filename, smart].find? fun mode => mode.name == name

theorem ofName?_name (mode : Mode) : ofName? mode.name = some mode := by
  cases mode <;> decide

/-- Reads a mode. Surrounding white space and the case of ASCII letters do not matter. -/
def parse (text : String) : Except Fault Mode :=
  let name := String.ofList ((Text.trim text.toList).map Text.asciiLower)
  match ofName? name with
  | some mode => .ok mode
  | none => .error (.unknownMode name)

end Mode

end StyleLookup

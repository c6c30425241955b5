import StyleLookup.Scoping.Basic
import StyleLookup.Toml.Reader
import StyleLookup.Toml.Writer

/-!
Scoping settings as TOML documents. A document may leave settings out, which then have their
standard values, and may hold anything else besides.
-/

set_option autoImplicit false

namespace StyleLookup

namespace Toml.Node

def isEmptyCollection : Node → Bool
  | .array items => items.isEmpty
  | .table _ entries => entries.isEmpty
  | .tables members => members.isEmpty
  | _ => false

/-- The mode that a value stands for: its name, or a table whose only key is its name and has an
empty array or table as value. -/
def mode? : Node → Option Mode
  | .text name => Mode.ofName? name
  | .table _ [(name, content)] => if content.isEmptyCollection then Mode.ofName? name else none
  | _ => none

def text? : Node → Option String
  | .text value => some value
  | _ => none

def texts? : Node → Option (List String)
  | .array items => items.mapM text?
  | _ => none

def flag? : Node → Option Bool
  | .flag value => some value
  | _ => none

def whole? : Node → Option Int
  | .whole value => some value
  | _ => none

end Toml.Node

/-- The value of a setting: the given standard value if the key is missing, nothing if its value
does not fit. -/
def Toml.Entries.setting? {α : Type} (entries : Toml.Entries) (key : String) (standard : α)
    (read? : Toml.Node → Option α) : Option α :=
  match entries.find? key with
  | none => some standard
  | some node => read? node

namespace Scoping

def ofEntries? (entries : Toml.Entries) : Option Scoping := do
  pure {
    mode := ← entries.setting? "mode" standard.mode Toml.Node.mode?
    fileExtensions :=
      ← entries.setting? "file-extensions" standard.fileExtensions Toml.Node.texts?
    fallbackToGlobal :=
      ← entries.setting? "fallback-to-global" standard.fallbackToGlobal Toml.Node.flag?
    commonDirectories :=
      ← entries.setting? "common-directories" standard.commonDirectories Toml.Node.texts?
    fileNamePatterns :=
      ← entries.setting? "file-name-patterns" standard.fileNamePatterns Toml.Node.texts?
    excludeDirectories :=
      ← entries.setting? "exclude-directories" standard.excludeDirectories Toml.Node.texts?
    maxScanDepth := ← entries.setting? "max-scan-depth" standard.maxScanDepth Toml.Node.whole? }

def ofToml? (text : String) : Option Scoping := do ofEntries? (← Toml.document? text.toList)

def settings (scoping : Scoping) : List (String × Toml.Setting) :=
  [("mode", .text scoping.mode.name),
    ("file-extensions", .list scoping.fileExtensions),
    ("fallback-to-global", .flag scoping.fallbackToGlobal),
    ("common-directories", .list scoping.commonDirectories),
    ("file-name-patterns", .list scoping.fileNamePatterns),
    ("exclude-directories", .list scoping.excludeDirectories),
    ("max-scan-depth", .whole scoping.maxScanDepth)]

def toToml (scoping : Scoping) : String := String.ofList (Toml.writeDocument scoping.settings)

end Scoping

end StyleLookup

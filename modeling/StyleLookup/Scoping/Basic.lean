import StyleLookup.Scoping.Mode
import StyleLookup.Text.Search

/-!
The settings that decide which style sheets are searched.
-/

set_option autoImplicit false

namespace StyleLookup

/-- Which style sheets are searched for a source file. Extensions are written without their dot;
common directories are relative to the workspace root; excluded names are never entered. -/
structure Scoping where
  mode : Mode
  fileExtensions : List String
  fallbackToGlobal : Bool
  commonDirectories : List String
  fileNamePatterns : List String
  excludeDirectories : List String
  maxScanDepth : Int
deriving DecidableEq, Repr

/-- Whether the part of a file name after its last dot is one of the extensions. A dot at the start
of the name does not set off an extension. -/
def hasExtension (extensions : List String) (fileName : String) : Bool :=
  match Text.splitLast? '.' fileName.toList with
  | some (stem, extension) => !stem.isEmpty && extensions.contains (String.ofList extension)
  | none => false

namespace Scoping

/-- Where a file name pattern takes the name of the source file. -/
def placeholder : String := "$\x7bfilename\x7d"

def standard : Scoping where
  mode := .smart
  fileExtensions := ["css", "scss", "sass", "less"]
  fallbackToGlobal := true
  commonDirectories := ["css", "styles", "src/styles", "src/css", "assets/css", "static"]
  fileNamePatterns := [placeholder, placeholder ++ ".module", placeholder ++ ".styles"]
  excludeDirectories := ["node_modules", ".git", "target", "dist", "build", ".vscode"]
  maxScanDepth := 10

instance : Inhabited Scoping := ⟨standard⟩

/-- How many levels below the root are searched. A negative depth counts as zero. -/
def scanDepth (scoping : Scoping) : Nat := scoping.maxScanDepth.toNat

def isExcluded (scoping : Scoping) (name : String) : Bool :=
  scoping.excludeDirectories.contains name

def hasStyleExtension (scoping : Scoping) (fileName : String) : Bool :=
  hasExtension scoping.fileExtensions fileName

/-- The name that a pattern gives for the stem of a source file. Only the first placeholder is
filled. -/
def fillPattern (stem pattern : String) : String :=
  String.ofList (Text.replaceFirst placeholder.toList stem.toList pattern.toList)

end Scoping

end StyleLookup

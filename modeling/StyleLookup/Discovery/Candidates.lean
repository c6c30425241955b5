import StyleLookup.Discovery.CandidateList
import StyleLookup.Discovery.Walk
import StyleLookup.Path.Ancestor
import StyleLookup.Path.Encoding

/-!
The style sheets that may hold rules for a source file, in order of priority.
-/

set_option autoImplicit false

namespace StyleLookup.Discovery

variable {m : Type → Type} [Monad m]

/-- The paths that the name patterns give next to a source file, for each pattern with each
extension. They are filled with what the name of the source is read as. A source without a file name
has none. -/
def patternPaths (scoping : Scoping) (directory source : Path)
    (encoding : Path.Encoding := .text) : List Path :=
  match source.fileStem? with
  | none => []
  | some stem =>
      scoping.fileNamePatterns.flatMap fun pattern =>
        scoping.fileExtensions.map fun extension =>
          directory.child
            (Scoping.fillPattern (encoding.reread stem) pattern ++ "." ++ extension)

def filenameMatches (fs : FileSystem m) (scoping : Scoping) (directory source : Path)
    (encoding : Path.Encoding := .text) : m (List Path) :=
  fs.filesAmong (patternPaths scoping directory source encoding)

def endsInExtension (extension name : String) : Bool :=
  ('.' :: extension.toList).isSuffixOf name.toList

/-- The style sheets among the entries of a directory: for each extension, in the order of the
listing. -/
def sheetsAmong (scoping : Scoping) (entries : List DirEntry) : List Path :=
  scoping.fileExtensions.flatMap fun extension =>
    (entries.filter fun entry => entry.kind == .file && endsInExtension extension entry.name).map
      (·.path)

def folderFiles (fs : FileSystem m) (scoping : Scoping) (directory : Path) : m (List Path) := do
  pure (sheetsAmong scoping (← fs.entries directory))

def commonFiles (fs : FileSystem m) (scoping : Scoping) (root : Path) : m (List Path) := do
  let found ← scoping.commonDirectories.mapM fun common => do
    let directory := root.child common
    if ← fs.isDir directory then folderFiles fs scoping directory else pure []
  pure found.flatten

/-- The style sheets beside a source file that a search contributes; none if the source lies in no
directory. -/
def beside (source : Path) (search : Path → m (List Path)) : m (List Path) :=
  match source.parent? with
  | none => pure []
  | some directory => search directory

/-- The paths that the smart mode finds before it falls back to the whole workspace. -/
def scopedFiles (fs : FileSystem m) (scoping : Scoping) (root source : Path)
    (encoding : Path.Encoding := .text) : m (List Path) := do
  let named ← beside source fun directory =>
    filenameMatches fs scoping directory source encoding
  let adjacent ← beside source (folderFiles fs scoping)
  let common ← commonFiles fs scoping root
  pure (named ++ adjacent ++ common)

/-- The candidate style sheets for a source file in a workspace. There are none if the root of the
workspace is not a directory. -/
def candidates (fs : FileSystem m) (scoping : Scoping) (root source : Path)
    (encoding : Path.Encoding := .text) : m CandidateList := do
  if ← fs.isDir root then
    match scoping.mode with
    | .global => return .ofList (← globalFiles fs scoping root)
    | .filename =>
        return .ofList (← beside source fun directory =>
          filenameMatches fs scoping directory source encoding)
    | .folder => return .ofList (← beside source (folderFiles fs scoping))
    | .smart =>
        let nearby := CandidateList.ofList (← scopedFiles fs scoping root source encoding)
        if nearby.isEmpty && scoping.fallbackToGlobal then
          return .ofList (← globalFiles fs scoping root)
        else return nearby
  else return .empty

end StyleLookup.Discovery

import StyleLookup.CommandLine.Commands

/-!
The program: the commands on the file system of the computer.
-/

set_option autoImplicit false

namespace StyleLookup

def FileFault.ofError : IO.Error → FileFault
  | .noFileOrDirectory _ _ _ => .notFound
  | .inappropriateType _ 20 _ => .notDirectory
  | .inappropriateType _ 21 _ => .isDirectory
  | error => .other error.toString

/-- Runs an action and turns an error into a fault. -/
def attempt {α : Type} (action : IO α) : IO (Except FileFault α) := do
  try
    pure (.ok (← action))
  catch error => pure (.error (.ofError error))

def kindAt (path : Path) : IO EntryKind := do
  try
    let place ← IO.FS.realPath path.spelling
    let metadata ← place.metadata
    match metadata.type with
    | .file => pure .file
    | .dir => pure .directory
    | _ => pure .other
  catch _ => pure .other

def requireKind (path : Path) : IO (Except FileFault EntryKind) := do
  match ← attempt (IO.FS.realPath path.spelling) with
  | .error fault => pure (.error fault)
  | .ok _ => pure (.ok (← kindAt path))

def listDirectory (path : Path) : IO (Except FileFault (List DirEntry)) := do
  match ← requireKind path with
  | .error fault => pure (.error fault)
  | .ok .directory =>
      attempt do
        let found ← (← IO.FS.realPath path.spelling).readDir
        let entries ← found.toList.mapM fun entry => do
          let child := path.child entry.fileName
          pure (⟨child, entry.fileName, ← kindAt child⟩ : DirEntry)
        pure (entries.mergeSort fun left right => left.name ≤ right.name)
  | .ok _ => pure (.error .notDirectory)

def readFileText (path : Path) : IO (Except FileFault String) := do
  match ← requireKind path with
  | .error fault => pure (.error fault)
  | .ok .directory => pure (.error .isDirectory)
  | .ok _ =>
      match ← attempt (IO.FS.readBinFile path.spelling) with
      | .error fault => pure (.error fault)
      | .ok bytes =>
          match String.fromUTF8? bytes with
          | some text => pure (.ok text)
          | none => pure (.error .notText)

def computerFiles : FileSystem IO where
  readDir := listDirectory
  readText := readFileText
  isFile path := do pure ((← kindAt path) == .file)
  isDir path := do pure ((← kindAt path) == .directory)

end StyleLookup

open StyleLookup in
def main (arguments : List String) : IO UInt32 := do
  let directory ← IO.currentDir
  let outcome ← CommandLine.run computerFiles ⟨directory.toString⟩ arguments
  IO.print outcome.output
  match outcome.error? with
  | some message => IO.eprintln message
  | none => if outcome.code == 2 then IO.eprint CommandLine.helpText
  pure (UInt32.ofNat outcome.code)

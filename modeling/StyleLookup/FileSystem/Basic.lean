import StyleLookup.Fault

/-!
The file system as lookups see it: four questions, each of which may fail. The questions are asked
in some monad, so that the same lookups run on a real file system and on a snapshot of one, with or
without a record of what was asked.
-/

set_option autoImplicit false

namespace StyleLookup

/-- What an entry of a directory is. Symbolic links count as what they lead to. -/
inductive EntryKind where
  | file
  | directory
  | other
deriving DecidableEq, Repr

/-- An entry of a directory, with the path under which it was found. -/
structure DirEntry where
  path : Path
  name : String
  kind : EntryKind
deriving DecidableEq, Repr

/-- The questions that lookups ask. -/
structure FileSystem (m : Type → Type) where
  readDir : Path → m (Except FileFault (List DirEntry))
  readText : Path → m (Except FileFault String)
  isFile : Path → m Bool
  isDir : Path → m Bool

/-- A file system at one moment. -/
abbrev Snapshot := FileSystem Id

namespace FileSystem

variable {m : Type → Type} [Monad m]

def entries (fs : FileSystem m) (directory : Path) : m (List DirEntry) := do
  match ← fs.readDir directory with
  | .ok found => pure found
  | .error _ => pure []

def filesAmong (fs : FileSystem m) : List Path → m (List Path)
  | [] => pure []
  | path :: rest => do
      let held ← fs.isFile path
      let more ← fs.filesAmong rest
      pure (if held then path :: more else more)

end FileSystem

/-- Which files were read and which directories were listed, in order, failed attempts included. -/
structure AccessLog where
  reads : List Path
  listings : List Path
deriving DecidableEq, Repr

def AccessLog.empty : AccessLog := ⟨[], []⟩

def Snapshot.logged (snapshot : Snapshot) : FileSystem (StateM AccessLog) where
  readDir path := do
    modify fun log => { log with listings := log.listings ++ [path] }
    pure (snapshot.readDir path)
  readText path := do
    modify fun log => { log with reads := log.reads ++ [path] }
    pure (snapshot.readText path)
  isFile path := pure (snapshot.isFile path)
  isDir path := pure (snapshot.isDir path)

end StyleLookup

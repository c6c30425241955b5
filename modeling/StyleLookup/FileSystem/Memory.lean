import StyleLookup.FileSystem.Basic
import StyleLookup.Path.Ancestor
import StyleLookup.Path.Normal

/-!
Trees of files held in memory. Every question is about the normal form of the path that is asked
for, so a detour through a missing directory leads to the same place.
-/

set_option autoImplicit false

namespace StyleLookup

/-- A place in a tree: a file with its text, a file that cannot be read, a directory, a directory
that cannot be listed, or something else. -/
inductive MemoryNode where
  | text (content : String)
  | unreadable (fault : FileFault)
  | directory
  | unlistable
  | other
deriving DecidableEq, Repr

namespace MemoryNode

def kind : MemoryNode → EntryKind
  | .text _ => .file
  | .unreadable _ => .file
  | .directory => .directory
  | .unlistable => .directory
  | .other => .other

end MemoryNode

/-- A tree, as the places in it under their normal paths. -/
structure MemoryTree where
  nodes : List (Path × MemoryNode)
deriving DecidableEq, Repr

namespace MemoryTree

def bare : MemoryTree := ⟨[(Path.root, .directory)]⟩

def find? (tree : MemoryTree) (path : Path) : Option MemoryNode :=
  tree.nodes.lookup path.normalize

def put (tree : MemoryTree) (path : Path) (node : MemoryNode) : MemoryTree :=
  ⟨tree.nodes.filter (fun entry => entry.1 != path) ++ [(path, node)]⟩

def ensureDirectory (tree : MemoryTree) (path : Path) : MemoryTree :=
  if (tree.nodes.lookup path).isSome then tree else tree.put path .directory

/-- Puts a node at a path and makes the directories above it that are missing. The empty path is
no directory. -/
def write (tree : MemoryTree) (path : Path) (node : MemoryNode) : MemoryTree :=
  let place := path.normalize
  let above := place.ancestors.filter (· != Path.empty)
  (above.foldl ensureDirectory tree).put place node

def remove (tree : MemoryTree) (path : Path) : MemoryTree :=
  let place := path.normalize
  ⟨tree.nodes.filter fun entry => !entry.1.startsWith place⟩

def ofList (places : List (Path × MemoryNode)) : MemoryTree :=
  places.foldl (fun tree (path, node) => tree.write path node) bare

/-- The entries of the directory at a normal path, sorted by name. Their paths are made from the
directory as it was asked for. -/
def children (tree : MemoryTree) (asked place : Path) : List DirEntry :=
  let found := tree.nodes.filterMap fun (path, node) =>
    if path.parent? = some place then
      path.fileName?.map fun name => ⟨asked.child name, name, node.kind⟩
    else none
  found.mergeSort fun left right => left.name ≤ right.name

/-- The tree as a file system, given how the entries of each directory are arranged. -/
def snapshot (tree : MemoryTree) (arrange : Path → List DirEntry → List DirEntry) : Snapshot where
  readDir path :=
    match tree.find? path with
    | some .directory => .ok (arrange path (tree.children path path.normalize))
    | some .unlistable => .error (.other "Permission denied (os error 13)")
    | some _ => .error .notDirectory
    | none => .error .notFound
  readText path :=
    match tree.find? path with
    | some (.text content) => .ok content
    | some (.unreadable fault) => .error fault
    | some .directory => .error .isDirectory
    | some .unlistable => .error .isDirectory
    | some .other => .error (.other "No such device or address (os error 6)")
    | none => .error .notFound
  isFile path := (tree.find? path).any fun node => node.kind == .file
  isDir path := (tree.find? path).any fun node => node.kind == .directory

end MemoryTree

end StyleLookup

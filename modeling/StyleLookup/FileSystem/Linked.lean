import StyleLookup.FileSystem.Basic

/-!
Directory trees with symbolic links, and the resolution of paths in them as an operating system
does it: step by step, following links, with `..` leading to the directory that really holds the
one reached. Unlike in a normal form worked out on the text alone, a step is only possible from a
directory that exists.
-/

set_option autoImplicit false

namespace StyleLookup

/-- What stands at a place: a file with its text or with bytes that are no text, a directory, or a
link with the path it leads to. -/
inductive LinkedNode where
  | file (text? : Option String)
  | directory
  | link (target : Path)
deriving DecidableEq, Repr

abbrev Place := List String

/-- A tree and the directory from which relative paths are read. The root directory needs no entry
of its own. -/
structure LinkedTree where
  nodes : List (Place × LinkedNode)
  workingDirectory : Place
deriving DecidableEq, Repr

namespace LinkedTree

def find? (tree : LinkedTree) (place : Place) : Option LinkedNode :=
  if place.isEmpty then some .directory else tree.nodes.lookup place

/-- Takes steps from a place, following at most so many links. A step of no characters, as a
trailing slash leaves it, stays at a directory like a dot. -/
def follow (tree : LinkedTree) (links : Nat) (place : Place) (steps : List String) :
    Except FileFault Place :=
  match steps with
  | [] => .ok place
  | step :: rest =>
      match tree.find? place with
      | none => .error .notFound
      | some .directory =>
          if step = "" ∨ step = "." then tree.follow links place rest
          else if step = ".." then tree.follow links place.dropLast rest
          else
            match tree.find? (place ++ [step]) with
            | none => .error .notFound
            | some (.link target) =>
                match links with
                | 0 => .error .tooManyLinks
                | remaining + 1 =>
                    tree.follow remaining (if target.isAbsolute then [] else place)
                      (target.pieces.map String.ofList ++ rest)
            | some _ => tree.follow links (place ++ [step]) rest
      | some _ => .error .notDirectory
termination_by (links, steps.length)

def linkLimit : Nat := 40

/-- The place that a path leads to. The empty path leads nowhere. -/
def resolve (tree : LinkedTree) (path : Path) : Except FileFault Place :=
  if path.text.isEmpty then .error .notFound
  else
    tree.follow linkLimit (if path.isAbsolute then [] else tree.workingDirectory)
      (path.pieces.map String.ofList)

def reach? (tree : LinkedTree) (path : Path) : Option LinkedNode :=
  match tree.resolve path with
  | .ok place => tree.find? place
  | .error _ => none

def pathOf (place : Place) : Path := Path.ofComponents (.root :: place.map .name)

def canonical (tree : LinkedTree) (path : Path) : Except FileFault Path :=
  (tree.resolve path).map pathOf

/-- What an entry looks like in a listing. A link that leads nowhere is neither file nor
directory. -/
def kindOf (tree : LinkedTree) (directory : Place) (name : String) : EntryKind :=
  match tree.follow linkLimit directory [name] with
  | .error _ => .other
  | .ok place =>
      match tree.find? place with
      | some (.file _) => .file
      | some .directory => .directory
      | _ => .other

/-- The entries of the directory at a place, sorted by name. Their paths are made from the
directory as it was asked for. -/
def children (tree : LinkedTree) (asked : Path) (place : Place) : List DirEntry :=
  let names := tree.nodes.filterMap fun (path, _) =>
    if path.dropLast = place then path.getLast? else none
  let entries : List DirEntry := names.map fun name =>
    ⟨asked.child name, name, tree.kindOf place name⟩
  entries.mergeSort fun left right => left.name ≤ right.name

def snapshot (tree : LinkedTree) : Snapshot where
  readDir path :=
    match tree.resolve path with
    | .error fault => .error fault
    | .ok place =>
        match tree.find? place with
        | some .directory => .ok (tree.children path place)
        | some _ => .error .notDirectory
        | none => .error .notFound
  readText path :=
    match tree.resolve path with
    | .error fault => .error fault
    | .ok place =>
        match tree.find? place with
        | some (.file (some text)) => .ok text
        | some (.file none) => .error .notText
        | some .directory => .error .isDirectory
        | _ => .error .notFound
  isFile path :=
    match tree.reach? path with
    | some (.file _) => true
    | _ => false
  isDir path :=
    match tree.reach? path with
    | some .directory => true
    | _ => false

def put (tree : LinkedTree) (place : Place) (node : LinkedNode) : LinkedTree :=
  { tree with nodes := tree.nodes.filter (fun entry => entry.1 != place) ++ [(place, node)] }

/-- The place that a name in a directory leads to, and the tree with a directory made there if
there is nothing. -/
def enter (tree : LinkedTree) (directory : Place) (name : String) : LinkedTree × Place :=
  match tree.follow linkLimit directory [name] with
  | .ok place => (tree, place)
  | .error _ => (tree.put (directory ++ [name]) .directory, directory ++ [name])

def enterAll (tree : LinkedTree) (directory : Place) : List String → LinkedTree × Place
  | [] => (tree, directory)
  | name :: rest =>
      let (made, place) := tree.enter directory name
      made.enterAll place rest

def stepsOn (path : Path) : List String :=
  path.components.filterMap fun
    | .name name => some name
    | .parent => some ".."
    | _ => none

/-- The place at which a file comes to stand that is written under a name in a directory: there, or
where a link of that name leads, even if nothing stands there yet. -/
def landing (tree : LinkedTree) (directory : Place) (name : String) : Nat → Place
  | 0 => directory ++ [name]
  | links + 1 =>
      match tree.find? (directory ++ [name]) with
      | some (.link target) =>
          let steps := target.pieces.map String.ofList
          let start := if target.isAbsolute then [] else directory
          match steps.getLast?, tree.follow linkLimit start steps.dropLast with
          | some last, .ok reached => tree.landing reached last links
          | _, _ => directory ++ [name]
      | _ => directory ++ [name]

/-- Writes a node at an absolute path and makes the directories above it that are missing. A
directory that is there already keeps its content. -/
def write (tree : LinkedTree) (path : Path) (node : LinkedNode) : LinkedTree :=
  let steps := stepsOn path
  match steps.getLast? with
  | none => tree
  | some name =>
      let (made, directory) := tree.enterAll [] steps.dropLast
      match node with
      | .directory => (made.enter directory name).1
      | .link _ => made.put (directory ++ [name]) node
      | .file _ =>
          match made.follow linkLimit directory [name] with
          | .ok place => made.put place node
          | .error _ => made.put (made.landing directory name linkLimit) node

/-- Takes away what stands at an absolute path and all below it. A link is taken away itself. -/
def remove (tree : LinkedTree) (path : Path) : LinkedTree :=
  let steps := stepsOn path
  match steps.getLast?, tree.follow linkLimit [] steps.dropLast with
  | some name, .ok directory =>
      { tree with nodes := tree.nodes.filter fun entry => !(directory ++ [name]).isPrefixOf entry.1 }
  | _, _ => tree

def bare : LinkedTree := ⟨[], []⟩

end LinkedTree

end StyleLookup

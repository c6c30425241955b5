import Mathlib.Data.List.Basic
import StyleLookup.FileSystem.Memory
import StyleLookup.Proofs.FileSystem.Listing
import StyleLookup.Proofs.Path.Containment

/-!
File systems that work paths out on their text. What a path is does not depend on its spelling, as
long as the normal form is the same. Trees that are held in memory are such file systems, however
they came about.
-/

set_option autoImplicit false

namespace StyleLookup

/-- A file system without links: a path and its normal form are the same file or directory, and an
entry stands under its name in the directory that lists it. -/
structure Snapshot.Lexical (fs : Snapshot) : Prop where
  isFile_normalize : ∀ path : Path, fs.isFile path.normalize = fs.isFile path
  isDir_normalize : ∀ path : Path, fs.isDir path.normalize = fs.isDir path
  path_eq : ∀ {directory : Path}, ∀ entry ∈ fs.listing directory,
    entry.path = directory.child entry.name
  spelled_name : ∀ {directory : Path}, ∀ entry ∈ fs.listing directory,
    Path.Component.Spelled (.name entry.name)
  isFile_path : ∀ {directory : Path}, ∀ entry ∈ fs.listing directory,
    entry.kind = .file → fs.isFile entry.path = true
  not_isDir : ∀ {path : Path}, fs.isFile path = true → fs.isDir path ≠ true

namespace MemoryTree

/-! ## Places -/

/-- Every place stands under its normal path, and none stands there twice. -/
structure Tidy (tree : MemoryTree) : Prop where
  normal : ∀ place ∈ tree.nodes, place.1.normalize = place.1
  nodup : (tree.nodes.map Prod.fst).Nodup

variable {tree : MemoryTree}

theorem tidy_bare : bare.Tidy := by
  constructor <;> decide

theorem Tidy.put (tidy : tree.Tidy) {path : Path} (normal : path.normalize = path)
    (node : MemoryNode) : (tree.put path node).Tidy where
  normal := by
    intro place member
    rcases List.mem_append.mp member with kept | added
    · exact tidy.normal place (List.mem_of_mem_filter kept)
    · cases List.mem_singleton.mp added
      exact normal
  nodup := by
    rw [MemoryTree.put, List.map_append, List.nodup_append]
    refine ⟨tidy.nodup.sublist (List.filter_sublist.map Prod.fst), List.nodup_singleton path, ?_⟩
    rintro kept member _ added rfl
    cases List.mem_singleton.mp added
    obtain ⟨place, inside, same⟩ := List.mem_map.mp member
    have other := (List.mem_filter.mp inside).2
    exact absurd same (by simpa using other)

theorem Tidy.ensureDirectory (tidy : tree.Tidy) {path : Path} (normal : path.normalize = path) :
    (tree.ensureDirectory path).Tidy := by
  unfold MemoryTree.ensureDirectory
  split
  · exact tidy
  · exact tidy.put normal .directory

theorem Tidy.write (tidy : tree.Tidy) (path : Path) (node : MemoryNode) :
    (tree.write path node).Tidy := by
  have normal := Path.normalize_normalize path
  apply Tidy.put _ normal
  apply List.foldlRecOn _ _ tidy
  intro grown grownTidy directory member
  exact grownTidy.ensureDirectory
    (Path.normalize_of_mem_ancestors normal (List.mem_of_mem_filter member))

theorem Tidy.remove (tidy : tree.Tidy) (path : Path) : (tree.remove path).Tidy where
  normal place member := tidy.normal place (List.mem_of_mem_filter member)
  nodup := tidy.nodup.sublist (List.filter_sublist.map Prod.fst)

theorem tidy_ofList (places : List (Path × MemoryNode)) : (ofList places).Tidy :=
  List.foldlRecOn _ _ tidy_bare fun _ tidy place _ => tidy.write place.1 place.2

/-! ## Lookups -/

theorem Tidy.lookup_eq_some (tidy : tree.Tidy) {path : Path} {node : MemoryNode}
    (member : (path, node) ∈ tree.nodes) : tree.nodes.lookup path = some node := by
  obtain ⟨before, after, whole⟩ := List.append_of_mem member
  rw [List.lookup_eq_some_iff]
  refine ⟨before, after, whole, ?_⟩
  intro place inside
  have distinct := tidy.nodup
  rw [whole, List.map_append, List.map_cons, List.nodup_append] at distinct
  have apart := distinct.2.2 place.1 (List.mem_map_of_mem inside) path List.mem_cons_self
  rw [bne_iff_ne]
  exact apart.symm

theorem mem_children_iff {asked place : Path} {entry : DirEntry} :
    entry ∈ tree.children asked place ↔
      ∃ path node name, (path, node) ∈ tree.nodes ∧ path.parent? = some place ∧
        path.fileName? = some name ∧ entry = ⟨asked.child name, name, node.kind⟩ := by
  rw [children, List.mem_mergeSort, List.mem_filterMap]
  constructor
  · rintro ⟨⟨path, node⟩, member, kept⟩
    obtain ⟨above, named⟩ := Option.ite_none_right_eq_some.mp kept
    obtain ⟨name, last, same⟩ := Option.map_eq_some_iff.mp named
    exact ⟨path, node, name, member, above, last, same.symm⟩
  · rintro ⟨path, node, name, member, above, last, rfl⟩
    exact ⟨(path, node), member, by simp [above, last]⟩

/-- The entry that a place gives leads back to the place. -/
theorem normalize_child_eq {asked path : Path} {name : String} (normal : path.normalize = path)
    (above : path.parent? = some asked.normalize) (last : path.fileName? = some name) :
    (asked.child name).normalize = path := by
  have spelled := Path.spelled_of_fileName? last
  have read := Path.components_of_parent?_of_fileName? above last
  have reached : path.reached = .name name :: asked.reached := by
    rw [Path.reached, read, List.foldl_append, ← Path.reached, Path.reached_normalize]
    rfl
  rw [← normal, Path.normalize_eq_iff, Path.reached_child spelled, reached]

theorem Tidy.find?_child (tidy : tree.Tidy) {asked path : Path} {node : MemoryNode} {name : String}
    (member : (path, node) ∈ tree.nodes) (above : path.parent? = some asked.normalize)
    (last : path.fileName? = some name) : tree.find? (asked.child name) = some node := by
  rw [find?, normalize_child_eq (tidy.normal _ member) above last]
  exact tidy.lookup_eq_some member

theorem mem_listing_snapshot {arrange : Path → List DirEntry → List DirEntry}
    (arranged : ∀ path found, arrange path found ⊆ found) {directory : Path} {entry : DirEntry}
    (member : entry ∈ (tree.snapshot arrange).listing directory) :
    entry ∈ tree.children directory directory.normalize := by
  obtain ⟨found, listed, inside⟩ := Snapshot.mem_listing_iff.mp member
  simp only [snapshot] at listed
  split at listed
  · cases listed
    exact arranged _ _ inside
  all_goals cases listed

/-- The entries of a directory in the order in which they were put into the tree. -/
def foundIn (tree : MemoryTree) (asked place : Path) : List DirEntry :=
  tree.nodes.filterMap fun (path, node) =>
    if path.parent? = some place then
      path.fileName?.map fun name => ⟨asked.child name, name, node.kind⟩
    else none

theorem children_of_pairwise {asked place : Path}
    (sorted : (tree.foundIn asked place).Pairwise fun left right => left.name ≤ right.name) :
    tree.children asked place = tree.foundIn asked place :=
  List.mergeSort_of_pairwise (sorted.imp decide_eq_true)

theorem listing_snapshot_of_directory {arrange : Path → List DirEntry → List DirEntry}
    {directory : Path} (found : tree.find? directory = some .directory) :
    (tree.snapshot arrange).listing directory =
      arrange directory (tree.children directory directory.normalize) := by
  simp only [Snapshot.listing, snapshot, found]

theorem any_kind_iff {node? : Option MemoryNode} {kind : EntryKind} :
    (node?.any fun node => node.kind == kind) = true ↔
      ∃ node, node? = some node ∧ node.kind = kind := by
  cases node? <;> simp

/-- Trees that are held in memory work paths out on their text, however listings are arranged. -/
theorem Tidy.lexical_snapshot (tidy : tree.Tidy) {arrange : Path → List DirEntry → List DirEntry}
    (arranged : ∀ path found, arrange path found ⊆ found) : (tree.snapshot arrange).Lexical where
  isFile_normalize path := by simp only [snapshot, find?, Path.normalize_normalize]
  isDir_normalize path := by simp only [snapshot, find?, Path.normalize_normalize]
  path_eq := by
    intro directory entry member
    obtain ⟨path, node, name, -, -, -, rfl⟩ :=
      mem_children_iff.mp (mem_listing_snapshot arranged member)
    simp only
  spelled_name := by
    intro directory entry member
    obtain ⟨path, node, name, -, -, last, rfl⟩ :=
      mem_children_iff.mp (mem_listing_snapshot arranged member)
    exact Path.spelled_of_fileName? last
  isFile_path := by
    intro directory entry member kind
    obtain ⟨path, node, name, held, above, last, rfl⟩ :=
      mem_children_iff.mp (mem_listing_snapshot arranged member)
    exact any_kind_iff.mpr ⟨node, tidy.find?_child held above last, kind⟩
  not_isDir := by
    intro path file directory
    obtain ⟨node, found, kind⟩ := any_kind_iff.mp file
    obtain ⟨same, foundToo, otherKind⟩ := any_kind_iff.mp directory
    cases found.symm.trans foundToo
    cases kind.symm.trans otherKind

end MemoryTree

end StyleLookup

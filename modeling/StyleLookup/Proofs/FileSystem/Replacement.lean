import Mathlib.Data.List.Perm.Basic
import StyleLookup.Proofs.FileSystem.Lexical

/-!
A place in a tree that is replaced by another one of the same kind. Listings tell names and kinds
only, and they are sorted, so nothing looks different but the listing or the content of the place
itself.
-/

set_option autoImplicit false

namespace StyleLookup

/-- Two file systems that differ at most in the listing or the content of one place. -/
structure Snapshot.SameBut (place : Path) (fs other : Snapshot) : Prop where
  readDir : ∀ path : Path, path.normalize ≠ place → other.readDir path = fs.readDir path
  readText : ∀ path : Path, path.normalize ≠ place → other.readText path = fs.readText path
  isFile : ∀ path : Path, other.isFile path = fs.isFile path
  isDir : ∀ path : Path, other.isDir path = fs.isDir path

namespace MemoryTree

variable {tree : MemoryTree} {path asked place : Path} {node old : MemoryNode}

theorem Tidy.find?_eq_some_iff (tidy : tree.Tidy) :
    tree.find? asked = some node ↔ (asked.normalize, node) ∈ tree.nodes := by
  constructor
  · intro found
    obtain ⟨before, after, whole, -⟩ := List.lookup_eq_some_iff.mp found
    rw [whole]
    exact List.mem_append_right before List.mem_cons_self
  · exact tidy.lookup_eq_some

theorem Tidy.normalize_of_mem (tidy : tree.Tidy) (held : (path, node) ∈ tree.nodes) :
    path.normalize = path := tidy.normal (path, node) held

theorem Tidy.node_unique (tidy : tree.Tidy) (held : (path, node) ∈ tree.nodes)
    (heldToo : (path, old) ∈ tree.nodes) : node = old := by
  have found := tidy.lookup_eq_some held
  rw [tidy.lookup_eq_some heldToo] at found
  exact (Option.some.inj found).symm

theorem mem_put_iff {entry : Path × MemoryNode} :
    entry ∈ (tree.put path node).nodes ↔
      (entry ∈ tree.nodes ∧ entry.1 ≠ path) ∨ entry = (path, node) := by
  simp [put]

theorem Tidy.find?_put (tidy : tree.Tidy) (normal : path.normalize = path) :
    (tree.put path node).find? asked =
      if asked.normalize = path then some node else tree.find? asked := by
  apply Option.ext
  intro found
  rw [(tidy.put normal node).find?_eq_some_iff, mem_put_iff]
  split
  · rename_i same
    simp [same, eq_comm]
  · rename_i different
    simp [different, tidy.find?_eq_some_iff]

/-! ## Listings -/

/-- Entries of one directory are told apart by their names. -/
theorem Tidy.eq_of_name_eq (tidy : tree.Tidy) {left right : DirEntry}
    (leftMember : left ∈ tree.children asked place)
    (rightMember : right ∈ tree.children asked place) (same : left.name = right.name) :
    left = right := by
  obtain ⟨leftPath, leftNode, name, leftHeld, leftAbove, leftLast, rfl⟩ :=
    mem_children_iff.mp leftMember
  obtain ⟨rightPath, rightNode, other, rightHeld, rightAbove, rightLast, rfl⟩ :=
    mem_children_iff.mp rightMember
  obtain rfl : name = other := same
  have components : leftPath.components = rightPath.components := by
    rw [Path.components_of_parent?_of_fileName? leftAbove leftLast,
      Path.components_of_parent?_of_fileName? rightAbove rightLast]
  obtain rfl : leftPath = rightPath := by
    rw [← tidy.normalize_of_mem leftHeld, ← tidy.normalize_of_mem rightHeld,
      Path.normalize_eq_iff, Path.reached, components, Path.reached]
  rw [tidy.node_unique leftHeld rightHeld]

/-- A listing depends on what is in a directory only, not on when it was put there. -/
theorem Tidy.children_eq_of_perm {other : MemoryTree} (tidy : tree.Tidy)
    (same : (tree.children asked place).Perm (other.children asked place)) :
    other.children asked place = tree.children asked place := by
  have sorted (listed : MemoryTree) :
      (listed.children asked place).Pairwise fun left right => left.name ≤ right.name := by
    refine (List.pairwise_mergeSort ?_ ?_ _).imp of_decide_eq_true
    · intro first second third
      simpa using String.le_trans
    · intro first second
      simpa using String.le_total first.name second.name
  refine List.Perm.eq_of_pairwise ?_ (sorted other) (sorted tree) same.symm
  intro left right leftMember rightMember before after
  exact tidy.eq_of_name_eq (same.mem_iff.mpr leftMember) rightMember
    (String.le_antisymm before after)

theorem Tidy.perm_cons_filter (tidy : tree.Tidy) (held : (path, old) ∈ tree.nodes) :
    tree.nodes.Perm ((path, old) :: tree.nodes.filter fun entry => entry.1 != path) := by
  have distinct : tree.nodes.Nodup := tidy.nodup.of_map
  have fresh : (path, old) ∉ tree.nodes.filter fun entry => entry.1 != path := by simp
  rw [List.perm_ext_iff_of_nodup distinct (List.nodup_cons.mpr ⟨fresh, distinct.filter _⟩)]
  intro entry
  obtain ⟨other, there⟩ := entry
  rw [List.mem_cons, List.mem_filter, bne_iff_ne]
  constructor
  · intro member
    by_cases same : other = path
    · subst same
      exact .inl (by rw [tidy.node_unique member held])
    · exact .inr ⟨member, same⟩
  · intro member
    cases member with
    | inl same => exact same ▸ held
    | inr kept => exact kept.1

theorem Tidy.children_put (tidy : tree.Tidy) (held : (path, old) ∈ tree.nodes)
    (kind : node.kind = old.kind) :
    (tree.put path node).children asked place = tree.children asked place := by
  apply tidy.children_eq_of_perm
  refine (List.mergeSort_perm _ _).trans (.trans ?_ (List.mergeSort_perm _ _).symm)
  -- With the place in front of the others, both lists of entries are the same.
  refine ((tidy.perm_cons_filter held).filterMap _).trans ?_
  refine .trans ?_ (.filterMap _ List.perm_append_comm)
  simp only [List.singleton_append, List.filterMap_cons, kind]
  exact .refl _

/-! ## Questions -/

/-- A place that is replaced by one of its kind is the only place where a difference shows. -/
theorem Tidy.sameBut_put (tidy : tree.Tidy) (held : (path, old) ∈ tree.nodes)
    (kind : node.kind = old.kind) (arrange : Path → List DirEntry → List DirEntry) :
    (tree.snapshot arrange).SameBut path ((tree.put path node).snapshot arrange) := by
  have normal := tidy.normalize_of_mem held
  have elsewhere (asked : Path) (apart : asked.normalize ≠ path) :
      (tree.put path node).find? asked = tree.find? asked := by
    rw [tidy.find?_put normal, if_neg apart]
  have kinds (asked : Path) (sort : EntryKind) :
      ((tree.put path node).find? asked).any (fun node => node.kind == sort) =
        (tree.find? asked).any fun node => node.kind == sort := by
    by_cases same : asked.normalize = path
    · rw [tidy.find?_put normal, if_pos same, tidy.find?_eq_some_iff.mpr (same ▸ held),
        Option.any_some, Option.any_some, kind]
    · rw [elsewhere asked same]
  constructor
  · intro asked apart
    simp only [snapshot, elsewhere asked apart, tidy.children_put held kind]
  · intro asked apart
    simp only [snapshot, elsewhere asked apart]
  · exact fun asked => kinds asked .file
  · exact fun asked => kinds asked .directory

end MemoryTree

end StyleLookup

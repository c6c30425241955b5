import Mathlib.Data.List.Induction
import StyleLookup.Proofs.Discovery.Modes
import StyleLookup.Proofs.FileSystem.Replacement
import StyleLookup.Proofs.Usage.Place

/-!
A directory that can no longer be listed. A walk through the workspace then misses what lies below
this directory and nothing else, since whatever it finds there it finds through this listing.
-/

set_option autoImplicit false

namespace StyleLookup

/-- Whether a path leads to a place or below it. -/
def Path.liesUnder (path place : Path) : Bool := path.normalize.startsWith place.normalize

namespace Path

theorem liesUnder_iff {path place : Path} : path.liesUnder place = true ↔ path.Within place :=
  startsWith_normalize_iff

theorem within_of_normalize_eq {path place : Path} (here : path.normalize = place) :
    path.Within place := by
  have same : place.reached = path.reached := by rw [← here, reached_normalize]
  exact ⟨[], same⟩

theorem liesUnder_normalize (path place : Path) :
    path.normalize.liesUnder place = path.liesUnder place := by
  rw [liesUnder, normalize_normalize, liesUnder]

end Path

/-- A file system after it has lost the listing of one of its directories. -/
structure Snapshot.LosesListing (place : Path) (fs other : Snapshot) : Prop extends
    Snapshot.SameBut place fs other where
  normal : place.normalize = place
  directory : fs.isDir place = true
  unlisted : ∀ path : Path, path.normalize = place → other.listing path = []

theorem Snapshot.LosesListing.listing {place : Path} {fs other : Snapshot}
    (loses : fs.LosesListing place other) {path : Path} (apart : path.normalize ≠ place) :
    other.listing path = fs.listing path := by
  rw [Snapshot.listing, loses.readDir path apart, Snapshot.listing]

namespace CandidateList

/-- Paths that are left out beforehand are missing in the end, if they are told by their normal
forms. -/
theorem paths_ofList_filter {keep : Path → Bool}
    (spelled : ∀ path : Path, keep path.normalize = keep path) (paths : List Path) :
    (ofList (paths.filter keep)).paths = (ofList paths).paths.filter keep := by
  induction paths using List.reverseRecOn with
  | nil => rfl
  | append_singleton paths last ih =>
      rw [List.filter_append, paths_ofList_append_singleton]
      cases kept : keep last with
      | true =>
          rw [List.filter_singleton, kept, cond_true, paths_ofList_append_singleton, ih]
          by_cases held : last.normalize ∈ (ofList paths).paths <;> simp [held, spelled, kept]
      | false =>
          rw [List.filter_singleton, kept, cond_false, List.append_nil, ih]
          by_cases held : last.normalize ∈ (ofList paths).paths <;> simp [held, spelled, kept]

end CandidateList

namespace Discovery

variable {fs other : Snapshot} {scoping : Scoping} {wanted : String → Bool} {place : Path}

theorem run_filesBelow_of_listing_eq_nil {directory : Path} (none : fs.listing directory = [])
    (levels : Nat) : (filesBelow fs scoping wanted levels directory).run = [] := by
  cases levels <;> rw [filesBelow, visitDirectory_snapshot_eq_flatMap, none] <;> rfl

theorem run_visitEntry_filter {enter otherEnter : Path → Id (List Path)} {entry : DirEntry}
    {keep : Path → Bool} (file : entry.kind = .file → keep entry.path = true)
    (inner : (otherEnter entry.path).run = (enter entry.path).run.filter keep) :
    (visitEntry scoping wanted otherEnter entry).run =
      (visitEntry scoping wanted enter entry).run.filter keep := by
  unfold visitEntry
  cases scoping.isExcluded entry.name with
  | true => rfl
  | false =>
      cases kind : entry.kind with
      | file => cases wanted entry.name <;> simp [file kind]
      | directory =>
          cases isHidden entry.name with
          | true => rfl
          | false => exact inner
      | other => rfl

/-- An entry outside of a place leads to the place itself at most, and then it is a directory. -/
theorem reached_of_mem_listing (lexical : fs.Lexical) {directory : Path}
    (outside : ¬ directory.Within place) {entry : DirEntry} (member : entry ∈ fs.listing directory)
    (under : entry.path.Within place) : entry.path.reached = place.reached := by
  rw [lexical.path_eq entry member] at under ⊢
  rw [Path.Within, Path.reached_child (lexical.spelled_name entry member)] at under
  rw [Path.reached_child (lexical.spelled_name entry member)]
  exact (List.suffix_cons_iff.mp under).resolve_right outside |>.symm

/-- What a walk finds from the place on lies under it, and without the listing it finds nothing. -/
theorem run_filesBelow_at (lexical : fs.Lexical) (loses : fs.LosesListing place other)
    {directory : Path} (here : directory.normalize = place) (levels : Nat) :
    (filesBelow other scoping wanted levels directory).run =
      (filesBelow fs scoping wanted levels directory).run.filter (! ·.liesUnder place) := by
  rw [run_filesBelow_of_listing_eq_nil (loses.unlisted directory here), eq_comm,
    List.filter_eq_nil_iff]
  intro path member
  have start : directory.Within place := Path.within_of_normalize_eq here
  have under := (inside_of_mem_filesBelow lexical levels start member).2
  simp [Path.liesUnder_iff.mpr under]

/-- Outside of the place listings are as they were, and no file in them is the place itself. -/
theorem run_visitDirectory_of_losesListing (lexical : fs.Lexical)
    (loses : fs.LosesListing place other) {directory : Path} (outside : ¬ directory.Within place)
    {enter otherEnter : Path → Id (List Path)}
    (inner : ∀ entry ∈ fs.listing directory,
      (otherEnter entry.path).run = (enter entry.path).run.filter (! ·.liesUnder place)) :
    (visitDirectory other scoping wanted otherEnter directory).run =
      (visitDirectory fs scoping wanted enter directory).run.filter (! ·.liesUnder place) := by
  have apart : directory.normalize ≠ place := by
    intro here
    exact outside (Path.within_of_normalize_eq here)
  rw [visitDirectory_snapshot_eq_flatMap, visitDirectory_snapshot_eq_flatMap,
    loses.listing apart, Id.run, Id.run, List.filter_flatMap]
  apply List.flatMap_congr
  intro entry member
  refine run_visitEntry_filter ?_ (inner entry member)
  intro kind
  rw [Bool.not_eq_true', ← Bool.not_eq_true, Path.liesUnder_iff]
  intro under
  have here := Path.normalize_eq_iff.mpr (reached_of_mem_listing lexical outside member under)
  apply lexical.not_isDir (lexical.isFile_path entry member kind)
  rw [← lexical.isDir_normalize, here, lexical.isDir_normalize, loses.directory]

/-- A walk that starts at the place or outside of it still finds what it found before and what does
not lie under the place. -/
theorem run_filesBelow_of_losesListing (lexical : fs.Lexical) (loses : fs.LosesListing place other)
    (levels : Nat) {directory : Path}
    (start : directory.Within place → directory.reached = place.reached) :
    (filesBelow other scoping wanted levels directory).run =
      (filesBelow fs scoping wanted levels directory).run.filter (! ·.liesUnder place) := by
  -- Each level down leads to the place or outside of it again.
  induction levels generalizing directory with
  | zero =>
      by_cases within : directory.Within place
      · have here := (Path.normalize_eq_iff.mpr (start within)).trans loses.normal
        exact run_filesBelow_at lexical loses here 0
      · exact run_visitDirectory_of_losesListing lexical loses within fun _ _ => rfl
  | succ levels ih =>
      by_cases within : directory.Within place
      · have here := (Path.normalize_eq_iff.mpr (start within)).trans loses.normal
        exact run_filesBelow_at lexical loses here (levels + 1)
      · exact run_visitDirectory_of_losesListing lexical loses within fun entry member =>
          ih (reached_of_mem_listing lexical within member)

theorem reached_eq_of_within {path base : Path} (within : path.Within base)
    (back : base.Within path) : path.reached = base.reached :=
  List.IsSuffix.eq_of_length_le back within.length_le

/-! ## Candidates and usages -/

variable {root source : Path}

theorem run_walk_of_losesListing (lexical : fs.Lexical) (loses : fs.LosesListing place other)
    (below : place.Within root) :
    (walk other scoping wanted root).run =
      (walk fs scoping wanted root).run.filter (! ·.liesUnder place) :=
  run_filesBelow_of_losesListing lexical loses scoping.scanDepth fun within =>
    reached_eq_of_within within below

theorem run_walk_of_unlisted_root (loses : fs.LosesListing place other)
    (top : root.normalize = place) : (walk other scoping wanted root).run = [] :=
  run_filesBelow_of_listing_eq_nil (loses.unlisted root top) scoping.scanDepth

theorem candidatesIn_global_of_losesListing (lexical : fs.Lexical)
    (loses : fs.LosesListing place other) (below : place.Within root) :
    candidatesIn .global other scoping root source =
      (candidatesIn .global fs scoping root source).filter (! ·.liesUnder place) := by
  have same := loses.isDir root
  cases directory : (fs.isDir root).run with
  | false =>
      have otherwise : (other.isDir root).run = false := same.trans directory
      rw [candidatesIn_of_not_isDir directory, candidatesIn_of_not_isDir otherwise, List.filter_nil]
  | true =>
      have otherwise : (other.isDir root).run = true := same.trans directory
      have walked : (globalFiles other scoping root).run =
          (globalFiles fs scoping root).run.filter (! ·.liesUnder place) :=
        run_walk_of_losesListing lexical loses below
      rw [candidatesIn_of_isDir directory, candidatesIn_of_isDir otherwise]
      simp only [walked]
      apply CandidateList.paths_ofList_filter
      intro path
      rw [Path.liesUnder_normalize]

theorem candidatesIn_global_of_unlisted_root (loses : fs.LosesListing place other)
    (top : root.normalize = place) : candidatesIn .global other scoping root source = [] := by
  cases directory : (other.isDir root).run with
  | false => exact candidatesIn_of_not_isDir directory .global
  | true =>
      have none : (globalFiles other scoping root).run = [] := run_walk_of_unlisted_root loses top
      rw [candidatesIn_of_isDir directory]
      simp only [none]
      rfl

end Discovery

namespace Usage

variable {fs other : Snapshot} {scoping : Scoping} {extensions : List String} {token : String}
  {place root : Path}

theorem path_of_mem_run_inFile {name : List Char} {path : Path} {usage : Usage}
    (member : usage ∈ (inFile fs name path).run) : usage.path = path := by
  obtain ⟨content, -, found⟩ := mem_run_inFile_iff.mp member
  obtain ⟨kind, offset, -, rfl⟩ := mem_scan_iff.mp found
  rfl

theorem run_inFile_filter (keep : Path → Bool) (name : List Char) (path : Path) :
    ((inFile fs name path).run.filter fun usage => keep usage.path) =
      if keep path then (inFile fs name path).run else [] := by
  cases kept : keep path with
  | true =>
      rw [if_pos rfl, List.filter_eq_self]
      intro usage member
      rw [path_of_mem_run_inFile member, kept]
  | false =>
      rw [if_neg Bool.false_ne_true, List.filter_eq_nil_iff]
      intro usage member
      rw [path_of_mem_run_inFile member, kept]
      exact Bool.false_ne_true

/-- To leave out files is to leave out what is found in them. -/
theorem flatMap_inFile_filter (keep : Path → Bool) (name : List Char) (paths : List Path) :
    (paths.filter keep).flatMap (fun path => (inFile fs name path).run) =
      (paths.flatMap fun path => (inFile fs name path).run).filter fun usage =>
        keep usage.path := by
  simp only [List.filter_flatMap, run_inFile_filter]
  induction paths with
  | nil => rfl
  | cons path rest ih => cases kept : keep path <;> simp [kept, ih]

theorem run_inFile_of_losesListing (loses : fs.LosesListing place other) {path : Path}
    (apart : path.normalize ≠ place) (name : List Char) :
    (inFile other name path).run = (inFile fs name path).run := by
  simp only [inFile, Id.run_bind, loses.readText path apart]

theorem run_find_of_losesListing (lexical : fs.Lexical) (loses : fs.LosesListing place other)
    (below : place.Within root) :
    (find other scoping extensions token root).run =
      (find fs scoping extensions token root).run.filter (! ·.path.liesUnder place) := by
  by_cases named : searchedName token = []
  · simp [find, named]
  · rw [run_find_of_searchedName_ne_nil named, run_find_of_searchedName_ne_nil named,
      Discovery.run_walk_of_losesListing lexical loses below,
      ← flatMap_inFile_filter (! ·.liesUnder place)]
    apply List.flatMap_congr
    intro path member
    apply run_inFile_of_losesListing loses
    intro here
    have kept := (List.mem_filter.mp member).2
    have under : path.Within place := Path.within_of_normalize_eq here
    simp [Path.liesUnder_iff.mpr under] at kept

theorem run_find_of_unlisted_root (loses : fs.LosesListing place other)
    (top : root.normalize = place) : (find other scoping extensions token root).run = [] := by
  by_cases named : searchedName token = []
  · simp [find, named]
  · rw [run_find_of_searchedName_ne_nil named, Discovery.run_walk_of_unlisted_root loses top,
      List.flatMap_nil]

end Usage

/-! ## Trees in memory -/

namespace MemoryTree

variable {tree : MemoryTree} {arrange : Path → List DirEntry → List DirEntry} {directory : Path}
  {node : MemoryNode}

theorem Tidy.losesListing_put (tidy : tree.Tidy) (held : (directory, node) ∈ tree.nodes)
    (kind : node.kind = .directory) :
    (tree.snapshot arrange).LosesListing directory
      ((tree.put directory .unlistable).snapshot arrange) := by
  have normal := tidy.normalize_of_mem held
  have stays : MemoryNode.unlistable.kind = node.kind := kind.symm
  refine ⟨tidy.sameBut_put held stays arrange, normal, ?_, ?_⟩
  · have found : tree.find? directory = some node := tidy.find?_eq_some_iff.mpr (normal.symm ▸ held)
    exact any_kind_iff.mpr ⟨node, found, kind⟩
  · intro path here
    simp only [Snapshot.listing, snapshot, tidy.find?_put normal, here, if_true]

end MemoryTree

/-- In a tree with a directory that can no longer be listed, the global mode and the search for
usages find what they found before, less what lies under the directory. The order stays as it was.
Nothing is left if the directory is the root of the workspace. -/
theorem unlistable_directory_costs_what_lies_under {tree : MemoryTree} (tidy : tree.Tidy)
    {arrange : Path → List DirEntry → List DirEntry}
    (arranged : ∀ path found, arrange path found ⊆ found) {directory root : Path}
    {node : MemoryNode} (held : (directory, node) ∈ tree.nodes) (kind : node.kind = .directory)
    (below : directory.liesUnder root = true) (scoping : Scoping) (source : Path)
    (extensions : List String) (token : String) :
    let before := tree.snapshot arrange
    let after := (tree.put directory .unlistable).snapshot arrange
    Discovery.candidatesIn .global after scoping root source =
        (Discovery.candidatesIn .global before scoping root source).filter
          (! ·.liesUnder directory) ∧
      (Usage.find after scoping extensions token root).run =
        (Usage.find before scoping extensions token root).run.filter
          (! ·.path.liesUnder directory) ∧
      (directory = root.normalize →
        Discovery.candidatesIn .global after scoping root source = [] ∧
          (Usage.find after scoping extensions token root).run = []) := by
  intro before after
  have lexical : before.Lexical := tidy.lexical_snapshot arranged
  have loses : before.LosesListing directory after := tidy.losesListing_put held kind
  have within := Path.liesUnder_iff.mp below
  refine ⟨Discovery.candidatesIn_global_of_losesListing lexical loses within,
    Usage.run_find_of_losesListing lexical loses within, ?_⟩
  intro top
  exact ⟨Discovery.candidatesIn_global_of_unlisted_root loses top.symm,
    Usage.run_find_of_unlisted_root loses top.symm⟩

/-- A file and a directory beside each other. -/
def twoParts : MemoryTree :=
  .ofList [(⟨"/w/a.css"⟩, .text "id='x'"), (⟨"/w/b/c.css"⟩, .text "id='x'")]

/-- The directory is listed before the file. -/
def twoPartsReversed : Snapshot := twoParts.snapshot fun _ found => found.reverse

theorem run_walk_twoPartsReversed {wanted : String → Bool} (first : wanted "a.css" = true)
    (second : wanted "c.css" = true) :
    (Discovery.walk twoPartsReversed .standard wanted ⟨"/w"⟩).run =
      [⟨"/w/b/c.css"⟩, ⟨"/w/a.css"⟩] := by
  have top : twoPartsReversed.listing ⟨"/w"⟩ =
      [⟨⟨"/w/b"⟩, "b", .directory⟩, ⟨⟨"/w/a.css"⟩, "a.css", .file⟩] := by
    have held : twoParts.find? ⟨"/w"⟩ = some .directory := by decide +kernel
    rw [twoPartsReversed, MemoryTree.listing_snapshot_of_directory held,
      MemoryTree.children_of_pairwise (by decide +kernel)]
    decide +kernel
  have inner : twoPartsReversed.listing ⟨"/w/b"⟩ = [⟨⟨"/w/b/c.css"⟩, "c.css", .file⟩] := by
    decide +kernel
  have shown : ∀ name ∈ ["a.css", "b", "c.css"], Scoping.standard.isExcluded name = false ∧
      Discovery.isHidden name = false := by decide +kernel
  have depth : Scoping.standard.scanDepth = 10 := rfl
  simp only [List.forall_mem_cons] at shown
  simp only [Discovery.walk, depth, Discovery.filesBelow,
    Discovery.visitDirectory_snapshot_eq_flatMap, top, inner, List.flatMap_cons,
    Discovery.visitEntry, shown, first, second]
  rfl

/-- The file that is visited after the directory is still found. -/
theorem directory_unlistable_beside_file :
    let before := twoPartsReversed
    let after := (twoParts.put ⟨"/w/b"⟩ .unlistable).snapshot fun _ found => found.reverse
    (⟨"/w/b"⟩, .directory) ∈ twoParts.nodes ∧ Path.liesUnder ⟨"/w/b"⟩ ⟨"/w"⟩ = true ∧
      Discovery.candidatesIn .global before .standard ⟨"/w"⟩ ⟨"/w/i.html"⟩ =
        [⟨"/w/b/c.css"⟩, ⟨"/w/a.css"⟩] ∧
      Discovery.candidatesIn .global after .standard ⟨"/w"⟩ ⟨"/w/i.html"⟩ = [⟨"/w/a.css"⟩] ∧
      (Usage.find before .standard ["css"] "#x" ⟨"/w"⟩).run =
        [⟨⟨"/w/b/c.css"⟩, 0, 4, .id⟩, ⟨⟨"/w/a.css"⟩, 0, 4, .id⟩] ∧
      (Usage.find after .standard ["css"] "#x" ⟨"/w"⟩).run = [⟨⟨"/w/a.css"⟩, 0, 4, .id⟩] := by
  intro before after
  have held : (⟨"/w/b"⟩, .directory) ∈ twoParts.nodes := by decide +kernel
  have below : Path.liesUnder ⟨"/w/b"⟩ ⟨"/w"⟩ = true := by decide +kernel
  have arranged (path : Path) (found : List DirEntry) : found.reverse ⊆ found :=
    List.reverse_subset.mpr (List.Subset.refl found)
  have candidates : Discovery.candidatesIn .global before .standard ⟨"/w"⟩ ⟨"/w/i.html"⟩ =
      [⟨"/w/b/c.css"⟩, ⟨"/w/a.css"⟩] := by
    have walked : (Discovery.globalFiles before .standard ⟨"/w"⟩).run =
        [⟨"/w/b/c.css"⟩, ⟨"/w/a.css"⟩] :=
      run_walk_twoPartsReversed (by decide +kernel) (by decide +kernel)
    rw [Discovery.candidatesIn_of_isDir (by decide +kernel)]
    simp only [walked]
    decide +kernel
  have usages : (Usage.find before .standard ["css"] "#x" ⟨"/w"⟩).run =
      [⟨⟨"/w/b/c.css"⟩, 0, 4, .id⟩, ⟨⟨"/w/a.css"⟩, 0, 4, .id⟩] := by
    rw [Usage.run_find_of_searchedName_ne_nil (by decide +kernel),
      run_walk_twoPartsReversed (by decide +kernel) (by decide +kernel)]
    decide +kernel
  have tidy : twoParts.Tidy := MemoryTree.tidy_ofList _
  obtain ⟨candidatesLeft, usagesLeft, -⟩ := unlistable_directory_costs_what_lies_under tidy
    arranged held rfl below .standard ⟨"/w/i.html"⟩ ["css"] "#x"
  refine ⟨held, below, candidates, candidatesLeft.trans ?_, usages, usagesLeft.trans ?_⟩
  · exact (congrArg _ candidates).trans (by decide +kernel)
  · exact (congrArg _ usages).trans (by decide +kernel)

end StyleLookup

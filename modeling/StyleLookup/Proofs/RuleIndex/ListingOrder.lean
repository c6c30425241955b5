import StyleLookup.Proofs.RuleIndex.FirstLookup

/-!
Listings in another order. Whatever order directories are listed in, the same files are found, only
in another order, and the names that are asked for one by one do not depend on listings at all. A
fallback counts on there being no file, which is no matter of order either.
-/

set_option autoImplicit false

namespace StyleLookup

/-- A file system that lists the entries of its directories in another order. -/
structure Snapshot.Rearranged (fs other : Snapshot) : Prop where
  listing : ∀ path : Path, (other.listing path).Perm (fs.listing path)
  readText : ∀ path : Path, other.readText path = fs.readText path
  isFile : ∀ path : Path, other.isFile path = fs.isFile path
  isDir : ∀ path : Path, other.isDir path = fs.isDir path

theorem CandidateList.perm_paths_ofList {paths others : List Path} (perm : others.Perm paths) :
    (ofList others).paths.Perm (ofList paths).paths := by
  rw [List.perm_ext_iff_of_nodup (sound_ofList others).nodup (sound_ofList paths).nodup]
  intro path
  simp only [mem_paths_ofList, perm.mem_iff]

namespace Discovery

variable {fs other : Snapshot} {scoping : Scoping}

/-! ## Searches -/

theorem perm_visitEntry {wanted : String → Bool} {enter otherEnter : Path → Id (List Path)}
    (inner : ∀ path, (otherEnter path).run.Perm (enter path).run) (entry : DirEntry) :
    (visitEntry scoping wanted otherEnter entry).run.Perm
      (visitEntry scoping wanted enter entry).run := by
  unfold visitEntry
  cases scoping.isExcluded entry.name with
  | true => exact .refl _
  | false =>
      cases entry.kind with
      | file => exact .refl _
      | directory =>
          cases isHidden entry.name with
          | true => exact .refl _
          | false => exact inner entry.path
      | other => exact .refl _

variable (rearranged : fs.Rearranged other)
include rearranged

theorem perm_visitDirectory {wanted : String → Bool} {enter otherEnter : Path → Id (List Path)}
    (inner : ∀ path, (otherEnter path).run.Perm (enter path).run) (directory : Path) :
    (visitDirectory other scoping wanted otherEnter directory).run.Perm
      (visitDirectory fs scoping wanted enter directory).run := by
  rw [visitDirectory_snapshot_eq_flatMap, visitDirectory_snapshot_eq_flatMap]
  exact (rearranged.listing directory).flatMap fun entry _ => perm_visitEntry inner entry

theorem perm_filesBelow (wanted : String → Bool) (levels : Nat) (directory : Path) :
    (filesBelow other scoping wanted levels directory).run.Perm
      (filesBelow fs scoping wanted levels directory).run := by
  induction levels generalizing directory with
  | zero => exact perm_visitDirectory rearranged (fun _ => .refl _) directory
  | succ levels ih => exact perm_visitDirectory rearranged ih directory

theorem perm_folderFiles (directory : Path) :
    (folderFiles other scoping directory).run.Perm (folderFiles fs scoping directory).run := by
  rw [run_folderFiles, run_folderFiles, sheetsAmong, sheetsAmong]
  refine (List.Perm.refl scoping.fileExtensions).flatMap fun extension _ => ?_
  exact ((rearranged.listing directory).filter _).map _

theorem perm_adjacentFiles (source : Path) :
    (adjacentFiles other scoping source).Perm (adjacentFiles fs scoping source) := by
  unfold adjacentFiles beside
  cases source.parent? with
  | none => exact .refl _
  | some directory => exact perm_folderFiles rearranged directory

theorem perm_commonFiles (root : Path) :
    (commonFiles other scoping root).run.Perm (commonFiles fs scoping root).run := by
  rw [commonFiles_snapshot_eq_flatMap, commonFiles_snapshot_eq_flatMap]
  refine (List.Perm.refl scoping.commonDirectories).flatMap fun common _ => ?_
  rw [rearranged.isDir]
  split
  · exact perm_folderFiles rearranged (root.child common)
  · exact .refl _

/-- Names that are asked for one by one are found in the order in which they are asked for. -/
theorem namedFiles_of_rearranged (source : Path) :
    namedFiles other scoping source = namedFiles fs scoping source := by
  have alike : Correspondence.same.OnKinds other fs := ⟨rearranged.isFile, rearranged.isDir⟩
  exact alike.namedFiles scoping source .text

theorem perm_scopedFiles (root source : Path) :
    (scopedFiles other scoping root source).run.Perm (scopedFiles fs scoping root source).run := by
  rw [scopedFiles_eq_append, scopedFiles_eq_append, namedFiles_of_rearranged rearranged]
  exact ((perm_adjacentFiles rearranged source).append_left _).append
    (perm_commonFiles rearranged root)

/-! ## Candidates -/

theorem candidatesIn_filename_of_rearranged (root source : Path) :
    candidatesIn .filename other scoping root source =
      candidatesIn .filename fs scoping root source := by
  have same := rearranged.isDir root
  cases directory : (fs.isDir root).run with
  | false =>
      rw [candidatesIn_of_not_isDir directory, candidatesIn_of_not_isDir (same.trans directory)]
  | true =>
      rw [candidatesIn_of_isDir directory, candidatesIn_of_isDir (same.trans directory)]
      simp only [namedFiles_of_rearranged rearranged]

theorem perm_candidatesIn (mode : Mode) (root source : Path) :
    (candidatesIn mode other scoping root source).Perm
      (candidatesIn mode fs scoping root source) := by
  have same := rearranged.isDir root
  cases directory : (fs.isDir root).run with
  | false =>
      rw [candidatesIn_of_not_isDir directory, candidatesIn_of_not_isDir (same.trans directory)]
  | true =>
      have everywhere :
          (globalFiles other scoping root).run.Perm (globalFiles fs scoping root).run :=
        perm_filesBelow rearranged scoping.hasStyleExtension scoping.scanDepth root
      rw [candidatesIn_of_isDir directory, candidatesIn_of_isDir (same.trans directory)]
      cases mode with
      | global => exact CandidateList.perm_paths_ofList everywhere
      | filename =>
          simp only [namedFiles_of_rearranged rearranged]
          exact .refl _
      | folder => exact CandidateList.perm_paths_ofList (perm_adjacentFiles rearranged source)
      | smart =>
          have nearer : (scopedFiles other scoping root source).run.Perm
              (scopedFiles fs scoping root source).run := perm_scopedFiles rearranged root source
          have nearby := CandidateList.perm_paths_ofList nearer
          -- Whether the fallback counts is the same for both.
          have empty :
              (CandidateList.ofList (scopedFiles other scoping root source).run).paths = [] ↔
                (CandidateList.ofList (scopedFiles fs scoping root source).run).paths = [] := by
            rw [← List.length_eq_zero_iff, nearby.length_eq, List.length_eq_zero_iff]
          simp only [empty]
          split
          · exact CandidateList.perm_paths_ofList everywhere
          · exact nearby

theorem perm_candidates (scoping : Scoping) (root source : Path) :
    (candidates other scoping root source).run.paths.Perm
      (candidates fs scoping root source).run.paths :=
  perm_candidatesIn rearranged scoping.mode root source

end Discovery

namespace RuleIndex

variable {fs other : Snapshot}

theorem perm_candidates (rearranged : fs.Rearranged other) (workspace : Workspace)
    (scoping : Scoping) (source : Path) :
    ((fresh workspace scoping).candidates other source).run.paths.Perm
      ((fresh workspace scoping).candidates fs source).run.paths := by
  let index := fresh workspace scoping
  have alike : Correspondence.same.OnKinds other fs := ⟨rearranged.isFile, rearranged.isDir⟩
  have root : (index.root? other source).run = (index.root? fs source).run :=
    alike.root? workspace source
  unfold candidates
  rw [Id.run_bind, Id.run_bind, root]
  cases (index.root? fs source).run with
  | none => exact .refl _
  | some root => exact Discovery.perm_candidates rearranged scoping root source

theorem selection_of_rearranged (rearranged : fs.Rearranged other) (token : String)
    (styles : List Path) : selection other token styles = selection fs token styles := by
  simp only [selection, rearranged.readText]

end RuleIndex

theorem MemoryTree.rearranged_snapshot (tree : MemoryTree)
    {arrange : Path → List DirEntry → List DirEntry}
    (arranged : ∀ path found, (arrange path found).Perm found) :
    (tree.snapshot fun _ found => found).Rearranged (tree.snapshot arrange) := by
  refine ⟨?_, fun _ => rfl, fun _ => rfl, fun _ => rfl⟩
  intro path
  simp only [Snapshot.listing, snapshot]
  cases tree.find? path with
  | none => exact .refl _
  | some node =>
      cases node with
      | directory => exact arranged path _
      | _ => exact .refl _

namespace RuleIndex

/-- How listings are arranged decides the order of the candidates and nothing else, and for files
that are asked for by name not even this. The rules of a first lookup are those of the same sheets,
in the order of the candidates, and those of one sheet stay as they stand in it. -/
theorem listing_order_decides_order_only {tree : MemoryTree} (tidy : tree.Tidy)
    (free : tree.FreeOfBackslash) {arrange : Path → List DirEntry → List DirEntry}
    (arranged : ∀ path found, (arrange path found).Perm found) (workspace : Workspace)
    (scoping : Scoping) (root source : Path) (token : String) :
    let sorted := tree.snapshot fun _ found => found
    let other := tree.snapshot arrange
    let styles := ((fresh workspace scoping).candidates sorted source).run.paths
    let otherStyles := ((fresh workspace scoping).candidates other source).run.paths
    (Discovery.candidates other scoping root source).run.paths.Perm
        (Discovery.candidates sorted scoping root source).run.paths ∧
      Discovery.candidatesIn .filename other scoping root source =
        Discovery.candidatesIn .filename sorted scoping root source ∧
      otherStyles.Perm styles ∧ styles.Nodup ∧
      (firstLookup workspace scoping sorted token source).1.1 = selection sorted token styles ∧
      (firstLookup workspace scoping other token source).1.1 =
        selection sorted token otherStyles := by
  intro sorted other styles otherStyles
  have rearranged : sorted.Rearranged other := tree.rearranged_snapshot arranged
  have rules : (firstLookup workspace scoping sorted token source).1.1 =
      selection sorted token styles :=
    (tidy.firstLookup free (fun _ found => List.Subset.refl found) rfl token).1
  have otherRules : (firstLookup workspace scoping other token source).1.1 =
      selection other token otherStyles :=
    (tidy.firstLookup free (fun path found => (arranged path found).subset) rfl token).1
  refine ⟨Discovery.perm_candidates rearranged scoping root source,
    Discovery.candidatesIn_filename_of_rearranged rearranged root source,
    perm_candidates rearranged workspace scoping source,
    (sound_candidates _ sorted source).nodup, rules, ?_⟩
  exact otherRules.trans (selection_of_rearranged rearranged token otherStyles)

def pairTree : MemoryTree :=
  .ofList [(⟨"/w/a.css"⟩, .text ".x { top: 0; }"),
    (⟨"/w/b.css"⟩, .text ".x { left: 0; } .y { left: 1; } #x.x { left: 2; }")]

def besideOnly : Scoping := { Scoping.standard with mode := .folder }

def backwards : Path → List DirEntry → List DirEntry := fun _ found => found.reverse

theorem candidates_pairTree :
    ((fresh (.fixed ⟨"/w"⟩) besideOnly).candidates (pairTree.snapshot backwards)
      ⟨"/w/i.html"⟩).run.paths = [⟨"/w/b.css"⟩, ⟨"/w/a.css"⟩] := by
  have listed : (pairTree.snapshot backwards).listing ⟨"/w"⟩ =
      [⟨⟨"/w/b.css"⟩, "b.css", .file⟩, ⟨⟨"/w/a.css"⟩, "a.css", .file⟩] := by
    have held : pairTree.find? ⟨"/w"⟩ = some .directory := by decide +kernel
    rw [MemoryTree.listing_snapshot_of_directory held,
      MemoryTree.children_of_pairwise (by decide +kernel)]
    decide +kernel
  have directory : ((pairTree.snapshot backwards).isDir ⟨"/w"⟩).run = true := by decide +kernel
  have above : Path.parent? ⟨"/w/i.html"⟩ = some ⟨"/w"⟩ := by decide +kernel
  have rooted : ((fresh (.fixed ⟨"/w"⟩) besideOnly).root? (pairTree.snapshot backwards)
      ⟨"/w/i.html"⟩).run = some ⟨"/w"⟩ := by decide +kernel
  rw [candidates_of_root?_eq_some rooted]
  refine (Discovery.candidatesIn_of_isDir directory .folder).trans ?_
  simp only [Discovery.adjacentFiles, Discovery.beside, above, Discovery.run_folderFiles, listed]
  decide +kernel

/-- The sheet that is listed first comes first, and its two rules keep their order. -/
theorem pair_listed_backwards :
    (firstLookup (.fixed ⟨"/w"⟩) besideOnly (pairTree.snapshot backwards) "x"
        ⟨"/w/i.html"⟩).1.1.map StyleRule.selector = [".x", "#x.x", ".x"] ∧
      ((fresh (.fixed ⟨"/w"⟩) besideOnly).candidates (pairTree.snapshot backwards)
        ⟨"/w/i.html"⟩).run.paths.Perm
          ((fresh (.fixed ⟨"/w"⟩) besideOnly).candidates (pairTree.snapshot fun _ found => found)
            ⟨"/w/i.html"⟩).run.paths := by
  have tidy : pairTree.Tidy := MemoryTree.tidy_ofList _
  have free : pairTree.FreeOfBackslash := by decide +kernel
  have arranged (path : Path) (found : List DirEntry) : (backwards path found).Perm found :=
    found.reverse_perm
  obtain ⟨-, -, perm, -, -, rules⟩ := listing_order_decides_order_only tidy free arranged
    (.fixed ⟨"/w"⟩) besideOnly ⟨"/w"⟩ ⟨"/w/i.html"⟩ "x"
  refine ⟨?_, perm⟩
  rw [rules, candidates_pairTree]
  decide +kernel

end RuleIndex

end StyleLookup

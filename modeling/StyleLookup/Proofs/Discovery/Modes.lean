import Mathlib.Data.List.Induction
import StyleLookup.Proofs.Discovery.Containment

/-!
The scoping modes beside each other. The smart mode puts the files named after the source first,
then the others beside it, then those of the common directories. Each of these tiers adds only what
the ones before it have not, and the whole workspace counts only if all of them are empty.
-/

set_option autoImplicit false

namespace StyleLookup

namespace CandidateList

/-- What comes later adds what it would have added alone, less what is there already. -/
theorem paths_ofList_append (first second : List Path) :
    (ofList (first ++ second)).paths =
      (ofList first).paths ++
        (ofList second).paths.filter fun path => path ∉ (ofList first).paths := by
  induction second using List.reverseRecOn with
  | nil => simp [ofList, extend, empty]
  | append_singleton second last ih =>
      rw [← List.append_assoc, paths_ofList_append_singleton, paths_ofList_append_singleton, ih]
      by_cases early : last.normalize ∈ (ofList first).paths <;>
        by_cases late : last.normalize ∈ (ofList second).paths <;> simp [early, late]

end CandidateList

namespace Discovery

variable {fs : Snapshot} {scoping : Scoping} {root source : Path}

/-! ## The tiers -/

theorem filesBelow_with_mode (mode : Mode) (wanted : String → Bool) (levels : Nat)
    (directory : Path) :
    filesBelow fs { scoping with mode := mode } wanted levels directory =
      filesBelow fs scoping wanted levels directory := by
  induction levels generalizing directory with
  | zero => rfl
  | succ levels ih =>
      have deeper : filesBelow fs { scoping with mode := mode } wanted levels =
          filesBelow fs scoping wanted levels := funext ih
      rw [filesBelow, deeper]
      rfl

theorem globalFiles_with_mode (mode : Mode) :
    globalFiles fs { scoping with mode := mode } root = globalFiles fs scoping root :=
  filesBelow_with_mode mode scoping.hasStyleExtension scoping.scanDepth root

def namedFiles (fs : Snapshot) (scoping : Scoping) (source : Path) : List Path :=
  (beside source fun directory => filenameMatches fs scoping directory source).run

def adjacentFiles (fs : Snapshot) (scoping : Scoping) (source : Path) : List Path :=
  (beside source (folderFiles fs scoping)).run

theorem scopedFiles_eq_append :
    (scopedFiles fs scoping root source).run =
      namedFiles fs scoping source ++ adjacentFiles fs scoping source ++
        (commonFiles fs scoping root).run := rfl

theorem mem_commonFiles_iff {path : Path} :
    path ∈ (commonFiles fs scoping root).run ↔
      ∃ common ∈ scoping.commonDirectories, (fs.isDir (root.child common)).run = true ∧
        path ∈ (folderFiles fs scoping (root.child common)).run := by
  rw [commonFiles_snapshot_eq_flatMap, Id.run, List.mem_flatMap]
  apply exists_congr
  intro common
  apply and_congr_right
  intro _
  split <;> simp_all

/-! ## One mode after the other -/

/-- The candidates that a mode gives, all other settings being as they are. -/
def candidatesIn (mode : Mode) (fs : Snapshot) (scoping : Scoping) (root source : Path) :
    List Path :=
  (candidates fs { scoping with mode := mode } root source).run.paths

def commonCandidates (fs : Snapshot) (scoping : Scoping) (root : Path) : List Path :=
  if (fs.isDir root).run then (CandidateList.ofList (commonFiles fs scoping root).run).paths
  else []

theorem candidatesIn_of_not_isDir (unlisted : (fs.isDir root).run = false) (mode : Mode) :
    candidatesIn mode fs scoping root source = [] := by
  simp only [candidatesIn, candidates, Id.run_bind, unlisted]
  rfl

theorem candidatesIn_of_isDir (directory : (fs.isDir root).run = true) (mode : Mode) :
    candidatesIn mode fs scoping root source =
      match mode with
      | .global => (CandidateList.ofList (globalFiles fs scoping root).run).paths
      | .filename => (CandidateList.ofList (namedFiles fs scoping source)).paths
      | .folder => (CandidateList.ofList (adjacentFiles fs scoping source)).paths
      | .smart =>
          let nearby := (CandidateList.ofList (scopedFiles fs scoping root source).run).paths
          if nearby = [] ∧ scoping.fallbackToGlobal = true then
            (CandidateList.ofList (globalFiles fs scoping root).run).paths
          else nearby := by
  simp only [candidatesIn, candidates, Id.run_bind, directory, globalFiles_with_mode]
  cases mode with
  | global => rfl
  | filename => rfl
  | folder => rfl
  | smart =>
      have same : scopedFiles fs { scoping with mode := .smart } root source =
        scopedFiles fs scoping root source := rfl
      simp only [if_true, Id.run_bind, same, Bool.and_eq_true, CandidateList.isEmpty,
        List.isEmpty_iff]
      split <;> rfl

theorem mem_commonCandidates_iff {path : Path} :
    path ∈ commonCandidates fs scoping root ↔
      (fs.isDir root).run = true ∧
        ∃ common ∈ scoping.commonDirectories, (fs.isDir (root.child common)).run = true ∧
          ∃ found ∈ (folderFiles fs scoping (root.child common)).run, path = found.normalize := by
  cases directory : (fs.isDir root).run with
  | false => simp [commonCandidates, directory]
  | true =>
      rw [commonCandidates, if_pos directory, CandidateList.mem_paths_ofList]
      constructor
      · rintro ⟨found, inside, same⟩
        obtain ⟨common, known, held, listed⟩ := mem_commonFiles_iff.mp inside
        exact ⟨rfl, common, known, held, found, listed, same⟩
      · rintro ⟨-, common, known, held, found, listed, same⟩
        exact ⟨found, mem_commonFiles_iff.mpr ⟨common, known, held, listed⟩, same⟩

/-- Three lists one after the other, where each adds only what is new. -/
def tiered (first second third : List Path) : List Path :=
  first ++ second.filter (· ∉ first) ++
    third.filter fun path => path ∉ first ∧ path ∉ second

theorem tiered_eq_nil_iff {first second third : List Path} :
    tiered first second third = [] ↔ first = [] ∧ second = [] ∧ third = [] := by
  constructor
  · intro none
    obtain ⟨firstTwo, thirdNew⟩ := List.append_eq_nil_iff.mp none
    obtain ⟨rfl, secondNew⟩ := List.append_eq_nil_iff.mp firstTwo
    obtain rfl : second = [] := by simpa using secondNew
    exact ⟨rfl, rfl, by simpa using thirdNew⟩
  · rintro ⟨rfl, rfl, rfl⟩
    rfl

theorem mem_tiered_iff {first second third : List Path} {path : Path} :
    path ∈ tiered first second third ↔ path ∈ first ∨ path ∈ second ∨ path ∈ third := by
  simp only [tiered, List.mem_append, List.mem_filter, decide_eq_true_eq]
  tauto

theorem ofList_scopedFiles_paths (directory : (fs.isDir root).run = true) :
    (CandidateList.ofList (scopedFiles fs scoping root source).run).paths =
      tiered (candidatesIn .filename fs scoping root source)
        (candidatesIn .folder fs scoping root source) (commonCandidates fs scoping root) := by
  rw [scopedFiles_eq_append, CandidateList.paths_ofList_append, CandidateList.paths_ofList_append,
    candidatesIn_of_isDir directory, candidatesIn_of_isDir directory, commonCandidates,
    if_pos directory]
  congr 1
  apply List.filter_congr
  intro path _
  simp only [List.mem_append, List.mem_filter, decide_eq_true_eq, decide_eq_decide]
  tauto

/-- Without any tier the smart mode falls back to the whole workspace, where the settings allow
this. -/
theorem candidatesIn_smart :
    candidatesIn .smart fs scoping root source =
      if tiered (candidatesIn .filename fs scoping root source)
          (candidatesIn .folder fs scoping root source) (commonCandidates fs scoping root) = [] ∧
          scoping.fallbackToGlobal = true then
        candidatesIn .global fs scoping root source
      else
        tiered (candidatesIn .filename fs scoping root source)
          (candidatesIn .folder fs scoping root source) (commonCandidates fs scoping root) := by
  cases directory : (fs.isDir root).run with
  | false =>
      have none : commonCandidates fs scoping root = [] := if_neg (by simp [directory])
      simp [candidatesIn_of_not_isDir directory, none, tiered]
  | true =>
      rw [← ofList_scopedFiles_paths directory, candidatesIn_of_isDir directory .smart,
        candidatesIn_of_isDir directory .global]

/-- The candidates of the smart mode are those of the filename mode, then those of the folder mode
that are new, then those of the common directories that are new, which are all the style sheets that
stand directly in one of these. If there are none of them, they are the candidates of the global
mode where the settings allow this. -/
theorem smart_candidates_by_tier (fs : Snapshot) (scoping : Scoping) (root source : Path) :
    let list (mode : Mode) : List Path := candidatesIn mode fs scoping root source
    let common : List Path := commonCandidates fs scoping root
    (list .filename <+: list .smart) ∧
      (list .filename ++ (list .folder).filter (· ∉ list .filename) <+: list .smart) ∧
      (∀ path ∈ list .folder, path ∈ list .smart) ∧
      (list .filename ≠ [] ∨ list .folder ≠ [] ∨ common ≠ [] →
        list .smart = list .filename ++ (list .folder).filter (· ∉ list .filename) ++
          common.filter fun path => path ∉ list .filename ∧ path ∉ list .folder) ∧
      (∀ path, path ∈ common ↔ (fs.isDir root).run = true ∧
        ∃ directory ∈ scoping.commonDirectories, (fs.isDir (root.child directory)).run = true ∧
          ∃ found ∈ (folderFiles fs scoping (root.child directory)).run, path = found.normalize) ∧
      (list .filename = [] ∧ list .folder = [] ∧ common = [] →
        list .smart = if scoping.fallbackToGlobal then list .global else []) ∧
      (scoping.fallbackToGlobal = true → list .smart = [] → list .global = []) := by
  intro list common
  have smart : list .smart =
      if tiered (list .filename) (list .folder) common = [] ∧ scoping.fallbackToGlobal = true then
        list .global
      else tiered (list .filename) (list .folder) common := candidatesIn_smart
  have nearby (found : tiered (list .filename) (list .folder) common ≠ []) :
      list .smart = tiered (list .filename) (list .folder) common := by
    rw [smart, if_neg fun fallback => found fallback.1]
  have adjacent : list .filename ++ (list .folder).filter (· ∉ list .filename) <+: list .smart := by
    by_cases none : tiered (list .filename) (list .folder) common = []
    · obtain ⟨unnamed, alone, -⟩ := tiered_eq_nil_iff.mp none
      simp [unnamed, alone]
    · rw [nearby none]
      exact List.prefix_append _ _
  refine ⟨(List.prefix_append _ _).trans adjacent, adjacent, ?_, ?_,
    fun path => mem_commonCandidates_iff, ?_, ?_⟩
  · intro path member
    apply adjacent.subset
    by_cases named : path ∈ list .filename
    · exact List.mem_append_left _ named
    · exact List.mem_append_right _ (List.mem_filter.mpr ⟨member, by simpa using named⟩)
  · intro found
    exact nearby (by rw [Ne, tiered_eq_nil_iff]; tauto)
  · intro exhausted
    rw [smart, tiered_eq_nil_iff.mpr exhausted]
    simp
  · intro allowed none
    rw [smart] at none
    split at none
    · exact none
    · rename_i found
      exact absurd ⟨none, allowed⟩ found

end Discovery

end StyleLookup

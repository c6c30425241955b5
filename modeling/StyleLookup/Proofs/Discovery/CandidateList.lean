import Mathlib.Data.Finset.Card
import Mathlib.Data.List.Induction
import Mathlib.Data.List.Nodup
import StyleLookup.Discovery.CandidateList
import StyleLookup.Proofs.Path.Normalization

/-!
What every list of candidates keeps to, however it was put together: its paths are in normal form,
so they are told apart by their steps, none of them comes twice, and the set that is asked about
them holds the same paths. A list that was pushed to, extended and collected anew in any order
holds the normal forms of the paths that were given to it, in the order in which they first came.
-/

set_option autoImplicit false

namespace StyleLookup.CandidateList

structure Sound (candidates : CandidateList) : Prop where
  normal : ∀ path ∈ candidates.paths, path.normalize = path
  nodup : candidates.paths.Nodup
  in_step : candidates.seen.members.Perm candidates.paths

theorem sound_empty : empty.Sound := ⟨fun _ => nofun, List.nodup_nil, .nil⟩

variable {candidates : CandidateList} {paths : List Path} {path : Path}

theorem Sound.contains_iff (sound : candidates.Sound) :
    candidates.contains path = true ↔ path.normalize ∈ candidates.paths := by
  rw [contains, PathSet.contains, List.any_eq_true]
  constructor
  · intro known
    obtain ⟨held, member, same⟩ := known
    have listed := sound.in_step.mem_iff.mp member
    have normal := Path.normalize_normalize path
    obtain rfl := (Path.sameAs_iff_of_normal normal (sound.normal held listed)).mp same
    exact listed
  · intro listed
    exact ⟨path.normalize, sound.in_step.mem_iff.mpr listed, by simp [Path.sameAs]⟩

theorem Sound.push (sound : candidates.Sound) (path : Path) : (candidates.push path).2.Sound := by
  cases known : candidates.contains path with
  | true =>
      rw [push_of_contains known]
      exact sound
  | false =>
      have fresh : path.normalize ∉ candidates.paths := by simp [← sound.contains_iff, known]
      rw [push_of_not_contains known]
      constructor
      · intro held member
        cases List.mem_append.mp member with
        | inl earlier => exact sound.normal held earlier
        | inr added =>
            cases List.mem_singleton.mp added
            exact Path.normalize_normalize path
      · exact List.nodup_append.mpr ⟨sound.nodup, List.nodup_singleton _, by
          intro held earlier other added same
          rw [same, List.mem_singleton.mp added] at earlier
          exact fresh earlier⟩
      · exact (sound.in_step.cons _).trans (List.perm_append_singleton _ _).symm

theorem Sound.extend (sound : candidates.Sound) (paths : List Path) :
    (candidates.extend paths).Sound :=
  List.foldlRecOn _ _ sound fun _ grown path _ => grown.push path

theorem sound_ofList (paths : List Path) : (ofList paths).Sound := sound_empty.extend paths

theorem Sound.paths_push (sound : candidates.Sound) (path : Path) :
    (candidates.push path).2.paths =
      if path.normalize ∈ candidates.paths then candidates.paths
      else candidates.paths ++ [path.normalize] := by
  cases known : candidates.contains path with
  | true => rw [push_of_contains known, if_pos (sound.contains_iff.mp known)]
  | false =>
      have fresh : path.normalize ∉ candidates.paths := by simp [← sound.contains_iff, known]
      rw [push_of_not_contains known, if_neg fresh]

theorem ofList_append (earlier later : List Path) :
    ofList (earlier ++ later) = (ofList earlier).extend later :=
  List.foldl_append

theorem ofList_append_singleton (paths : List Path) (last : Path) :
    ofList (paths ++ [last]) = ((ofList paths).push last).2 :=
  ofList_append paths [last]

/-- A path that comes last is added unless its normal form is there already. -/
theorem paths_ofList_append_singleton (paths : List Path) (last : Path) :
    (ofList (paths ++ [last])).paths =
      if last.normalize ∈ (ofList paths).paths then (ofList paths).paths
      else (ofList paths).paths ++ [last.normalize] := by
  rw [ofList_append_singleton, (sound_ofList paths).paths_push]

theorem paths_ofList (paths : List Path) :
    (ofList paths).paths = (paths.map Path.normalize).eraseDups := by
  induction paths using List.reverseRecOn with
  | nil => rfl
  | append_singleton paths last ih =>
      rw [paths_ofList_append_singleton, ih, List.map_append, List.eraseDups_append]
      -- Membership is kept as it stands in the condition, which simp would spell out.
      by_cases present : last.normalize ∈ paths.map Path.normalize
      · simp [List.removeAll, present, -List.mem_map]
      · simp [List.removeAll, present, List.eraseDups_cons, -List.mem_map]

theorem mem_paths_ofList :
    path ∈ (ofList paths).paths ↔ ∃ other ∈ paths, path = other.normalize := by
  simp [paths_ofList, eq_comm]

/-- Candidates differ by component, not only in their spelling. -/
theorem Sound.nodup_components (sound : candidates.Sound) :
    (candidates.paths.map Path.components).Nodup := by
  apply sound.nodup.map_on
  intro left leftMember right rightMember same
  rw [← sound.normal left leftMember, ← sound.normal right rightMember, Path.normalize_eq_iff,
    Path.reached, same, Path.reached]

/-! ## Lists that are used step by step -/

/-- One use of a list of candidates. -/
inductive Step where
  | push (path : Path)
  | extend (paths : List Path)
  | collect (paths : List Path)

def take (candidates : CandidateList) : Step → CandidateList
  | .push path => (candidates.push path).2
  | .extend paths => candidates.extend paths
  | .collect paths => ofList paths

/-- The list after some steps, the first of which was taken with an empty list. -/
def run (steps : List Step) : CandidateList := steps.foldl take empty

/-- The paths that have been given after a step, if some had been given before it. -/
def Step.given (earlier : List Path) : Step → List Path
  | push path => earlier ++ [path]
  | extend paths => earlier ++ paths
  | collect paths => paths

/-- The paths given since the last collecting step, its own ones included. -/
def given (steps : List Step) : List Path := steps.foldl Step.given []

theorem take_ofList (paths : List Path) (step : Step) :
    (ofList paths).take step = ofList (step.given paths) := by
  cases step with
  | push path => exact (ofList_append_singleton paths path).symm
  | extend more => exact (ofList_append paths more).symm
  | collect others => rfl

theorem run_eq_ofList (steps : List Step) : run steps = ofList (given steps) := by
  induction steps using List.reverseRecOn with
  | nil => rfl
  | append_singleton steps step ih =>
      have taken : run (steps ++ [step]) = (run steps).take step := by simp [run]
      have added : given (steps ++ [step]) = step.given (given steps) := by simp [given]
      rw [taken, ih, take_ofList, added]

/-- Whatever was done to a list, it holds the normal forms of the paths given since it was last
collected, each once and in the order in which they first came. The set beside it holds the same
paths, so that it knows a path exactly if one with its normal form was given. -/
theorem run_holds_given (steps : List Step) :
    (run steps).paths = ((given steps).map Path.normalize).eraseDups ∧
      (run steps).seen.members.Perm (run steps).paths ∧
      (∀ path, (run steps).contains path = true ↔
        ∃ other ∈ given steps, other.normalize = path.normalize) ∧
      (∀ path, ((run steps).push path).1 = true ↔ (run steps).contains path = false) ∧
      (run steps).size = ((given steps).map Path.normalize).toFinset.card := by
  have sound : (run steps).Sound := run_eq_ofList steps ▸ sound_ofList _
  have paths : (run steps).paths = ((given steps).map Path.normalize).eraseDups := by
    rw [run_eq_ofList, paths_ofList]
  refine ⟨paths, sound.in_step, fun path => ?_, fun path => added_iff, ?_⟩
  · rw [sound.contains_iff, paths, List.mem_eraseDups, List.mem_map]
  · have same : (run steps).paths.toFinset = ((given steps).map Path.normalize).toFinset := by
      ext path
      rw [List.mem_toFinset, paths, List.mem_eraseDups, List.mem_toFinset]
    rw [← same, List.toFinset_card_of_nodup sound.nodup, size]

end StyleLookup.CandidateList

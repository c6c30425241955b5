import Mathlib.Data.List.Induction
import StyleLookup.Proofs.Path.Normalization

/-!
Relative paths that climb. What a relative path says is how many levels it leads up from any place
and through which names it then leads down. Normalization on its own keeps this only up to one level:
a second `..` with nothing to take back takes back the first one.
-/

set_option autoImplicit false

namespace StyleLookup.Path

/-- So many levels up, and then down through names, the last one first. -/
structure Displacement where
  up : Nat
  down : List String
deriving DecidableEq, Repr

namespace Displacement

def still : Displacement := ⟨0, []⟩

def step (displacement : Displacement) : Component → Displacement
  | .name entry => ⟨displacement.up, entry :: displacement.down⟩
  | .parent =>
      match displacement.down with
      | [] => ⟨displacement.up + 1, []⟩
      | _ :: before => ⟨displacement.up, before⟩
  | _ => displacement

def ofSteps (steps : List Component) : Displacement := steps.foldl step still

/-- The shortest steps that lead there. -/
def steps (displacement : Displacement) : List Component :=
  List.replicate displacement.up .parent ++ displacement.down.reverse.map .name

theorem foldl_advance_steps_step {step : Component} (spelled : step.Spelled)
    (displacement : Displacement) (place : List Component) :
    (displacement.step step).steps.foldl advance place =
      advance (displacement.steps.foldl advance place) step := by
  cases step with
  | root => exact absurd rfl spelled.ne_root
  | current => exact absurd rfl spelled.ne_current
  | name entry => simp [Displacement.step, steps]
  | parent =>
      obtain ⟨up, down⟩ := displacement
      cases down with
      | nil => simp [Displacement.step, steps, List.replicate_succ']
      | cons entry before =>
          -- A name that was just entered is left again, wherever the place is.
          simp [Displacement.step, steps, advance]

theorem foldl_advance_ofSteps {steps : List Component} (spelled : ∀ step ∈ steps, step.Spelled)
    (place : List Component) :
    (ofSteps steps).steps.foldl advance place = steps.foldl advance place := by
  induction steps using List.reverseRecOn with
  | nil => rfl
  | append_singleton before last ih =>
      have beforeSpelled : ∀ step ∈ before, step.Spelled := fun step member =>
        spelled step (List.mem_append_left _ member)
      have lastSpelled : last.Spelled := spelled last (by simp)
      rw [ofSteps, List.foldl_append, List.foldl_append, ← ofSteps, ← ih beforeSpelled]
      exact foldl_advance_steps_step lastSpelled _ place

end Displacement

/-! ## Places -/

theorem foldl_advance_names (names : List String) (place : List Component) :
    (names.map Component.name).foldl advance place = names.reverse.map .name ++ place := by
  induction names generalizing place with
  | nil => rfl
  | cons entry rest ih => simp [advance, ih]

theorem foldl_advance_replicate_parent (levels : Nat) :
    (List.replicate levels Component.parent).foldl advance [] =
      List.replicate (levels % 2) .parent := by
  -- The first level up is kept as a step, and the second one takes this step back.
  induction levels with
  | zero => rfl
  | succ levels ih =>
      rw [List.replicate_succ', List.foldl_append, ih]
      rcases Nat.mod_two_eq_zero_or_one levels with even | odd
      · rw [even, Nat.add_mod, even]
        rfl
      · rw [odd, Nat.add_mod, odd]
        rfl

theorem foldl_advance_replicate_parent_names {levels : Nat} {names : List String}
    (deep : levels ≤ names.length) :
    (List.replicate levels Component.parent).foldl advance (names.map .name) =
      (names.drop levels).map .name := by
  induction levels generalizing names with
  | zero => rfl
  | succ levels ih =>
      cases names with
      | nil => simp at deep
      | cons entry rest =>
          rw [List.replicate_succ, List.foldl_cons, List.drop_succ_cons, ← ih (by simpa using deep)]
          rfl

theorem Displacement.foldl_advance_steps_names {displacement : Displacement} {names : List String}
    (deep : displacement.up ≤ names.length) :
    displacement.steps.foldl advance (names.map .name) =
      (displacement.down ++ names.drop displacement.up).map .name := by
  rw [steps, List.foldl_append, foldl_advance_replicate_parent_names deep, foldl_advance_names,
    List.reverse_reverse, List.map_append]

theorem reached_ofComponents_names {names : List String}
    (spelled : ∀ entry ∈ names, Component.Spelled (.name entry)) :
    (ofComponents (names.map .name)).reached = names.reverse.map .name := by
  have stepsSpelled : ∀ step ∈ names.map Component.name, step.Spelled := by
    intro step member
    obtain ⟨entry, entryMember, rfl⟩ := List.mem_map.mp member
    exact spelled entry entryMember
  rw [reached, components_ofComponents stepsSpelled, foldl_advance_names, List.append_nil]

/-! ## Relative paths -/

def displacement (path : Path) : Displacement := .ofSteps path.steps

/-- The number of levels that a path leads up before it leads down. -/
def climb (path : Path) : Nat := path.displacement.up

theorem foldl_advance_displacement (path : Path) (place : List Component) :
    path.steps.foldl advance place = path.displacement.steps.foldl advance place :=
  (Displacement.foldl_advance_ofSteps (fun _ => spelled_of_mem_steps) place).symm

/-- What normalization leaves of a relative path: its names, and one `..` in front of them if the
number of levels is odd. -/
theorem reached_of_relative {path : Path} (relative : path.isAbsolute = false) :
    path.reached = path.displacement.down.map .name ++ List.replicate (path.climb % 2) .parent := by
  have blank : empty.text = [] := by decide
  have onward : path.reached = path.steps.foldl advance [] := by
    rw [← join_of_empty blank path, reached_join relative, join_of_empty blank]
    rfl
  rw [onward, foldl_advance_displacement, Displacement.steps, List.foldl_append,
    foldl_advance_replicate_parent, foldl_advance_names, List.reverse_reverse]
  rfl

theorem isAbsolute_normalize_of_relative {path : Path} (relative : path.isAbsolute = false) :
    path.normalize.isAbsolute = false := by
  rw [← Bool.not_eq_true, isAbsolute_iff_root_mem_components, components_normalize,
    reached_of_relative relative]
  simp [List.mem_replicate]

theorem steps_normalize_of_relative {path : Path} (relative : path.isAbsolute = false) :
    path.normalize.steps = Displacement.steps ⟨path.climb % 2, path.displacement.down⟩ := by
  have components : path.normalize.components =
      Displacement.steps ⟨path.climb % 2, path.displacement.down⟩ := by
    rw [components_normalize, reached_of_relative relative, Displacement.steps,
      List.reverse_append, List.reverse_replicate, List.map_reverse]
  rw [steps_eq_components, components]
  all_goals simp [components, Displacement.steps, List.mem_replicate]

/-- Normalizing a relative path on its own keeps where it leads from every directory exactly if it
climbs at most one level. -/
theorem normalize_join_normalize_iff {path : Path} (relative : path.isAbsolute = false) :
    (∀ directory : Path,
        (directory.join path.normalize).normalize = (directory.join path).normalize) ↔
      path.climb ≤ 1 := by
  have normalRelative := isAbsolute_normalize_of_relative relative
  have onward (directory : Path) : (directory.join path.normalize).reached =
      (Displacement.steps ⟨path.climb % 2, path.displacement.down⟩).foldl advance
        directory.reached := by
    rw [reached_join normalRelative, steps_normalize_of_relative relative]
  have direct (directory : Path) : (directory.join path).reached =
      path.displacement.steps.foldl advance directory.reached := by
    rw [reached_join relative, foldl_advance_displacement]
  constructor
  · intro same
    -- A directory that is just deep enough tells the levels apart.
    let names := List.replicate path.climb "a"
    have spelled : ∀ entry ∈ names, Component.Spelled (.name entry) := by
      intro entry member
      rw [List.eq_of_mem_replicate member]
      decide
    have place := reached_ofComponents_names spelled
    have deep : path.climb ≤ names.reverse.length := by simp [names]
    have below : path.climb % 2 ≤ names.reverse.length := Nat.le_trans (Nat.mod_le path.climb 2) deep
    have places := normalize_eq_iff.mp (same (ofComponents (names.map .name)))
    rw [onward, direct, place, Displacement.foldl_advance_steps_names below,
      Displacement.foldl_advance_steps_names deep] at places
    have lengths := congrArg List.length places
    simp only [List.length_append, List.length_map, List.length_drop] at lengths
    unfold climb at *
    omega
  · intro low directory
    have kept : path.climb % 2 = path.climb := Nat.mod_eq_of_lt (by omega)
    rw [normalize_eq_iff, onward, direct, kept]
    rfl

theorem one_level_kept :
    Path.isAbsolute ⟨"a/../../b/./c"⟩ = false ∧ Path.climb ⟨"a/../../b/./c"⟩ = 1 ∧
      ∀ directory : Path, (directory.join (Path.normalize ⟨"a/../../b/./c"⟩)).normalize =
        (directory.join ⟨"a/../../b/./c"⟩).normalize := by
  have relative : Path.isAbsolute ⟨"a/../../b/./c"⟩ = false := by decide
  have climb : Path.climb ⟨"a/../../b/./c"⟩ = 1 := by decide
  exact ⟨relative, climb, (normalize_join_normalize_iff relative).mpr (Nat.le_of_eq climb)⟩

/-- Two levels up from a directory that is three levels deep: normalized on its own, the path leads
up no level at all. -/
theorem two_levels_lost :
    Path.isAbsolute ⟨"../../b"⟩ = false ∧
      (Path.join ⟨"/x/y/z"⟩ ⟨"../../b"⟩).normalize = ⟨"/x/b"⟩ ∧
      Path.normalize ⟨"../../b"⟩ = ⟨"b"⟩ ∧
      (Path.join ⟨"/x/y/z"⟩ (Path.normalize ⟨"../../b"⟩)).normalize ≠
        (Path.join ⟨"/x/y/z"⟩ ⟨"../../b"⟩).normalize := by
  decide +kernel

end StyleLookup.Path

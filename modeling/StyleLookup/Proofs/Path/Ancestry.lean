import StyleLookup.Proofs.Path.Climb
import StyleLookup.Proofs.Path.Containment

/-!
Directories above a path, as the path is written. The steps below such a directory may climb out of
it. They lead back into it exactly if they enter again, by the same names, whatever they have left.
-/

set_option autoImplicit false

namespace StyleLookup.Path

/-! ## The steps below an ancestor -/

theorem exists_steps_of_mem_ancestorsBefore {start : Start} {back : List (List Char)}
    {directory : Path} (undotted : start ≠ .here) (free : ∀ piece ∈ back, '/' ∉ piece)
    (heard : start = .relative → ∀ piece ∈ back.reverse.head?, isSilent piece = false)
    (member : directory ∈ ancestorsBefore start back) :
    ∃ above below, below ≠ [] ∧ directory.components = start.lead ++ above ∧
      back.reverse.filterMap Component.ofPiece? = above ++ below := by
  induction back with
  | nil => simp [ancestorsBefore, undotted] at member
  | cons piece before ih =>
      have beforeFree : ∀ other ∈ before, '/' ∉ other := fun other inside =>
        free other (List.mem_cons_of_mem piece inside)
      have beforeHeard : start = .relative →
          ∀ other ∈ before.reverse.head?, isSilent other = false := fun relative =>
        head?_reverse_of_cons (heard relative)
      rw [List.reverse_cons, List.filterMap_append]
      by_cases silent : isSilent piece = true
      · rw [ancestorsBefore, if_pos silent] at member
        obtain ⟨above, below, nonempty, read, whole⟩ := ih beforeFree beforeHeard member
        refine ⟨above, below, nonempty, read, ?_⟩
        rw [List.filterMap_cons_none (ofPiece?_eq_none_iff.mpr silent), List.filterMap_nil,
          List.append_nil, whole]
      · obtain ⟨last, step⟩ := Option.ne_none_iff_exists'.mp (mt ofPiece?_eq_none_iff.mp silent)
        rw [List.filterMap_cons_some step, List.filterMap_nil]
        rw [ancestorsBefore, if_neg silent, List.mem_cons] at member
        rcases member with rfl | further
        · exact ⟨_, [last], List.cons_ne_nil _ _,
            components_assemble_dropWhile beforeFree beforeHeard, rfl⟩
        · obtain ⟨above, below, -, read, whole⟩ := ih beforeFree beforeHeard further
          refine ⟨above, below ++ [last], by simp, read, ?_⟩
          rw [whole, List.append_assoc]

/-- A directory above a path starts as the path does and is spelled with its first steps. -/
theorem exists_steps_of_mem_ancestors {path directory : Path} (undotted : path.start ≠ .here)
    (member : directory ∈ path.ancestors) :
    ∃ above below, below ≠ [] ∧ directory.components = path.start.lead ++ above ∧
      path.steps = above ++ below := by
  have free : ∀ piece ∈ path.bodyPieces.reverse, '/' ∉ piece := fun piece inside =>
    slash_not_mem_of_mem_bodyPieces (List.mem_reverse.mp inside)
  have heard : path.start = .relative →
      ∀ piece ∈ path.bodyPieces.reverse.reverse.head?, isSilent piece = false := by
    rw [List.reverse_reverse]
    exact isSilent_eq_false_of_mem_ancestors member
  obtain ⟨above, below, nonempty, read, whole⟩ :=
    exists_steps_of_mem_ancestorsBefore undotted free heard member
  rw [List.reverse_reverse, filterMap_bodyPieces] at whole
  exact ⟨above, below, nonempty, read, whole⟩

/-! ## Places below the root -/

/-- A place that is found from `/`. -/
def Rooted (place : List Component) : Prop := place.getLast? = some .root

theorem Rooted.advance {place : List Component} (rooted : Rooted place) {step : Component}
    (spelled : step.Spelled) : Rooted (advance place step) := by
  unfold Rooted at rooted ⊢
  cases step with
  | root => exact absurd rfl spelled.ne_root
  | current => exact absurd rfl spelled.ne_current
  | name entry =>
      cases place with
      | nil => cases rooted
      | cons last before => rwa [Path.advance, List.getLast?_cons_cons]
  | parent =>
      cases place with
      | nil => cases rooted
      | cons last before =>
          cases before with
          | nil =>
              cases rooted
              rfl
          | cons next rest =>
              rw [List.getLast?_cons_cons] at rooted
              cases last <;> exact rooted

theorem Rooted.foldl {steps place : List Component} (rooted : Rooted place)
    (spelled : ∀ step ∈ steps, step.Spelled) : Rooted (steps.foldl Path.advance place) := by
  induction steps generalizing place with
  | nil => exact rooted
  | cons step rest ih =>
      rw [List.foldl_cons]
      exact ih (rooted.advance (spelled step List.mem_cons_self))
        fun other member => spelled other (List.mem_cons_of_mem step member)

theorem Rooted.suffix_of_length_le_one {place longer : List Component} (rooted : Rooted place)
    (short : place.length ≤ 1) (other : Rooted longer) : place <:+ longer := by
  cases place with
  | nil => exact List.nil_suffix
  | cons last before =>
      obtain rfl : before = [] := by simpa using short
      cases rooted
      obtain ⟨front, rfl⟩ := List.getLast?_eq_some_iff.mp other
      exact List.suffix_append front _

/-! ## Leaving and coming back -/

/-- The place so many levels up. -/
def climbed (levels : Nat) (place : List Component) : List Component :=
  (List.replicate levels Component.parent).foldl advance place

theorem climbed_zero (place : List Component) : climbed 0 place = place := rfl

theorem Rooted.climbed {place : List Component} (rooted : Rooted place) (levels : Nat) :
    Rooted (climbed levels place) := by
  apply rooted.foldl
  intro step member
  rw [List.eq_of_mem_replicate member]
  decide

/-- Climbing leads no deeper, except that a level above the root counts as one step. -/
theorem length_climbed_le (levels : Nat) (place : List Component) :
    (climbed levels place).length ≤ max place.length 2 := by
  induction levels generalizing place with
  | zero => exact Nat.le_max_left _ _
  | succ levels ih =>
      have once : (advance place .parent).length ≤ max place.length 2 := by
        simp only [advance]
        split
        · simp
        · simp
        · rw [List.length_cons]
          omega
      rw [climbed, List.replicate_succ, List.foldl_cons]
      exact Nat.le_trans (ih (advance place .parent)) (Nat.max_le.mpr ⟨once, Nat.le_max_right _ 2⟩)

/-- Steps that stay within a place or come back to it: what they leave on the way up they enter
again, by the same names. Nothing leads out of `/`. -/
def Returns (place below : List Component) : Prop :=
  place = [.root] ∨
    ∃ names, names <:+ (Displacement.ofSteps below).down ∧
      place = names.map .name ++ climbed (Displacement.ofSteps below).up place

theorem returns_of_up_eq_zero {below : List Component}
    (level : (Displacement.ofSteps below).up = 0) (place : List Component) :
    Returns place below :=
  .inr ⟨[], List.nil_suffix, by rw [level, climbed_zero]; rfl⟩

theorem foldl_advance_eq_append_climbed {below : List Component}
    (spelled : ∀ step ∈ below, step.Spelled) (place : List Component) :
    below.foldl advance place =
      (Displacement.ofSteps below).down.map .name ++
        climbed (Displacement.ofSteps below).up place := by
  rw [← Displacement.foldl_advance_ofSteps spelled, Displacement.steps, List.foldl_append,
    foldl_advance_names, List.reverse_reverse]
  rfl

/-- Steps lead to a place below the one they start from exactly if they return to it. -/
theorem suffix_foldl_advance_iff {place below : List Component} (rooted : Rooted place)
    (spelled : ∀ step ∈ below, step.Spelled) :
    place <:+ below.foldl advance place ↔ Returns place below := by
  have reached := foldl_advance_eq_append_climbed spelled place
  have bound := length_climbed_le (Displacement.ofSteps below).up place
  have top := rooted.climbed (Displacement.ofSteps below).up
  unfold Returns
  generalize climbed (Displacement.ofSteps below).up place = left at reached bound top ⊢
  constructor
  · intro under
    by_cases short : place.length ≤ 1
    · obtain ⟨front, whole⟩ := List.getLast?_eq_some_iff.mp rooted
      obtain rfl : front = [] := by simpa [whole] using short
      exact .inl whole
    · right
      rw [reached] at under
      have deep : left.length ≤ place.length := by omega
      -- What is left on the way up is a part of the place, and the rest of it is entered again.
      obtain ⟨entered, rfl⟩ :=
        List.suffix_of_suffix_length_le (List.suffix_append _ left) under deep
      have again : entered <:+ (Displacement.ofSteps below).down.map .name := by
        obtain ⟨before, whole⟩ := under
        rw [← List.append_assoc, List.append_cancel_right_eq] at whole
        exact ⟨before, whole⟩
      obtain ⟨names, inside, rfl⟩ := List.suffix_map_iff.mp again
      exact ⟨names, inside, rfl⟩
  · rintro (root | ⟨names, ⟨before, down⟩, whole⟩)
    · apply rooted.suffix_of_length_le_one (by simp [root])
      exact rooted.foldl spelled
    · rw [reached, ← down, List.map_append, List.append_assoc, ← whole]
      exact List.suffix_append _ _

/-- A path lies in a directory above it exactly if its steps below this directory return. -/
theorem exists_within_iff_returns {path directory : Path} (absolute : path.isAbsolute = true)
    (member : directory ∈ path.ancestors) :
    ∃ below ≠ [], path.components = directory.components ++ below ∧
      (path.Within directory ↔ Returns directory.reached below) := by
  have start : path.start = .root := if_pos absolute
  have undotted : path.start ≠ .here := by simp [start]
  obtain ⟨above, below, nonempty, read, whole⟩ := exists_steps_of_mem_ancestors undotted member
  have spelled : ∀ step ∈ above ++ below, step.Spelled := fun step inside =>
    spelled_of_mem_steps (whole ▸ inside)
  have components : path.components = directory.components ++ below := by
    rw [components_eq_lead_append_steps, whole, read, List.append_assoc]
  have rooted : Rooted directory.reached := by
    rw [reached, read, start, List.foldl_append]
    have top : Rooted (Start.root.lead.foldl advance []) := rfl
    exact top.foldl fun step inside => spelled step (List.mem_append_left _ inside)
  refine ⟨below, nonempty, components, ?_⟩
  have onward : path.reached = below.foldl advance directory.reached := by
    rw [reached, components, List.foldl_append]
    rfl
  rw [Within, onward]
  exact suffix_foldl_advance_iff rooted fun step inside =>
    spelled step (List.mem_append_right _ inside)

end StyleLookup.Path

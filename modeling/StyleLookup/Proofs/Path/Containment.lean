import StyleLookup.Proofs.Path.Normalization

/-!
Paths that lead to a place at or below another one. Names and dots lead further down, and so does
going back to the directory that holds a path, as long as the path itself leads below the other one.
-/

set_option autoImplicit false

namespace StyleLookup.Path

/-- Whether a path leads to the place of another one or below it. -/
def Within (path base : Path) : Prop := base.reached <:+ path.reached

theorem Within.refl (base : Path) : base.Within base := List.suffix_refl _

theorem startsWith_normalize_iff {path base : Path} :
    path.normalize.startsWith base.normalize = true ↔ path.Within base := by
  rw [startsWith, List.isPrefixOf_iff_prefix, components_normalize, components_normalize,
    List.reverse_prefix, Within]

theorem Within.components_normalize {path base : Path} (within : path.Within base)
    (apart : path.normalize ≠ base.normalize) :
    ∃ below ≠ [], path.normalize.components = base.normalize.components ++ below := by
  obtain ⟨deeper, whole⟩ := within
  refine ⟨deeper.reverse, ?_, ?_⟩
  · intro level
    rw [List.reverse_eq_nil_iff.mp level, List.nil_append] at whole
    exact apart (normalize_eq_iff.mpr whole.symm)
  · rw [Path.components_normalize, Path.components_normalize, ← whole, List.reverse_append]

/-! ## Further down -/

theorem suffix_foldl_advance {steps : List Component} (spelled : ∀ step ∈ steps, step.Spelled)
    (unclimbing : .parent ∉ steps) (place : List Component) :
    place <:+ steps.foldl advance place := by
  induction steps generalizing place with
  | nil => exact List.suffix_refl place
  | cons step rest ih =>
      rw [List.mem_cons, not_or] at unclimbing
      have first := spelled step List.mem_cons_self
      have deeper : place <:+ advance place step := by
        cases step with
        | root => exact absurd rfl first.ne_root
        | current => exact absurd rfl first.ne_current
        | parent => exact absurd rfl unclimbing.1
        | name entry => exact List.suffix_cons _ place
      exact deeper.trans
        (ih (fun other member => spelled other (List.mem_cons_of_mem step member)) unclimbing.2 _)

theorem Within.join {directory base path : Path} (within : directory.Within base)
    (relative : path.isAbsolute = false) (unclimbing : .parent ∉ path.components) :
    (directory.join path).Within base := by
  have steps : .parent ∉ path.steps := by
    rw [components_eq_lead_append_steps, List.mem_append, not_or] at unclimbing
    exact unclimbing.2
  rw [Within, reached_join relative]
  exact List.IsSuffix.trans within (suffix_foldl_advance (fun _ => spelled_of_mem_steps) steps _)

/-- A name that is a step leads down by this step. -/
theorem reached_child {name : String} (spelled : Component.Spelled (.name name))
    (directory : Path) : (directory.child name).reached = .name name :: directory.reached := by
  have alone : ∀ step ∈ [Component.name name], step.Spelled := by simpa using spelled
  have path : ofComponents [.name name] = ⟨name⟩ := by
    simp [ofComponents, Component.text, ofText]
  have components : Path.components ⟨name⟩ = [.name name] := path ▸ components_ofComponents alone
  have relative : Path.isAbsolute ⟨name⟩ = false := by
    rw [← Bool.not_eq_true, isAbsolute_iff_root_mem_components, components]
    simp
  have steps : Path.steps ⟨name⟩ = [.name name] := by
    rw [steps_eq_components, components]
    all_goals simp [components]
  rw [child, reached_join relative, steps]
  rfl

theorem Within.child {directory base : Path} (within : directory.Within base) {name : String}
    (spelled : Component.Spelled (.name name)) : (directory.child name).Within base := by
  rw [Within, reached_child spelled]
  exact List.IsSuffix.trans within (List.suffix_cons _ _)

/-! ## Back to the directory -/

theorem advance_parent (place : List Component) :
    advance place .parent = .parent :: place ∨ ∃ last, place = last :: advance place .parent := by
  simp only [advance]
  split
  · exact .inl rfl
  · exact .inl rfl
  · exact .inr ⟨_, rfl⟩

/-- A path below a place is held by a directory at the place or below it, whatever its last step. -/
theorem Within.parent {path base directory : Path} (within : path.Within base)
    (apart : path.reached ≠ base.reached) (above : path.parent? = some directory) :
    directory.Within base := by
  obtain ⟨last, read⟩ := components_of_parent? above
  have taken : path.reached = advance directory.reached last := by
    rw [reached, read, List.foldl_append]
    rfl
  have under {step : Component} {before : List Component} (added : path.reached = step :: before) :
      base.reached <:+ before := by
    rw [Within, added] at within
    rcases List.suffix_cons_iff.mp within with same | deeper
    · exact absurd (added.trans same.symm) apart
    · exact deeper
  cases last with
  | name entry => exact under taken
  -- Only `.` itself ends in a dot, and it leads where the empty path in front of it leads.
  | current =>
      rw [Within, taken] at within
      exact within
  | root => exact (under taken).trans List.nil_suffix
  -- A path that ends in `..` is held by the directory that it leaves, which lies deeper.
  | parent =>
      rcases advance_parent directory.reached with kept | ⟨first, left⟩
      · exact under (taken.trans kept)
      · rw [← taken] at left
        rw [Within, left]
        exact List.IsSuffix.trans within (List.suffix_cons first _)

end StyleLookup.Path

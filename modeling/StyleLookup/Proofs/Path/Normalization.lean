import StyleLookup.Path.Normal
import StyleLookup.Proofs.Path.Reading

/-!
Normal forms of paths. The steps that are left of a path are names, behind the root or not, and in
front of them at most one `..`. They are spelled out and read back unchanged, so a normal form is
its own normal form.
-/

set_option autoImplicit false

namespace StyleLookup.Path

/-! ## Places -/

/-- The place that the steps of a path lead to, its last step first. -/
def reached (path : Path) : List Component := path.components.foldl advance []

theorem normalize_eq (path : Path) : path.normalize = ofComponents path.reached.reverse := rfl

/-- A place that steps can lead to: names behind one of four starts. -/
inductive Settled : List Component → Prop where
  | start {place : List Component} :
      place ∈ [[], [.root], [.parent], [.parent, .root]] → Settled place
  | name {entry : String} {place : List Component} :
      Component.Spelled (.name entry) → Settled place → Settled (.name entry :: place)

theorem Settled.advance {place : List Component} (settled : Settled place) {step : Component}
    (spelled : step.Spelled) : Settled (advance place step) := by
  cases step with
  | root => exact absurd rfl spelled.ne_root
  | current => exact absurd rfl spelled.ne_current
  | name entry => exact .name spelled settled
  | parent =>
      cases settled with
      | name _ before => exact before
      | start member =>
          apply Settled.start
          simp only [List.mem_cons, List.not_mem_nil, or_false] at member
          rcases member with rfl | rfl | rfl | rfl <;> decide

theorem Settled.foldl {steps place : List Component} (settled : Settled place)
    (spelled : ∀ step ∈ steps, step.Spelled) : Settled (steps.foldl Path.advance place) := by
  induction steps generalizing place with
  | nil => exact settled
  | cons step rest ih =>
      rw [List.foldl_cons]
      exact ih (settled.advance (spelled step List.mem_cons_self))
        fun other member => spelled other (List.mem_cons_of_mem step member)

theorem reached_eq_foldl_steps (path : Path) :
    path.reached = path.steps.foldl advance (path.start.lead.foldl advance []) := by
  rw [reached, components_eq_lead_append_steps, List.foldl_append]

theorem settled_reached (path : Path) : Settled path.reached := by
  rw [reached_eq_foldl_steps]
  apply Settled.foldl _ fun _ => spelled_of_mem_steps
  apply Settled.start
  cases path.start <;> decide

/-! ## Going there again -/

theorem Settled.foldl_reverse {place : List Component} (settled : Settled place) :
    place.reverse.foldl Path.advance [] = place := by
  induction settled with
  | start member =>
      simp only [List.mem_cons, List.not_mem_nil, or_false] at member
      rcases member with rfl | rfl | rfl | rfl <;> decide
  | name _ _ ih => rw [List.reverse_cons, List.foldl_append, ih]; rfl

/-- A place reads as steps behind the root, or behind nothing. -/
theorem Settled.reverse_eq_lead_append {place : List Component} (settled : Settled place) :
    ∃ start steps, start ≠ Start.here ∧ (∀ step ∈ steps, Component.Spelled step) ∧
      place.reverse = start.lead ++ steps := by
  induction settled with
  | start member =>
      have parent : ∀ step ∈ [Component.parent], step.Spelled := by decide
      have nothing : ∀ step ∈ ([] : List Component), step.Spelled := by decide
      simp only [List.mem_cons, List.not_mem_nil, or_false] at member
      rcases member with rfl | rfl | rfl | rfl
      · exact ⟨.relative, [], Start.noConfusion, nothing, rfl⟩
      · exact ⟨.root, [], Start.noConfusion, nothing, rfl⟩
      · exact ⟨.relative, [.parent], Start.noConfusion, parent, rfl⟩
      · exact ⟨.root, [.parent], Start.noConfusion, parent, rfl⟩
  | @name entry place spelled _ ih =>
      obtain ⟨start, steps, undotted, stepsSpelled, whole⟩ := ih
      refine ⟨start, steps ++ [.name entry], undotted, ?_, ?_⟩
      · intro step member
        rcases List.mem_append.mp member with earlier | last
        · exact stepsSpelled step earlier
        · exact List.mem_singleton.mp last ▸ spelled
      · rw [List.reverse_cons, whole, List.append_assoc]

theorem Settled.components_ofComponents {place : List Component} (settled : Settled place) :
    (ofComponents place.reverse).components = place.reverse := by
  obtain ⟨start, steps, undotted, spelled, whole⟩ := settled.reverse_eq_lead_append
  rw [whole, components_ofComponents_lead undotted spelled]

theorem Settled.reached_ofComponents {place : List Component} (settled : Settled place) :
    (ofComponents place.reverse).reached = place := by
  rw [reached, settled.components_ofComponents, settled.foldl_reverse]

theorem Settled.normalize_ofComponents {place : List Component} (settled : Settled place) :
    (ofComponents place.reverse).normalize = ofComponents place.reverse := by
  rw [normalize_eq, settled.reached_ofComponents]

/-- A normal form is read as the steps that it was made of. -/
theorem components_normalize (path : Path) : path.normalize.components = path.reached.reverse :=
  (settled_reached path).components_ofComponents

theorem reached_normalize (path : Path) : path.normalize.reached = path.reached :=
  (settled_reached path).reached_ofComponents

theorem normalize_normalize (path : Path) : path.normalize.normalize = path.normalize :=
  (settled_reached path).normalize_ofComponents

/-- Two paths have the same normal form exactly if they lead to the same place. -/
theorem normalize_eq_iff {path other : Path} :
    path.normalize = other.normalize ↔ path.reached = other.reached := by
  constructor
  · intro same
    rw [← reached_normalize path, same, reached_normalize]
  · intro same
    rw [normalize_eq, normalize_eq, same]

theorem sameAs_iff_of_normal {left right : Path} (leftNormal : left.normalize = left)
    (rightNormal : right.normalize = right) : left.sameAs right = true ↔ left = right := by
  rw [sameAs, beq_iff_eq]
  constructor
  · intro same
    rw [← leftNormal, ← rightNormal, normalize_eq_iff, reached, same, reached]
  · exact congrArg components

/-! ## Joined paths -/

/-- A relative path goes on from the place that its directory leads to. -/
theorem reached_join {directory path : Path} (relative : path.isAbsolute = false) :
    (directory.join path).reached = path.steps.foldl advance directory.reached := by
  by_cases blank : directory.text = []
  · obtain rfl : directory = empty := by rw [← ofText_text directory, blank]; rfl
    rw [join_of_empty blank, reached_eq_foldl_steps]
    have start : path.start.lead.foldl advance [] = empty.reached := by
      rw [start, if_neg (by simp [relative])]
      split <;> rfl
    rw [start]
  · rw [reached, components_join relative blank, List.foldl_append]
    rfl

theorem isAbsolute_iff_root_mem_components {path : Path} :
    path.isAbsolute = true ↔ .root ∈ path.components := by
  have unrooted : .root ∉ path.steps := fun member => (spelled_of_mem_steps member).ne_root rfl
  rw [components_eq_lead_append_steps, List.mem_append, or_iff_left unrooted]
  unfold start
  split
  · simp [*, Start.lead]
  · split <;> simp [*, Start.lead]

/-! ## Directories above a normal path -/

theorem Settled.suffix {place before : List Component} (settled : Settled place)
    (under : before <:+ place) : Settled before := by
  induction settled with
  | start member =>
      apply Settled.start
      simp only [List.mem_cons, List.not_mem_nil, or_false] at member ⊢
      rcases member with rfl | rfl | rfl | rfl
      all_goals simp only [List.suffix_cons_iff, List.suffix_nil] at under
      all_goals grind
  | name spelled settled ih =>
      rcases List.suffix_cons_iff.mp under with rfl | deeper
      · exact .name spelled settled
      · exact ih deeper

/-- The ancestors that are found in front of steps are spelled with some of the first ones. -/
theorem mem_ancestorsBefore_map_text {start : Start} {back : List Component} {directory : Path}
    (spelled : ∀ step ∈ back, step.Spelled) (undotted : start ≠ .here)
    (member : directory ∈ ancestorsBefore start (back.map Component.text)) :
    ∃ before, before <:+ back ∧ directory = assemble start (before.reverse.map Component.text) := by
  induction back with
  | nil => simp [ancestorsBefore, undotted] at member
  | cons step before ih =>
      have heard := (spelled step List.mem_cons_self).isSilent_text
      have beforeSpelled : ∀ other ∈ before, other.Spelled := fun other inside =>
        spelled other (List.mem_cons_of_mem step inside)
      have unsilenced : (before.map Component.text).dropWhile isSilent =
          before.map Component.text := by
        cases before with
        | nil => rfl
        | cons other rest =>
            have heard := (beforeSpelled other List.mem_cons_self).isSilent_text
            exact List.dropWhile_cons_of_neg (by simp [heard])
      -- Every step gives an ancestor, because none of them is silent.
      rw [List.map_cons, ancestorsBefore, heard, if_neg Bool.false_ne_true, unsilenced,
        List.mem_cons] at member
      rcases member with rfl | further
      · exact ⟨before, List.suffix_cons step before, by rw [List.map_reverse]⟩
      · obtain ⟨rest, under, same⟩ := ih beforeSpelled further
        exact ⟨rest, under.trans (List.suffix_cons step before), same⟩

theorem mem_ancestors_ofComponents {start : Start} {steps : List Component} {directory : Path}
    (undotted : start ≠ .here) (spelled : ∀ step ∈ steps, step.Spelled)
    (member : directory ∈ (ofComponents (start.lead ++ steps)).ancestors) :
    ∃ before, before <:+ steps.reverse ∧ directory = ofComponents (start.lead ++ before.reverse) := by
  by_cases nonempty : steps = []
  · subst nonempty
    have unheld : (ofComponents (start.lead ++ [])).ancestors = [] := by
      cases start with
      | here => exact absurd rfl undotted
      | _ => decide
    rw [unheld] at member
    cases member
  · have free := slash_not_mem_of_mem_map_text spelled
    have heard := isSilent_eq_false_of_mem_map_text spelled
    rw [ofComponents_eq_assemble undotted spelled, ancestors, start_assemble undotted free heard,
      bodyPieces_assemble undotted (by simpa using nonempty) free heard, ← List.map_reverse]
      at member
    obtain ⟨before, under, rfl⟩ := mem_ancestorsBefore_map_text
      (fun step inside => spelled step (List.mem_reverse.mp inside)) undotted member
    have beforeSpelled : ∀ step ∈ before.reverse, step.Spelled := fun step inside =>
      spelled step (List.mem_reverse.mp (under.subset (List.mem_reverse.mp inside)))
    exact ⟨before, under, (ofComponents_eq_assemble undotted beforeSpelled).symm⟩

/-- The directories above a normal path are spelled as normal paths themselves. -/
theorem normalize_of_mem_ancestors {path directory : Path} (normal : path.normalize = path)
    (member : directory ∈ path.ancestors) : directory.normalize = directory := by
  have settled := settled_reached path
  obtain ⟨start, steps, undotted, spelled, whole⟩ := settled.reverse_eq_lead_append
  rw [← normal, normalize_eq, whole] at member
  obtain ⟨before, under, rfl⟩ := mem_ancestors_ofComponents undotted spelled member
  have place : path.reached = steps.reverse ++ start.lead.reverse := by
    rw [← List.reverse_reverse path.reached, whole, List.reverse_append]
  have deeper : before ++ start.lead.reverse <:+ path.reached := by
    obtain ⟨rest, same⟩ := under
    exact ⟨rest, by rw [place, ← same, List.append_assoc]⟩
  have fixed := (settled.suffix deeper).normalize_ofComponents
  rwa [List.reverse_append, List.reverse_reverse] at fixed

end StyleLookup.Path

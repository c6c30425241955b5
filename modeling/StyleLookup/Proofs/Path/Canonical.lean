import StyleLookup.Proofs.Path.Climb

/-!
The shape of normal forms. A normal form is spelled as its root, if it has one, then steps up, then
names, with one slash between each two of them. Every normal form has this shape, and a path of this
shape that leads up one level at most is a normal form.
-/

set_option autoImplicit false

namespace StyleLookup.Path

/-- What an entry of a directory may be called. -/
def IsEntryName (entry : String) : Prop := entry ∉ ["", ".", ".."] ∧ '/' ∉ entry.toList

/-- A path that reads as levels up and then names, behind the root or not, and whose spelling is
just these steps, with no dot and no empty piece among them. -/
def Canonical (path : Path) : Prop :=
  ∃ (start : Start) (displacement : Displacement),
    start ≠ .here ∧ (∀ entry ∈ displacement.down, IsEntryName entry) ∧
      path.components = start.lead ++ displacement.steps ∧ path = ofComponents path.components

theorem spelled_name_iff {entry : String} :
    Component.Spelled (.name entry) ↔ IsEntryName entry := by
  have blank : entry.toList = [] ↔ entry = "" := @String.toList_inj entry ""
  have dot : entry.toList = ['.'] ↔ entry = "." := @String.toList_inj entry "."
  have dots : entry.toList = ['.', '.'] ↔ entry = ".." := @String.toList_inj entry ".."
  have read : Component.ofPiece? entry.toList = some (.name entry) ↔ entry ∉ ["", ".", ".."] := by
    simp only [Component.ofPiece?, isSilent, List.isEmpty_iff, Bool.or_eq_true, beq_iff_eq, blank,
      dot, dots, String.ofList_toList, List.mem_cons, List.not_mem_nil, or_false, not_or]
    grind
  exact and_congr_left fun _ => read

/-! ## Places and shapes -/

namespace Displacement

theorem steps_cons (up : Nat) (entry : String) (down : List String) :
    steps ⟨up, entry :: down⟩ = steps ⟨up, down⟩ ++ [.name entry] := by
  simp [steps]

theorem count_parent_steps (displacement : Displacement) :
    displacement.steps.count .parent = displacement.up := by
  have names : (displacement.down.reverse.map Component.name).count .parent = 0 :=
    List.count_eq_zero.mpr (by simp)
  rw [steps, List.count_append, List.count_replicate_self, names, Nat.add_zero]

end Displacement

theorem Settled.exists_displacement {place : List Component} (settled : Settled place) :
    ∃ (start : Start) (displacement : Displacement),
      start ≠ .here ∧ displacement.up ≤ 1 ∧ (∀ entry ∈ displacement.down, IsEntryName entry) ∧
        place.reverse = start.lead ++ displacement.steps := by
  induction settled with
  | start member =>
      have none : ∀ entry ∈ ([] : List String), IsEntryName entry := nofun
      simp only [List.mem_cons, List.not_mem_nil, or_false] at member
      rcases member with rfl | rfl | rfl | rfl
      · exact ⟨.relative, ⟨0, []⟩, nofun, by decide, none, rfl⟩
      · exact ⟨.root, ⟨0, []⟩, nofun, by decide, none, rfl⟩
      · exact ⟨.relative, ⟨1, []⟩, nofun, by decide, none, rfl⟩
      · exact ⟨.root, ⟨1, []⟩, nofun, by decide, none, rfl⟩
  | @name entry place spelled _ ih =>
      obtain ⟨start, ⟨up, down⟩, undotted, few, named, whole⟩ := ih
      refine ⟨start, ⟨up, entry :: down⟩, undotted, few, ?_, ?_⟩
      · exact List.forall_mem_cons.mpr ⟨spelled_name_iff.mp spelled, named⟩
      · rw [List.reverse_cons, whole, Displacement.steps_cons, List.append_assoc]

theorem Settled.of_displacement {start : Start} {up : Nat} {down : List String}
    (undotted : start ≠ .here) (few : up ≤ 1) (named : ∀ entry ∈ down, IsEntryName entry) :
    Settled (start.lead ++ Displacement.steps ⟨up, down⟩).reverse := by
  induction down with
  | nil =>
      apply Settled.start
      rcases Nat.le_one_iff_eq_zero_or_eq_one.mp few with rfl | rfl <;> cases start with
      | here => exact absurd rfl undotted
      | _ => decide
  | cons entry down ih =>
      obtain ⟨last, earlier⟩ := List.forall_mem_cons.mp named
      rw [Displacement.steps_cons, ← List.append_assoc, List.reverse_concat]
      exact .name (spelled_name_iff.mpr last) (ih earlier)

/-! ## Normal forms -/

theorem count_parent_lead_append (start : Start) (steps : List Component) :
    (start.lead ++ steps).count .parent = steps.count .parent := by
  cases start <;> simp [Start.lead]

theorem canonical_normalize (path : Path) :
    path.normalize.Canonical ∧ path.normalize.components.count .parent ≤ 1 := by
  obtain ⟨start, displacement, undotted, few, named, shape⟩ :=
    (settled_reached path).exists_displacement
  have components := (components_normalize path).trans shape
  refine ⟨⟨start, displacement, undotted, named, components, ?_⟩, ?_⟩
  · rw [components_normalize, normalize_eq]
  · rwa [components, count_parent_lead_append, Displacement.count_parent_steps]

theorem normalize_eq_self_iff {path : Path} :
    path.normalize = path ↔ path.Canonical ∧ path.components.count .parent ≤ 1 := by
  constructor
  · intro normal
    rw [← normal]
    exact canonical_normalize path
  · rintro ⟨⟨start, displacement, undotted, named, components, spelling⟩, few⟩
    rw [components, count_parent_lead_append, Displacement.count_parent_steps] at few
    have settled := Settled.of_displacement undotted few named
    rw [← components] at settled
    have normal := settled.normalize_ofComponents
    rwa [List.reverse_reverse, ← spelling] at normal

/-- It makes no difference to the normal form of a joined path whether its directory is normalized
first. -/
theorem normalize_normalize_join (directory path : Path) :
    (directory.normalize.join path).normalize = (directory.join path).normalize := by
  by_cases absolute : path.isAbsolute = true
  · simp only [join, absolute, if_true]
  · have relative : path.isAbsolute = false := Bool.eq_false_iff.mpr absolute
    rw [normalize_eq_iff, reached_join relative, reached_join relative, reached_normalize]

/-- Normal forms are canonical, and each is its own normal form. They are the canonical paths with
one step up at most. A directory leads to the same places as its normal form does. -/
theorem normal_forms_canonical (path : Path) :
    path.normalize.Canonical ∧
      path.normalize.normalize = path.normalize ∧
      (path.normalize = path ↔ path.Canonical ∧ path.components.count .parent ≤ 1) ∧
      ∀ other : Path, (path.join other).normalize = (path.normalize.join other).normalize :=
  ⟨(canonical_normalize path).1, normalize_normalize path, normalize_eq_self_iff,
    fun other => (normalize_normalize_join path other).symm⟩

/-- A step up from the root is kept, and the next one takes it back. -/
example : Path.normalize ⟨"/a/.//../../b/"⟩ = ⟨"/../b"⟩ ∧ Path.normalize ⟨"/../../b"⟩ = ⟨"/b"⟩ := by
  decide +kernel

end StyleLookup.Path

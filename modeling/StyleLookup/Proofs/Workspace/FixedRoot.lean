import Mathlib.Algebra.Order.BigOperators.Group.List
import Mathlib.Algebra.Order.Group.Nat
import StyleLookup.Proofs.Discovery.Containment
import StyleLookup.Proofs.Path.Ancestry

/-!
Fixed workspaces and what lies outside them. Root and source are compared by their normal forms
alone, without the directory from which relative paths are read. For an absolute root this is right.
A relative one is told apart from other places only as far as the source climbs as many levels.
-/

set_option autoImplicit false

namespace StyleLookup.Path

/-! ## Locations -/

/-- Takes one step from a directory, given by its names from `/`, the last one first. Nothing lies
above `/`. -/
def descend (directory : List String) : Component → List String
  | .root => []
  | .current => directory
  | .parent => directory.tail
  | .name entry => entry :: directory

/-- The names from `/` to where an absolute path leads on its text alone, the last one first. -/
def location (path : Path) : List String := path.components.foldl descend []

theorem foldl_descend_ofSteps {steps : List Component} (spelled : ∀ step ∈ steps, step.Spelled)
    (directory : List String) :
    steps.foldl descend directory =
      (Displacement.ofSteps steps).down ++ directory.drop (Displacement.ofSteps steps).up := by
  induction steps using List.reverseRecOn with
  | nil => rfl
  | append_singleton before last ih =>
      have lastSpelled : last.Spelled := spelled last (by simp)
      have onward : Displacement.ofSteps (before ++ [last]) =
          (Displacement.ofSteps before).step last := by simp [Displacement.ofSteps]
      rw [List.foldl_append, ih fun step member => spelled step (List.mem_append_left _ member),
        onward]
      generalize Displacement.ofSteps before = reached
      obtain ⟨up, down⟩ := reached
      cases last with
      | root => exact absurd rfl lastSpelled.ne_root
      | current => exact absurd rfl lastSpelled.ne_current
      | name entry => rfl
      | parent =>
          cases down with
          | nil => simp [descend, Displacement.step]
          | cons entry rest => rfl

theorem text_ne_nil_of_isAbsolute {path : Path} (absolute : path.isAbsolute = true) :
    path.text ≠ [] := by
  obtain ⟨rest, spelling⟩ := isAbsolute_iff.mp absolute
  simp [spelling]

theorem join_of_isAbsolute {path : Path} (absolute : path.isAbsolute = true) (directory : Path) :
    directory.join path = path := if_pos absolute

/-- A relative path leads up from its directory and then down through its own names. -/
theorem location_join {directory path : Path} (absolute : directory.isAbsolute = true)
    (relative : path.isAbsolute = false) :
    (directory.join path).location =
      path.displacement.down ++ directory.location.drop path.climb := by
  rw [location, components_join relative (text_ne_nil_of_isAbsolute absolute), List.foldl_append,
    foldl_descend_ofSteps fun _ => spelled_of_mem_steps]
  rfl

/-! ## Absolute paths -/

def Component.entry? : Component → Option String
  | .name entry => some entry
  | _ => none

/-- On rooted places normalization and the location of a path take the same steps, but for the one
`..` that normalization may keep behind the root. -/
theorem filterMap_entry?_advance {place : List Component} (settled : Settled place)
    (rooted : Rooted place) {step : Component} (spelled : step.Spelled) :
    (advance place step).filterMap Component.entry? =
      descend (place.filterMap Component.entry?) step := by
  cases step with
  | root => exact absurd rfl spelled.ne_root
  | current => exact absurd rfl spelled.ne_current
  | name entry => rfl
  | parent =>
      cases settled with
      | name _ _ => rfl
      | start member =>
          simp only [List.mem_cons, List.not_mem_nil, or_false] at member
          rcases member with rfl | rfl | rfl | rfl
          · cases rooted
          · rfl
          · cases rooted
          · rfl

theorem filterMap_entry?_foldl_advance {steps place : List Component} (settled : Settled place)
    (rooted : Rooted place) (spelled : ∀ step ∈ steps, step.Spelled) :
    (steps.foldl advance place).filterMap Component.entry? =
      steps.foldl descend (place.filterMap Component.entry?) := by
  induction steps generalizing place with
  | nil => rfl
  | cons step rest ih =>
      have first := spelled step List.mem_cons_self
      rw [List.foldl_cons, List.foldl_cons, ← filterMap_entry?_advance settled rooted first]
      exact ih (settled.advance first) (rooted.advance first)
        fun other member => spelled other (List.mem_cons_of_mem step member)

theorem start_eq_root {path : Path} (absolute : path.isAbsolute = true) : path.start = .root :=
  if_pos absolute

theorem location_of_isAbsolute {path : Path} (absolute : path.isAbsolute = true) :
    path.location = path.reached.filterMap Component.entry? := by
  have top : Settled [.root] := .start (by simp)
  rw [location, reached, components_eq_lead_append_steps, start_eq_root absolute,
    List.foldl_append, List.foldl_append]
  exact (filterMap_entry?_foldl_advance top rfl fun _ => spelled_of_mem_steps).symm

theorem rooted_reached_iff {path : Path} : Rooted path.reached ↔ path.isAbsolute = true := by
  constructor
  · intro rooted
    rw [← Bool.not_eq_false]
    intro relative
    have inside : Component.root ∈ path.reached := List.mem_of_getLast? rooted
    rw [reached_of_relative relative] at inside
    simp [List.mem_replicate] at inside
  · intro absolute
    rw [reached_eq_foldl_steps, start_eq_root absolute]
    exact Rooted.foldl rfl fun _ => spelled_of_mem_steps

/-- Below an absolute place there are only absolute paths. -/
theorem Within.isAbsolute {path base : Path} (within : path.Within base)
    (absolute : base.isAbsolute = true) : path.isAbsolute = true := by
  have rooted := rooted_reached_iff.mpr absolute
  obtain ⟨deeper, whole⟩ := within
  rw [← rooted_reached_iff, ← whole, Rooted, List.getLast?_append, rooted]
  rfl

theorem Within.location_suffix {path base : Path} (within : path.Within base)
    (absolute : base.isAbsolute = true) : base.location <:+ path.location := by
  rw [location_of_isAbsolute absolute, location_of_isAbsolute (within.isAbsolute absolute)]
  exact List.IsSuffix.filterMap _ within

/-! ## Relative paths -/

/-- Of relative paths that climb equally, one that is within the other one goes down through its
names. -/
theorem Within.down_suffix {path base : Path} (within : path.Within base)
    (relative : path.isAbsolute = false) (baseRelative : base.isAbsolute = false)
    (level : path.climb = base.climb) :
    base.displacement.down <:+ path.displacement.down := by
  have injective : Function.Injective Component.name := fun _ _ same => Component.name.inj same
  rw [Within, reached_of_relative relative, reached_of_relative baseRelative, level,
    List.suffix_append_self_iff] at within
  exact (List.suffix_map_iff_of_injective injective).mp within

/-- One list can only be the end of another one, both going on with copies of a fresh name, if there
are as many copies in both, or nothing but copies in the first and no fewer in the second. -/
theorem count_of_suffix_replicate {first second : List String} {fresh : String} {firstCount
    secondCount : Nat} (firstFresh : fresh ∉ first) (secondFresh : fresh ∉ second)
    (under : first ++ List.replicate firstCount fresh <:+
      second ++ List.replicate secondCount fresh) :
    firstCount = secondCount ∨ first = [] ∧ firstCount ≤ secondCount := by
  have counts := under.sublist.count_le fresh
  rw [List.count_append, List.count_append, List.count_replicate_self, List.count_replicate_self,
    List.count_eq_zero_of_not_mem firstFresh, List.count_eq_zero_of_not_mem secondFresh,
    Nat.zero_add, Nat.zero_add] at counts
  rcases Nat.eq_or_lt_of_le counts with same | fewer
  · exact .inl same
  · right
    refine ⟨?_, counts⟩
    obtain ⟨surplus, rfl⟩ := Nat.exists_eq_add_of_lt fewer
    rw [Nat.add_assoc, Nat.add_comm firstCount, List.replicate_add, ← List.append_assoc,
      List.suffix_append_self_iff] at under
    -- In front of the copies that both have stands another one, and it is not in the first list.
    rcases List.eq_nil_or_concat' first with none | ⟨before, last, rfl⟩
    · exact none
    · obtain ⟨more, whole⟩ := under
      rw [← List.append_assoc, List.replicate_succ', ← List.append_assoc] at whole
      obtain ⟨-, same⟩ := List.append_inj' whole rfl
      cases same
      simp at firstFresh

/-! ## Telling places apart -/

theorem exists_fresh_name (names : List String) :
    ∃ fresh, Component.Spelled (.name fresh) ∧ fresh ∉ names := by
  let fresh := String.ofList (List.replicate ((names.map String.length).sum + 1) 'a')
  refine ⟨fresh, ?_, ?_⟩
  · constructor
    · simp [fresh, Component.text, Component.ofPiece?, isSilent, List.replicate_succ]
    · simp [fresh, Component.text]
  · intro member
    have bound : fresh.length ≤ (names.map String.length).sum :=
      List.le_sum_of_mem (List.mem_map_of_mem member)
    simp [fresh] at bound

theorem foldl_descend_names (names directory : List String) :
    (names.map Component.name).foldl descend directory = names.reverse ++ directory := by
  induction names generalizing directory with
  | nil => rfl
  | cons entry rest ih => simp [descend, ih]

theorem exists_deep_directory {fresh : String} (spelled : Component.Spelled (.name fresh))
    (depth : Nat) :
    ∃ directory : Path, directory.isAbsolute = true ∧ .parent ∉ directory.components ∧
      directory.location = List.replicate depth fresh := by
  let steps := (List.replicate depth fresh).map Component.name
  have stepsSpelled : ∀ step ∈ steps, step.Spelled := by
    intro step member
    obtain ⟨entry, inside, rfl⟩ := List.mem_map.mp member
    exact List.eq_of_mem_replicate inside ▸ spelled
  have components : (ofComponents (.root :: steps)).components = .root :: steps :=
    @components_ofComponents_lead .root steps Start.noConfusion stepsSpelled
  refine ⟨ofComponents (.root :: steps), ?_, ?_, ?_⟩
  · rw [isAbsolute_iff_root_mem_components, components]
    exact List.mem_cons_self
  · rw [components]
    simp [steps]
  · rw [location, components, List.foldl_cons, foldl_descend_names, List.reverse_replicate]
    exact List.append_nil _

end StyleLookup.Path

namespace StyleLookup

/-- A fixed workspace may hold a source only if the source is found inside its root, from wherever
both are read. -/
def LiesInside (root source : Path) : Prop :=
  ∀ workingDirectory : Path, workingDirectory.isAbsolute = true →
    .parent ∉ workingDirectory.components →
      (workingDirectory.join root).location <:+ (workingDirectory.join source).location

theorem liesInside_of_isAbsolute {root source : Path} (within : source.Within root)
    (absolute : root.isAbsolute = true) : LiesInside root source := by
  intro workingDirectory _ _
  rw [Path.join_of_isAbsolute absolute, Path.join_of_isAbsolute (within.isAbsolute absolute)]
  exact within.location_suffix absolute

theorem liesInside_of_climb {root source : Path} (within : source.Within root)
    (rootRelative : root.isAbsolute = false) (relative : source.isAbsolute = false)
    (level : source.climb = root.climb ∨
      root.displacement.down = [] ∧ source.climb ≤ root.climb) : LiesInside root source := by
  intro workingDirectory absolute _
  rw [Path.location_join absolute rootRelative, Path.location_join absolute relative]
  rcases level with same | ⟨nameless, higher⟩
  · rw [same]
    exact List.suffix_append_self_iff.mpr (within.down_suffix relative rootRelative same)
  · rw [nameless, List.nil_append]
    exact (List.drop_suffix_drop_left _ higher).trans (List.suffix_append _ _)

theorem climb_of_liesInside {root source : Path} (rootRelative : root.isAbsolute = false)
    (inside : LiesInside root source) :
    source.isAbsolute = false ∧ (source.climb = root.climb ∨
      root.displacement.down = [] ∧ source.climb ≤ root.climb) := by
  obtain ⟨fresh, spelled, unused⟩ := Path.exists_fresh_name
    (root.displacement.down ++ source.displacement.down ++ source.location)
  simp only [List.mem_append, not_or] at unused
  obtain ⟨⟨rootFresh, sourceFresh⟩, locationFresh⟩ := unused
  -- A directory deeper than either path climbs, of which neither path has a name.
  obtain ⟨directory, absolute, unclimbing, location⟩ :=
    Path.exists_deep_directory spelled (root.climb + source.climb + 1)
  have under := inside directory absolute unclimbing
  rw [Path.location_join absolute rootRelative, location, List.drop_replicate] at under
  have relative : source.isAbsolute = false := by
    rw [← Bool.not_eq_true]
    intro sourceAbsolute
    rw [Path.join_of_isAbsolute sourceAbsolute] at under
    apply locationFresh
    apply under.subset
    simp
    omega
  refine ⟨relative, ?_⟩
  rw [Path.location_join absolute relative, location, List.drop_replicate] at under
  rcases Path.count_of_suffix_replicate rootFresh sourceFresh under with same | ⟨nameless, fewer⟩
  · left
    omega
  · right
    exact ⟨nameless, by omega⟩

/-- What a fixed workspace holds lies inside its root, from wherever both are read, exactly if the
root is absolute, or both are relative and climb equally, or the root only climbs and the source
climbs no higher. -/
theorem held_inside_iff {fs : Snapshot} {root source resolved : Path}
    (found : ((Workspace.atRoot root).root? fs source).run = some resolved) :
    LiesInside root source ↔
      root.isAbsolute = true ∨
        source.isAbsolute = false ∧ (source.climb = root.climb ∨
          root.displacement.down = [] ∧ source.climb ≤ root.climb) := by
  have within := (Discovery.root?_atRoot_eq_some found).2
  cases rootAbsolute : root.isAbsolute with
  | true => exact iff_of_true (liesInside_of_isAbsolute within rootAbsolute) (.inl rfl)
  | false =>
      constructor
      · intro inside
        exact .inr (climb_of_liesInside rootAbsolute inside)
      · rintro (impossible | ⟨relative, level⟩)
        · cases impossible
        · exact liesInside_of_climb within rootAbsolute relative level

theorem sibling_held_inside :
    ((Workspace.atRoot ⟨"../lib/."⟩).root? Discovery.siteFiles ⟨"./../lib/x/../page.html"⟩).run =
        some ⟨"../lib"⟩ ∧
      LiesInside ⟨"../lib/."⟩ ⟨"./../lib/x/../page.html"⟩ := by
  have found : ((Workspace.atRoot ⟨"../lib/."⟩).root? Discovery.siteFiles
      ⟨"./../lib/x/../page.html"⟩).run = some ⟨"../lib"⟩ := by decide +kernel
  have level : Path.climb ⟨"./../lib/x/../page.html"⟩ = Path.climb ⟨"../lib/."⟩ := by
    decide +kernel
  exact ⟨found, (held_inside_iff found).mpr (.inr ⟨by decide, .inl level⟩)⟩

/-- Two levels up are lost from a source that so seems to lie below the root, and a root whose normal
form has no step left holds every source. -/
theorem outsiders_held :
    ((Workspace.atRoot ⟨"site"⟩).root? Discovery.siteFiles ⟨"../../site/page.html"⟩).run =
        some ⟨"site"⟩ ∧
      ¬ LiesInside ⟨"site"⟩ ⟨"../../site/page.html"⟩ ∧
      ((Workspace.atRoot ⟨"."⟩).root? Discovery.siteFiles ⟨"/other/page.html"⟩).run =
        some ⟨""⟩ ∧
      ¬ LiesInside ⟨"."⟩ ⟨"/other/page.html"⟩ := by
  refine ⟨by decide +kernel, ?_, by decide +kernel, ?_⟩
  · intro inside
    exact absurd (inside ⟨"/w/pages"⟩ (by decide) (by decide)) (by decide +kernel)
  · intro inside
    exact absurd (inside ⟨"/w/pages"⟩ (by decide) (by decide)) (by decide +kernel)

end StyleLookup

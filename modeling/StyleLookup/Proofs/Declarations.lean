import Mathlib.Data.List.Basic
import Mathlib.Data.List.Induction
import StyleLookup.Declarations

/-!
Declarations made of a list of pairs, described at once: each name stands where it came first, with
the value that came last.
-/

set_option autoImplicit false

namespace StyleLookup.Declarations

theorem eq_of_entries {left right : Declarations} (same : left.entries = right.entries) :
    left = right := by
  cases left
  cases right
  cases same
  rfl

theorem ofList_concat (pairs : List (String × String)) (name value : String) :
    ofList (pairs ++ [(name, value)]) = (ofList pairs).set name value := by
  simp [ofList]

@[simp] theorem entries_set (declarations : Declarations) (name value : String) :
    (declarations.set name value).entries = setEntry name value declarations.entries := rfl

theorem names_ofList (pairs : List (String × String)) :
    (ofList pairs).entries.map Prod.fst = (pairs.map Prod.fst).eraseDups := by
  induction pairs using List.reverseRecOn with
  | nil => rfl
  | append_singleton pairs pair ih =>
      rw [ofList_concat, entries_set, names_setEntry, ih, List.map_append, List.eraseDups_append]
      by_cases present : pair.1 ∈ pairs.map Prod.fst
      · simp [List.removeAll, present]
      · simp [List.removeAll, present, List.eraseDups_cons]

theorem get?_ofList (pairs : List (String × String)) (name : String) :
    (ofList pairs).get? name = pairs.reverse.lookup name := by
  induction pairs using List.reverseRecOn with
  | nil => rfl
  | append_singleton pairs pair ih =>
      obtain ⟨key, value⟩ := pair
      rw [ofList_concat, get?_set, ih, List.reverse_concat, List.lookup_cons]
      by_cases same : name = key
      · simp [same]
      · have different : (name == key) = false := beq_eq_false_iff_ne.mpr same
        simp [same, different]

theorem filterMap_lookup_names {entries : List (String × String)}
    (distinct : (entries.map Prod.fst).Nodup) :
    (entries.map Prod.fst).filterMap (fun name =>
      (entries.lookup name).map fun value => (name, value)) = entries := by
  induction entries with
  | nil => rfl
  | cons entry rest ih =>
      obtain ⟨key, value⟩ := entry
      obtain ⟨fresh, restDistinct⟩ := List.nodup_cons.mp distinct
      have elsewhere : ∀ name ∈ rest.map Prod.fst,
          ((key, value) :: rest).lookup name = rest.lookup name := by
        intro name member
        have different : (name == key) = false :=
          beq_eq_false_iff_ne.mpr fun same => fresh (same ▸ member)
        rw [List.lookup_cons, different]
      have later : (rest.map Prod.fst).filterMap (fun name =>
          (((key, value) :: rest).lookup name).map fun value => (name, value)) = rest := by
        conv_rhs => rw [← ih restDistinct]
        apply List.filterMap_congr
        intro name member
        rw [elsewhere name member]
      rw [List.map_cons, List.filterMap_cons, List.lookup_cons_self, Option.map_some, later]

/-- Each name once, in the order of first appearance, with the value that came last. -/
def lastValues (pairs : List (String × String)) : List (String × String) :=
  (pairs.map Prod.fst).eraseDups.filterMap fun name =>
    (pairs.reverse.lookup name).map fun value => (name, value)

/-- Setting pairs one after another leaves each name in its first place with its last value. -/
theorem entries_ofList (pairs : List (String × String)) :
    (ofList pairs).entries = lastValues pairs := by
  rw [← filterMap_lookup_names (ofList pairs).distinct, names_ofList]
  apply List.filterMap_congr
  intro name _
  exact congrArg (Option.map fun value => (name, value)) (get?_ofList pairs name)

theorem mem_of_mem_entries_ofList {pairs : List (String × String)} {entry : String × String}
    (member : entry ∈ (ofList pairs).entries) : entry ∈ pairs := by
  rw [entries_ofList] at member
  obtain ⟨name, -, found⟩ := List.mem_filterMap.mp member
  obtain ⟨value, last, rfl⟩ := Option.map_eq_some_iff.mp found
  obtain ⟨before, after, whole, -⟩ := List.lookup_eq_some_iff.mp last
  rw [← List.mem_reverse, whole]
  exact List.mem_append_right _ List.mem_cons_self

theorem setEntry_of_not_mem {name : String} (value : String) {entries : List (String × String)}
    (fresh : name ∉ entries.map Prod.fst) :
    setEntry name value entries = entries ++ [(name, value)] := by
  induction entries with
  | nil => rfl
  | cons entry rest ih =>
      obtain ⟨key, held⟩ := entry
      obtain ⟨different, later⟩ : name ≠ key ∧ name ∉ rest.map Prod.fst := by
        simpa only [List.map_cons, List.mem_cons, not_or] using fresh
      rw [setEntry, if_neg different.symm, ih later, List.cons_append]

theorem entries_ofList_of_nodup {pairs : List (String × String)}
    (distinct : (pairs.map Prod.fst).Nodup) : (ofList pairs).entries = pairs := by
  induction pairs using List.reverseRecOn with
  | nil => rfl
  | append_singleton pairs pair ih =>
      obtain ⟨name, value⟩ := pair
      rw [List.map_append, List.nodup_append] at distinct
      obtain ⟨earlier, -, apart⟩ := distinct
      have fresh : name ∉ pairs.map Prod.fst := fun member => apart name member name (by simp) rfl
      rw [ofList_concat, entries_set, ih earlier, setEntry_of_not_mem value fresh]

theorem ofList_entries (declarations : Declarations) :
    ofList declarations.entries = declarations :=
  eq_of_entries (entries_ofList_of_nodup declarations.distinct)

end StyleLookup.Declarations

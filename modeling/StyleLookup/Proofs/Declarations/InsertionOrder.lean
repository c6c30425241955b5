import Mathlib.Data.Finset.Card
import StyleLookup.Proofs.Declarations

/-!
Declarations as a map that keeps the order of its names. After any series of settings each name
stands where it was set first, with the value that it was set to last, and two series leave the same
declarations behind exactly if they agree on both.
-/

set_option autoImplicit false

namespace StyleLookup.Declarations

def names (declarations : Declarations) : List String := declarations.entries.map Prod.fst

/-- The names of pairs, each once, in the order in which they appear first. -/
def firstNames (pairs : List (String × String)) : List String := (pairs.map Prod.fst).eraseDups

/-- A name stands beside a value and does not come again. -/
def LastSet (pairs : List (String × String)) (name value : String) : Prop :=
  ∃ before after, pairs = before ++ (name, value) :: after ∧ name ∉ after.map Prod.fst

/-! ## One setting -/

theorem names_set (declarations : Declarations) (name value : String) :
    (declarations.set name value).names =
      if name ∈ declarations.names then declarations.names else declarations.names ++ [name] :=
  names_setEntry name value declarations.entries

theorem getElem?_setEntry_iff {name other : String} (different : other ≠ name)
    (value held : String) (entries : List (String × String)) (position : Nat) :
    (setEntry name value entries)[position]? = some (other, held) ↔
      entries[position]? = some (other, held) := by
  have apart : ¬ name = other := fun same => different same.symm
  induction entries generalizing position with
  | nil => cases position <;> simp [setEntry, apart]
  | cons entry rest ih =>
      obtain ⟨key, before⟩ := entry
      by_cases same : key = name
      · subst same
        cases position <;> simp [setEntry, apart]
      · cases position with
        | zero => simp [setEntry, same]
        | succ position => simpa [setEntry, same] using ih position

/-- A setting leaves every other name at its place and with its value. -/
theorem getElem?_entries_set_iff (declarations : Declarations) {name other : String}
    (different : other ≠ name) (value held : String) (position : Nat) :
    (declarations.set name value).entries[position]? = some (other, held) ↔
      declarations.entries[position]? = some (other, held) :=
  getElem?_setEntry_iff different value held declarations.entries position

/-! ## A series of settings -/

section Series

variable (pairs : List (String × String))

theorem names_eq_firstNames : (ofList pairs).names = firstNames pairs := names_ofList pairs

theorem mem_names_ofList_iff (name : String) :
    name ∈ (ofList pairs).names ↔ name ∈ pairs.map Prod.fst := by
  rw [names_eq_firstNames, firstNames, List.mem_eraseDups]

/-- The names stand in the order in which they were set first. -/
theorem pairwise_idxOf_names :
    (ofList pairs).names.Pairwise fun earlier later =>
      (pairs.map Prod.fst).idxOf earlier < (pairs.map Prod.fst).idxOf later := by
  induction pairs using List.reverseRecOn with
  | nil => exact List.Pairwise.nil
  | append_singleton pairs pair ih =>
      obtain ⟨name, value⟩ := pair
      -- A name that was set before was set first where it was then.
      have kept : ∀ known ∈ (ofList pairs).names,
          ((pairs ++ [(name, value)]).map Prod.fst).idxOf known =
            (pairs.map Prod.fst).idxOf known := by
        intro known member
        rw [List.map_append]
        exact List.idxOf_append_of_mem ((mem_names_ofList_iff pairs known).mp member)
      have before : (ofList pairs).names.Pairwise fun earlier later =>
          ((pairs ++ [(name, value)]).map Prod.fst).idxOf earlier <
            ((pairs ++ [(name, value)]).map Prod.fst).idxOf later := by
        apply ih.imp_of_mem
        intro earlier later earlierMember laterMember first
        rwa [kept earlier earlierMember, kept later laterMember]
      rw [ofList_concat, names_set]
      split
      · exact before
      · rename_i fresh
        refine List.pairwise_append.mpr ⟨before, List.pairwise_singleton _ _, ?_⟩
        intro known member last lastMember
        obtain rfl := List.mem_singleton.mp lastMember
        have inside : (pairs.map Prod.fst).idxOf known < (pairs.map Prod.fst).length :=
          List.idxOf_lt_length_of_mem ((mem_names_ofList_iff pairs known).mp member)
        have absent : last ∉ pairs.map Prod.fst := mt (mem_names_ofList_iff pairs last).mpr fresh
        rw [kept known member, List.map_append, List.idxOf_append_of_notMem absent]
        omega

theorem forall_bne_fst_iff (name : String) :
    (∀ pair ∈ pairs, (name != pair.1) = true) ↔ name ∉ pairs.map Prod.fst := by
  simp only [bne_iff_ne, List.mem_map, not_exists, not_and]
  exact forall₂_congr fun pair _ => not_congr eq_comm

theorem get?_ofList_eq_some_iff (name value : String) :
    (ofList pairs).get? name = some value ↔ LastSet pairs name value := by
  rw [get?_ofList, List.lookup_eq_some_iff]
  constructor
  · rintro ⟨later, earlier, whole, unset⟩
    refine ⟨earlier.reverse, later.reverse, ?_, ?_⟩
    · simpa using congrArg List.reverse whole
    · rw [List.map_reverse, List.mem_reverse]
      exact (forall_bne_fst_iff later name).mp unset
  · rintro ⟨before, after, rfl, unset⟩
    refine ⟨after.reverse, before.reverse, by simp, (forall_bne_fst_iff _ name).mpr ?_⟩
    rwa [List.map_reverse, List.mem_reverse]

theorem get?_ofList_eq_none_iff (name : String) :
    (ofList pairs).get? name = none ↔ name ∉ pairs.map Prod.fst := by
  rw [get?_ofList, List.lookup_eq_none_iff, forall_bne_fst_iff, List.map_reverse, List.mem_reverse]

theorem entries_ofList_eq_filterMap :
    (ofList pairs).entries = (firstNames pairs).filterMap fun name =>
      ((ofList pairs).get? name).map fun value => (name, value) := by
  simp only [entries_ofList, lastValues, get?_ofList, firstNames]

theorem mem_entries_ofList_iff (name value : String) :
    (name, value) ∈ (ofList pairs).entries ↔ LastSet pairs name value := by
  rw [← get?_ofList_eq_some_iff, entries_ofList_eq_filterMap, List.mem_filterMap]
  constructor
  · rintro ⟨key, -, found⟩
    obtain ⟨held, last, same⟩ := Option.map_eq_some_iff.mp found
    obtain ⟨rfl, rfl⟩ := Prod.mk.inj same
    exact last
  · intro last
    have member : name ∈ pairs.map Prod.fst := by
      by_contra unset
      rw [(get?_ofList_eq_none_iff pairs name).mpr unset] at last
      cases last
    exact ⟨name, List.mem_eraseDups.mpr member, by rw [last, Option.map_some]⟩

theorem size_ofList : (ofList pairs).size = (pairs.map Prod.fst).toFinset.card := by
  have sameNames : (ofList pairs).names.toFinset = (pairs.map Prod.fst).toFinset := by
    ext name
    rw [List.mem_toFinset, List.mem_toFinset, mem_names_ofList_iff]
  have distinct : (ofList pairs).names.Nodup := (ofList pairs).distinct
  rw [← sameNames, List.toFinset_card_of_nodup distinct, names, List.length_map, size]

/-- Two series leave the same behind exactly if they agree on the order of the names and on the
values that were set last. -/
theorem ofList_eq_iff (others : List (String × String)) :
    ofList pairs = ofList others ↔
      firstNames pairs = firstNames others ∧
        ∀ name value, LastSet pairs name value ↔ LastSet others name value := by
  constructor
  · intro same
    refine ⟨?_, fun name value => ?_⟩
    · rw [← names_eq_firstNames, same, names_eq_firstNames]
    · rw [← get?_ofList_eq_some_iff, same, get?_ofList_eq_some_iff]
  · rintro ⟨sameNames, sameValues⟩
    have sameAnswers : (ofList pairs).get? = (ofList others).get? := by
      funext name
      apply Option.ext
      intro value
      rw [get?_ofList_eq_some_iff, get?_ofList_eq_some_iff, sameValues]
    apply eq_of_entries
    rw [entries_ofList_eq_filterMap, entries_ofList_eq_filterMap, sameNames, sameAnswers]

end Series

/-- Setting pairs one after another makes a map that keeps the order of its names. Each name that
was set stands in it once, in the order of the first settings and with the value of its last one,
and only such names are found. A further setting moves no other name and changes no other value. -/
theorem ofList_insertion_ordered (pairs : List (String × String)) :
    (ofList pairs).names.Nodup ∧
      (∀ name, name ∈ (ofList pairs).names ↔ name ∈ pairs.map Prod.fst) ∧
      ((ofList pairs).names.Pairwise fun earlier later =>
        (pairs.map Prod.fst).idxOf earlier < (pairs.map Prod.fst).idxOf later) ∧
      (∀ name value, (name, value) ∈ (ofList pairs).entries ↔ LastSet pairs name value) ∧
      (∀ name value, (ofList pairs).get? name = some value ↔ LastSet pairs name value) ∧
      (∀ name, (ofList pairs).get? name = none ↔ name ∉ pairs.map Prod.fst) ∧
      (∀ name, (ofList pairs).contains name = true ↔
        ∃ value, (ofList pairs).get? name = some value) ∧
      (ofList pairs).size = (pairs.map Prod.fst).toFinset.card ∧
      (∀ name value other, other ≠ name → ∀ (position : Nat) (held : String),
        ((ofList pairs).set name value).entries[position]? = some (other, held) ↔
          (ofList pairs).entries[position]? = some (other, held)) ∧
      ∀ others, ofList pairs = ofList others ↔
        firstNames pairs = firstNames others ∧
          ∀ name value, LastSet pairs name value ↔ LastSet others name value := by
  refine ⟨(ofList pairs).distinct, mem_names_ofList_iff pairs, pairwise_idxOf_names pairs,
    mem_entries_ofList_iff pairs, get?_ofList_eq_some_iff pairs, get?_ofList_eq_none_iff pairs,
    fun name => Option.isSome_iff_exists, size_ofList pairs, ?_, ofList_eq_iff pairs⟩
  intro name value other different position held
  exact getElem?_entries_set_iff (ofList pairs) different value held position

/-- A name that is set again keeps its place. -/
example : (ofList [("color", "red"), ("margin", "0"), ("color", "blue")]).entries =
    [("color", "blue"), ("margin", "0")] := by decide

end StyleLookup.Declarations

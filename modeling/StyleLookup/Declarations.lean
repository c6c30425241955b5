/-!
The declarations of a rule: a map from property names to values that keeps the order in which the
names were first set.
-/

set_option autoImplicit false

namespace StyleLookup

/-- Names and values in order, no name twice. -/
structure Declarations where
  entries : List (String × String)
  distinct : (entries.map Prod.fst).Nodup
deriving DecidableEq

namespace Declarations

/-- The entries with a name set to a value: in its place if the name is there, at the end
otherwise. -/
def setEntry (name value : String) : List (String × String) → List (String × String)
  | [] => [(name, value)]
  | (key, held) :: rest =>
      if key = name then (key, value) :: rest else (key, held) :: setEntry name value rest

theorem names_setEntry (name value : String) (entries : List (String × String)) :
    (setEntry name value entries).map Prod.fst =
      if name ∈ entries.map Prod.fst then entries.map Prod.fst
      else entries.map Prod.fst ++ [name] := by
  induction entries with
  | nil => simp [setEntry]
  | cons entry rest ih =>
      obtain ⟨key, held⟩ := entry
      by_cases same : key = name
      · simp [setEntry, same]
      · have other : ¬ name = key := fun equal => same equal.symm
        simp only [setEntry, same, if_false, List.map_cons, ih, List.mem_cons, other, false_or]
        split <;> simp

theorem nodup_setEntry (name value : String) {entries : List (String × String)}
    (distinct : (entries.map Prod.fst).Nodup) :
    ((setEntry name value entries).map Prod.fst).Nodup := by
  rw [names_setEntry]
  split
  · exact distinct
  · rename_i absent
    rw [List.nodup_append]
    refine ⟨distinct, by simp, ?_⟩
    intro left leftMember right rightMember equal
    rw [List.mem_singleton] at rightMember
    exact absent (rightMember ▸ equal ▸ leftMember)

def empty : Declarations := ⟨[], List.nodup_nil⟩

instance : Inhabited Declarations := ⟨empty⟩

/-- Sets a property. A property that is there already keeps its place and takes the new value. -/
def set (declarations : Declarations) (name value : String) : Declarations :=
  ⟨setEntry name value declarations.entries, nodup_setEntry name value declarations.distinct⟩

def get? (declarations : Declarations) (name : String) : Option String :=
  declarations.entries.lookup name

def contains (declarations : Declarations) (name : String) : Bool :=
  (declarations.get? name).isSome

theorem lookup_setEntry (name value other : String) (entries : List (String × String)) :
    (setEntry name value entries).lookup other =
      if other = name then some value else entries.lookup other := by
  induction entries with
  | nil =>
      by_cases same : other = name
      · simp [setEntry, same]
      · have elsewhere : (other == name) = false := beq_eq_false_iff_ne.mpr same
        simp [setEntry, List.lookup_cons, same, elsewhere]
  | cons entry rest ih =>
      obtain ⟨key, held⟩ := entry
      by_cases present : key = name
      · subst present
        by_cases same : other = key
        · simp [setEntry, same]
        · have elsewhere : (other == key) = false := beq_eq_false_iff_ne.mpr same
          simp [setEntry, List.lookup_cons, same, elsewhere]
      · by_cases here : other = key
        · subst here
          simp [setEntry, present]
        · have elsewhere : (other == key) = false := beq_eq_false_iff_ne.mpr here
          simp [setEntry, List.lookup_cons, present, elsewhere, ih]

/-- A property that is set has the value that was set; the others keep theirs. -/
theorem get?_set (declarations : Declarations) (name value other : String) :
    (declarations.set name value).get? other =
      if other = name then some value else declarations.get? other :=
  lookup_setEntry name value other declarations.entries

def size (declarations : Declarations) : Nat := declarations.entries.length

def isEmpty (declarations : Declarations) : Bool := declarations.entries.isEmpty

def ofList (pairs : List (String × String)) : Declarations :=
  pairs.foldl (fun declarations pair => declarations.set pair.1 pair.2) empty

end Declarations

end StyleLookup

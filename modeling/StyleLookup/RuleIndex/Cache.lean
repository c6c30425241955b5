import StyleLookup.Path.Encoding
import StyleLookup.StyleRule.Basic

/-!
The cache of parsed style sheets.
-/

set_option autoImplicit false

namespace StyleLookup

/-- What an entry of the cache is filed under: a style sheet and the source file that asked for it,
read as text as they are spelled, with backslashes taken for slashes. -/
structure CacheKey where
  styleFile : String
  sourceFile : String
deriving DecidableEq, Repr

namespace CacheKey

def unifySeparators (spelling : String) : String :=
  String.ofList (spelling.toList.map fun c => if c = '\\' then '/' else c)

def ofPaths (style source : Path) (encoding : Path.Encoding := .text) : CacheKey :=
  ⟨unifySeparators (encoding.decode style), unifySeparators (encoding.decode source)⟩

end CacheKey

/-- The rules of style sheets that have been read, each under one key. A sheet that could not be
read is kept with no rules. -/
structure RuleCache where
  entries : List (CacheKey × List StyleRule)
deriving DecidableEq

namespace RuleCache

def empty : RuleCache := ⟨[]⟩

def get? (cache : RuleCache) (key : CacheKey) : Option (List StyleRule) := cache.entries.lookup key

def contains (cache : RuleCache) (key : CacheKey) : Bool := (cache.get? key).isSome

/-- Files rules under a key, in place of what was there. -/
def insert (cache : RuleCache) (key : CacheKey) (rules : List StyleRule) : RuleCache :=
  ⟨cache.entries.filter (fun entry => entry.1 != key) ++ [(key, rules)]⟩

theorem lookup_filter_ne {key other : CacheKey} (different : other ≠ key)
    (entries : List (CacheKey × List StyleRule)) :
    (entries.filter fun entry => entry.1 != key).lookup other = entries.lookup other := by
  induction entries with
  | nil => rfl
  | cons entry rest ih =>
      obtain ⟨filed, rules⟩ := entry
      by_cases same : filed = key
      · subst same
        have elsewhere : (other == filed) = false := beq_eq_false_iff_ne.mpr different
        simpa [List.lookup_cons, elsewhere] using ih
      · have kept : (filed != key) = true := bne_iff_ne.mpr same
        simp only [List.filter_cons, kept, if_true, List.lookup_cons, ih]

theorem get?_insert_same (cache : RuleCache) (key : CacheKey) (rules : List StyleRule) :
    (cache.insert key rules).get? key = some rules := by
  have absent : (cache.entries.filter fun entry => entry.1 != key).lookup key = none := by
    rw [List.lookup_eq_none_iff]
    intro entry member
    have kept : entry.1 ≠ key := bne_iff_ne.mp (List.mem_filter.mp member).2
    exact bne_iff_ne.mpr kept.symm
  simp only [insert, get?, List.lookup_append, absent, Option.none_or, List.lookup_cons_self]

theorem get?_insert_other (cache : RuleCache) {key other : CacheKey} (different : other ≠ key)
    (rules : List StyleRule) : (cache.insert key rules).get? other = cache.get? other := by
  have elsewhere : (other == key) = false := beq_eq_false_iff_ne.mpr different
  simp only [insert, get?, List.lookup_append, lookup_filter_ne different, List.lookup_cons,
    elsewhere, List.lookup_nil, Option.or_none]

def size (cache : RuleCache) : Nat := cache.entries.length

def isEmpty (cache : RuleCache) : Bool := cache.entries.isEmpty

end RuleCache

end StyleLookup

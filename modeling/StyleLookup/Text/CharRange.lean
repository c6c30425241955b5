/-!
Sorted tables of code point ranges, the form in which the character classes of this library are
kept. A class is asked with a scan that stops at the first range above the character, so ASCII
text stays cheap.
-/

set_option autoImplicit false

namespace StyleLookup.Text

/-- Whether a code point lies in one of the ranges, both ends included. The ranges stand in
increasing order, so the search ends at the first one that starts above the code point. -/
def inRanges (point : Nat) : List (Nat × Nat) → Bool
  | [] => false
  | (first, last) :: rest =>
      if point < first then false else if point ≤ last then true else inRanges point rest

/-- The ranges increase and leave at least one code point between neighbours. -/
def RangesSorted (ranges : List (Nat × Nat)) : Prop :=
  (∀ range ∈ ranges, range.1 ≤ range.2) ∧ ranges.Pairwise fun lower upper => lower.2 < upper.1

instance (ranges : List (Nat × Nat)) : Decidable (RangesSorted ranges) :=
  inferInstanceAs (Decidable (_ ∧ _))

/-- In a sorted table the early stop loses nothing: the search finds exactly the members. -/
theorem inRanges_iff {point : Nat} {ranges : List (Nat × Nat)} (sorted : RangesSorted ranges) :
    inRanges point ranges = true ↔ ∃ range ∈ ranges, range.1 ≤ point ∧ point ≤ range.2 := by
  induction ranges with
  | nil => simp [inRanges]
  | cons range rest ih =>
      obtain ⟨first, last⟩ := range
      obtain ⟨bounded, ordered⟩ := sorted
      have restSorted : RangesSorted rest :=
        ⟨fun range member => bounded range (List.mem_cons_of_mem _ member),
          (List.pairwise_cons.mp ordered).2⟩
      have above := (List.pairwise_cons.mp ordered).1
      have firstBound := bounded (first, last) List.mem_cons_self
      simp only [inRanges, List.mem_cons, exists_eq_or_imp]
      by_cases below : point < first
      · simp only [below, if_true, Bool.false_eq_true, false_iff, not_or, not_exists, not_and]
        refine ⟨fun inside => absurd inside (by omega), fun range member start => ?_⟩
        have := above range member
        simp only at this firstBound
        omega
      · by_cases inside : point ≤ last
        · simp [below, inside, Nat.le_of_not_lt below]
        · simp [below, inside, ih restSorted]

end StyleLookup.Text

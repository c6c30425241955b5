import StyleLookup.Proofs.Text.Lowercase

/-!
What lower-casing makes of a single character, whichever of all characters it is: one that
lower-casing leaves alone from then on, white space exactly if it was white space, and no mark of
ASCII that was not there.
-/

set_option autoImplicit false

namespace StyleLookup.Text

/-! ## The runs of the table -/

namespace CaseRun

/-- Where a run sends its first point. -/
def low (run : CaseRun) : Nat := (run.first + run.shift).toNat

/-- Where a run sends its last point. -/
def high (run : CaseRun) : Nat := (run.last + run.shift).toNat

-- Tests for tables, as Boolean functions so that each pair of runs is checked quickly.

/-- Whether a run sends its points beside those of the other run: in front of them, behind them or
in between. -/
def landsBeside (run other : CaseRun) : Bool :=
  Nat.blt run.high other.first || Nat.blt other.last run.low ||
    (other.step == 2 && (run.step == 2 || run.first == run.last) &&
      (run.low + other.first) % 2 == 1)

def landsBesidePoint (run : CaseRun) (point : Nat) : Bool :=
  Nat.blt run.high point || Nat.blt point run.low

/-- Whether a run sends its points to characters, to small letters in ASCII, to no white space, and
not to the one capital letter that no table moves. -/
def lowers (run : CaseRun) : Bool :=
  0 ≤ run.first + run.shift &&
    (Nat.blt run.high 0xD800 || (Nat.blt 0xDFFF run.low && Nat.blt run.high 0x110000)) &&
    (Nat.ble 0x80 run.low || (Nat.ble 0x61 run.low && Nat.ble run.high 0x7A)) &&
    ('İ'.toNat :: blankPoints).all run.landsBesidePoint

variable {run other : CaseRun} {point image : Nat}

theorem image?_eq_some_iff : run.image? point = some image ↔
    (run.first ≤ point ∧ point ≤ run.last ∧ (point - run.first) % run.step = 0) ∧
      (point + run.shift).toNat = image := by
  rw [image?, Option.ite_none_right_eq_some, Option.some_inj]

theorem image_eq_of_lowers (lowers : run.lowers = true)
    (sent : run.image? point = some image) :
    (image : Int) - run.low = point - run.first ∧ run.low ≤ image ∧ image ≤ run.high := by
  obtain ⟨⟨start, stop, -⟩, rfl⟩ := image?_eq_some_iff.mp sent
  simp only [CaseRun.lowers, Bool.and_eq_true, decide_eq_true_eq] at lowers
  obtain ⟨⟨⟨positive, -⟩, -⟩, -⟩ := lowers
  simp only [low, high]
  omega

theorem image?_eq_none_of_landsBeside (lowers : run.lowers = true)
    (beside : run.landsBeside other = true) (sent : run.image? point = some image) :
    other.image? image = none := by
  obtain ⟨moved, above, below⟩ := image_eq_of_lowers lowers sent
  obtain ⟨⟨start, stop, onStep⟩, -⟩ := image?_eq_some_iff.mp sent
  simp only [landsBeside, Bool.or_eq_true, Bool.and_eq_true, Nat.blt_eq, beq_iff_eq] at beside
  rw [image?, if_neg]
  rintro ⟨otherStart, otherStop, otherStep⟩
  rcases beside with (front | behind) | ⟨⟨two, alone⟩, odd⟩
  · omega
  · omega
  · -- Both progressions go by twos, and they start at different parities.
    rw [two] at otherStep
    rcases alone with stepToo | single
    · rw [stepToo] at onStep
      omega
    · omega

end CaseRun

theorem lowers_of_mem_lowerRuns {run : CaseRun} (listed : run ∈ lowerRuns) : run.lowers = true := by
  have table : lowerRuns.all CaseRun.lowers = true := by decide +kernel
  exact List.all_eq_true.mp table run listed

theorem landsBeside_of_mem_lowerRuns {run other : CaseRun} (listed : run ∈ lowerRuns)
    (known : other ∈ lowerRuns) : run.landsBeside other = true := by
  have table : (lowerRuns.all fun run => lowerRuns.all run.landsBeside) = true := by decide +kernel
  exact List.all_eq_true.mp (List.all_eq_true.mp table run listed) other known

theorem imageIn_eq_self {point : Nat} {runs : List CaseRun}
    (unmoved : ∀ run ∈ runs, run.image? point = none) : imageIn point runs = point := by
  induction runs with
  | nil => rfl
  | cons run rest ih =>
      obtain ⟨outside, later⟩ := List.forall_mem_cons.mp unmoved
      simp only [imageIn, outside, Option.getD_none, ih later, ite_self]

theorem imageIn_cases (point : Nat) (runs : List CaseRun) :
    imageIn point runs = point ∨ ∃ run ∈ runs, run.image? point = some (imageIn point runs) := by
  induction runs with
  | nil => exact .inl rfl
  | cons run rest ih =>
      rw [imageIn]
      split
      · exact .inl rfl
      · split
        · cases sent : run.image? point with
          | none => exact .inl rfl
          | some image => exact .inr ⟨run, List.mem_cons_self, sent⟩
        · exact ih.imp_right fun ⟨other, listed, sent⟩ =>
            ⟨other, List.mem_cons_of_mem run listed, sent⟩

/-! ## The characters that the table moves -/

/-- A character that lower-casing leaves as it is, wherever it stands. -/
def IsLower (c : Char) : Prop := simpleLower c = c ∧ c ≠ 'Σ' ∧ c ≠ 'İ'

instance (c : Char) : Decidable (IsLower c) := inferInstanceAs (Decidable (_ ∧ _))

/-- What capital letters become: no capital letter, no white space and no mark of ASCII. -/
structure IsSmall (c : Char) : Prop where
  lower : IsLower c
  ink : isBlank c = false
  letter : c.isAlpha = true ∨ 0x80 ≤ c.toNat

theorem isSmall_of_image? {run : CaseRun} (listed : run ∈ lowerRuns) {point : Nat} {c : Char}
    (sent : run.image? point = some c.toNat) : IsSmall c := by
  have lowers := lowers_of_mem_lowerRuns listed
  have unmoved (other : CaseRun) (known : other ∈ lowerRuns) : other.image? c.toNat = none :=
    CaseRun.image?_eq_none_of_landsBeside lowers (landsBeside_of_mem_lowerRuns listed known) sent
  obtain ⟨-, above, below⟩ := CaseRun.image_eq_of_lowers lowers sent
  simp only [CaseRun.lowers, Bool.and_eq_true, Bool.or_eq_true, List.all_eq_true,
    CaseRun.landsBesidePoint, Nat.blt_eq, Nat.ble_eq] at lowers
  obtain ⟨⟨-, letter⟩, apart⟩ := lowers
  have elsewhere {point : Nat} (avoided : point ∈ 'İ'.toNat :: blankPoints) :
      c.toNat ≠ point := by
    have := apart point avoided
    omega
  refine ⟨⟨?_, ?_, ?_⟩, ?_, ?_⟩
  · rw [simpleLower, imageIn_eq_self unmoved, Char.ofNat_toNat]
  · rintro rfl
    have moved : ∃ run ∈ lowerRuns, run.image? 'Σ'.toNat ≠ none := by decide +kernel
    obtain ⟨other, known, moves⟩ := moved
    exact moves (unmoved other known)
  · rintro rfl
    exact elsewhere List.mem_cons_self rfl
  · rw [← Bool.not_eq_true]
    intro blank
    exact elsewhere (List.mem_cons_of_mem _ (mem_blankPoints blank)) rfl
  · rcases letter with beyond | ⟨fromA, toZ⟩
    · exact .inr (Nat.le_trans beyond above)
    · have small : 0x61 ≤ c.toNat → c.toNat ≤ 0x7A → c.isAlpha = true :=
        ascii_forall c (by omega) (by decide +kernel)
      exact .inl (small (by omega) (by omega))

theorem isValidChar_of_image? {run : CaseRun} (listed : run ∈ lowerRuns) {point image : Nat}
    (sent : run.image? point = some image) : image.isValidChar := by
  have lowers := lowers_of_mem_lowerRuns listed
  obtain ⟨-, above, below⟩ := CaseRun.image_eq_of_lowers lowers sent
  simp only [CaseRun.lowers, Bool.and_eq_true, Bool.or_eq_true, Nat.blt_eq] at lowers
  obtain ⟨⟨⟨-, range⟩, -⟩, -⟩ := lowers
  rw [Nat.isValidChar]
  omega

theorem simpleLower_cases (c : Char) : simpleLower c = c ∨ IsSmall (simpleLower c) := by
  rcases imageIn_cases c.toNat lowerRuns with same | ⟨run, listed, sent⟩
  · left
    rw [simpleLower, same, Char.ofNat_toNat]
  · right
    have point : (simpleLower c).toNat = imageIn c.toNat lowerRuns := by
      rw [simpleLower, Char.ofNat, dif_pos (isValidChar_of_image? listed sent)]
      rfl
    exact isSmall_of_image? listed (point ▸ sent)

/-! ## The characters that one character becomes -/

section LowerAt

variable {c d : Char} {before after : List Char}

/-- The characters that only the two special cases of lower-casing give. -/
def specialLower : List Char := ['ς', 'σ', 'i', '\u0307']

theorem mem_lowerAt_cases (member : d ∈ lowerAt before c after) :
    d ∈ specialLower ∨ (c ≠ 'Σ' ∧ c ≠ 'İ' ∧ d = simpleLower c) := by
  unfold lowerAt at member
  split at member
  · left
    rw [List.mem_singleton] at member
    split at member <;> simp [specialLower, member]
  · split at member
    · left
      rw [specialLower]
      exact List.mem_cons_of_mem _ (List.mem_cons_of_mem _ member)
    · rename_i notSigma notDotted
      exact .inr ⟨notSigma, notDotted, List.mem_singleton.mp member⟩

theorem isSmall_of_mem_specialLower (special : d ∈ specialLower) : IsSmall d := by
  have cased : IsLower d ∧ isBlank d = false ∧ (d.isAlpha = true ∨ 0x80 ≤ d.toNat) := by
    simp only [specialLower, List.mem_cons, List.not_mem_nil, or_false] at special
    rcases special with rfl | rfl | rfl | rfl <;> decide +kernel
  obtain ⟨lower, ink, letter⟩ := cased
  exact ⟨lower, ink, letter⟩

/-- A character in lower case is the character itself, if it is in lower case already, or one of
those that capital letters become. -/
theorem isLower_or_isSmall_of_mem_lowerAt (member : d ∈ lowerAt before c after) :
    (d = c ∧ IsLower c) ∨ IsSmall d := by
  rcases mem_lowerAt_cases member with special | ⟨notSigma, notDotted, rfl⟩
  · exact .inr (isSmall_of_mem_specialLower special)
  · rcases simpleLower_cases c with same | small
    · exact .inl ⟨same, same, notSigma, notDotted⟩
    · exact .inr small

theorem isLower_of_mem_lowerAt (member : d ∈ lowerAt before c after) : IsLower d := by
  rcases isLower_or_isSmall_of_mem_lowerAt member with ⟨rfl, lower⟩ | small
  · exact lower
  · exact small.lower

theorem lowerAt_of_isLower (lower : IsLower c) (before after : List Char) :
    lowerAt before c after = [c] := by
  obtain ⟨same, notSigma, notDotted⟩ := lower
  rw [lowerAt, if_neg notSigma, if_neg notDotted, same]

/-- Marks of ASCII come from themselves only. -/
theorem eq_of_mem_lowerAt (member : d ∈ lowerAt before c after) (ascii : d.toNat < 0x80)
    (mark : d.isAlpha = false) : d = c := by
  rcases isLower_or_isSmall_of_mem_lowerAt member with ⟨same, -⟩ | small
  · exact same
  · rcases small.letter with letter | beyond
    · rw [letter] at mark
      cases mark
    · omega

theorem isLower_of_isBlank (blank : isBlank c = true) : IsLower c := by
  have table : ∀ point ∈ blankPoints, IsLower (Char.ofNat point) := by decide +kernel
  have lower := table c.toNat (mem_blankPoints blank)
  rwa [Char.ofNat_toNat] at lower

theorem isBlank_of_mem_lowerAt (member : d ∈ lowerAt before c after) : isBlank d = isBlank c := by
  cases blank : isBlank c with
  | true =>
      rw [lowerAt_of_isLower (isLower_of_isBlank blank), List.mem_singleton] at member
      rw [member, blank]
  | false =>
      rcases isLower_or_isSmall_of_mem_lowerAt member with ⟨rfl, -⟩ | small
      · exact blank
      · exact small.ink

theorem lowerAt_ne_nil (before : List Char) (c : Char) (after : List Char) :
    lowerAt before c after ≠ [] := by
  unfold lowerAt
  split
  · simp
  · split <;> simp

/-- The neighbourhood of a character decides at most which sigma it becomes. -/
theorem length_lowerAt (before : List Char) (c : Char) (after other rest : List Char) :
    (lowerAt before c after).length = (lowerAt other c rest).length := by
  unfold lowerAt
  split
  · rfl
  · split <;> rfl

end LowerAt

end StyleLookup.Text

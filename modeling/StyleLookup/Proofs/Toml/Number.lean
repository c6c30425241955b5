import StyleLookup.Text.Decimal
import StyleLookup.Toml.Number

/-!
Whole numbers of TOML documents are read as they were written. A line feed ends the number, and its
digits are taken neither for a date nor for a time.
-/

set_option autoImplicit false

namespace StyleLookup

namespace Text

theorem decimal_ne_nil (number : Nat) : decimal number ≠ [] := Nat.toDigits_ne_nil

theorem isDigit_of_mem_decimal (number : Nat) : ∀ c ∈ decimal number, c.isDigit = true :=
  fun _ member => Nat.isDigit_of_mem_toDigits (by decide) (by decide) member

theorem head?_decimal_ne_zero {number : Nat} (positive : 0 < number) :
    (decimal number).head? ≠ some '0' := by
  induction number using Nat.strongRecOn with
  | ind number ih =>
      by_cases small : number < 10
      · rw [decimal, Nat.toDigits_of_lt_base small]
        have single : ∀ digit < 10, 0 < digit → [Nat.digitChar digit].head? ≠ some '0' := by decide
        exact single number small positive
      · have shorter := ih (number / 10) (by omega) (by omega)
        rw [decimal] at shorter
        rw [decimal, Nat.toDigits_of_base_le (by decide) (by omega)]
        cases start : Nat.toDigits 10 (number / 10) with
        | nil => exact absurd start Nat.toDigits_ne_nil
        | cons c digits =>
            rw [start] at shorter
            exact shorter

theorem exists_decimal_eq_cons (number : Nat) :
    ∃ c digits, decimal number = c :: digits ∧ c.isDigit = true ∧ (0 < number → c ≠ '0') := by
  cases written : decimal number with
  | nil => exact absurd written (decimal_ne_nil number)
  | cons c digits =>
      refine ⟨c, digits, rfl, isDigit_of_mem_decimal number c (written ▸ List.mem_cons_self), ?_⟩
      rintro positive rfl
      exact head?_decimal_ne_zero positive (by rw [written]; rfl)

end Text

namespace Toml

theorem decimalNumber_decimal (number : Nat) : decimalNumber (Text.decimal number) = number :=
  Nat.ofDigitChars_ten_toDigits

variable {digits : List Char}

/-! ## No date and no time -/

theorem fixedDigits?_cons {c : Char} (undigit : c.isDigit = false) (count least greatest : Nat)
    (rest : List Char) : fixedDigits? (count + 1) least greatest (c :: rest) = none := by
  simp [fixedDigits?, undigit]

/-- What follows digits that were taken is another digit or the end of the line. -/
theorem fixedDigits?_line {count least greatest value : Nat} {rest after : List Char}
    (all : ∀ c ∈ digits, c.isDigit = true)
    (taken : fixedDigits? count least greatest (digits ++ '\n' :: rest) = some (value, after)) :
    ∀ c ∈ after.head?, c = '\n' ∨ c.isDigit = true := by
  simp only [fixedDigits?, Option.ite_none_right_eq_some, Option.some.injEq, Prod.mk.injEq] at taken
  obtain ⟨⟨-, digital, -⟩, -, rfl⟩ := taken
  have enough : count ≤ digits.length := by
    refine Decidable.byContradiction fun fewer => ?_
    have inside : '\n' ∈ (digits ++ '\n' :: rest).take count := by
      obtain ⟨gap, rfl⟩ : ∃ gap, count = digits.length + (gap + 1) :=
        ⟨count - digits.length - 1, by omega⟩
      rw [List.take_length_add_append]
      exact List.mem_append_right digits List.mem_cons_self
    exact absurd (List.all_eq_true.mp digital _ inside) (by decide)
  rw [List.drop_append_of_le_length enough]
  intro c first
  cases kept : digits.drop count with
  | nil =>
      have same : '\n' = c := by simpa [kept] using first
      exact .inl same.symm
  | cons digit more =>
      have same : digit = c := by simpa [kept] using first
      exact .inr (same ▸ all digit (List.mem_of_mem_drop (kept ▸ List.mem_cons_self)))

theorem timeSighting_line (all : ∀ c ∈ digits, c.isDigit = true) (rest : List Char) :
    timeSighting (digits ++ '\n' :: rest) = .absent := by
  unfold timeSighting
  split
  · rename_i taken
    exact absurd (fixedDigits?_line all taken ':' rfl) (by decide)
  · rfl

theorem momentSighting_line (all : ∀ c ∈ digits, c.isDigit = true) (rest : List Char) :
    momentSighting (digits ++ '\n' :: rest) = .absent := by
  unfold momentSighting
  split
  · rename_i taken
    exact absurd (fixedDigits?_line all taken '-' rfl) (by decide)
  · exact timeSighting_line all rest

theorem momentSighting_negative (rest : List Char) : momentSighting ('-' :: rest) = .absent := by
  simp [momentSighting, timeSighting, fixedDigits?_cons]

/-! ## Digits -/

theorem moreDigits?_line (all : ∀ c ∈ digits, c.isDigit = true) (rest : List Char) :
    moreDigits? Char.isDigit (digits ++ '\n' :: rest) = some (digits, '\n' :: rest) := by
  induction digits with
  | nil => rfl
  | cons c digits ih =>
      have digit := all c List.mem_cons_self
      have read := ih fun other member => all other (List.mem_cons_of_mem c member)
      have ungapped : c ≠ '_' := by
        rintro rfl
        exact absurd digit (by decide)
      rw [List.cons_append, moreDigits?, if_pos digit, read]
      · rfl
      · exact ungapped

theorem someDigits?_line (filled : digits ≠ []) (all : ∀ c ∈ digits, c.isDigit = true)
    (rest : List Char) :
    someDigits? Char.isDigit (digits ++ '\n' :: rest) = some (digits, '\n' :: rest) := by
  cases digits with
  | nil => exact absurd rfl filled
  | cons c digits =>
      rw [List.cons_append, someDigits?, if_pos (all c List.mem_cons_self),
        moreDigits?_line fun other member => all other (List.mem_cons_of_mem c member)]
      rfl

theorem wholeDigits?_line (number : Nat) (rest : List Char) :
    wholeDigits? (Text.decimal number ++ '\n' :: rest) =
      some (Text.decimal number, '\n' :: rest) := by
  cases number with
  | zero => rfl
  | succ number =>
      have read := someDigits?_line (Text.decimal_ne_nil (number + 1))
        (Text.isDigit_of_mem_decimal (number + 1)) rest
      obtain ⟨c, digits, written, -, nonzero⟩ := Text.exists_decimal_eq_cons (number + 1)
      rw [written] at read ⊢
      rw [List.cons_append, wholeDigits?]
      · exact read
      · exact fun more same => nonzero (Nat.succ_pos number) (List.cons.inj same).1

/-! ## Numbers -/

theorem decimal?_line (negative : Bool) (number : Nat) (rest : List Char) :
    decimal? negative (Text.decimal number ++ '\n' :: rest) =
      (whole? (if negative then -number else number)).map fun node => (node, '\n' :: rest) := by
  rw [decimal?, wholeDigits?_line]
  simp only [Option.bind_eq_bind, Option.bind_some, exponent?]
  rw [if_neg (by decide)]
  simp only [Option.bind_some, decimalNumber_decimal, Option.map_eq_bind]
  rfl

theorem unsigned?_line (negative : Bool) (number : Nat) (rest : List Char) :
    unsigned? negative (Text.decimal number ++ '\n' :: rest) =
      (whole? (if negative then -number else number)).map fun node => (node, '\n' :: rest) := by
  rw [← decimal?_line]
  obtain ⟨c, digits, written, digit, -⟩ := Text.exists_decimal_eq_cons number
  rw [written, List.cons_append, unsigned?]
  all_goals
    intro more same
    obtain ⟨rfl, -⟩ := List.cons.inj same
    exact absurd digit (by decide)

theorem number?_decimal (number : Nat) (rest : List Char) :
    number? (Text.decimal number ++ '\n' :: rest) =
      (whole? number).map fun node => (node, '\n' :: rest) := by
  have moment := momentSighting_line (Text.isDigit_of_mem_decimal number) rest
  have read := unsigned?_line false number rest
  rw [if_neg Bool.false_ne_true] at read
  rw [← read]
  cases number with
  | zero =>
      have written : Text.decimal 0 = ['0'] := by decide
      rw [written] at moment ⊢
      simp only [List.cons_append, List.nil_append] at moment ⊢
      simp only [number?, moment]
      rfl
  | succ number =>
      obtain ⟨c, digits, written, digit, nonzero⟩ := Text.exists_decimal_eq_cons (number + 1)
      have unsigned : c ≠ '-' ∧ c ≠ '+' := by
        constructor <;> rintro rfl <;> exact absurd digit (by decide)
      rw [written, List.cons_append] at moment ⊢
      simp only [number?, moment]
      split
      · exact absurd (List.cons.inj ‹_›).1 (nonzero (Nat.succ_pos number))
      · exact absurd (List.cons.inj ‹_›).1 (nonzero (Nat.succ_pos number))
      · exact absurd (List.cons.inj ‹_›).1 (nonzero (Nat.succ_pos number))
      · exact absurd (List.cons.inj ‹_›).1 unsigned.1
      · exact absurd (List.cons.inj ‹_›).1 unsigned.2
      · rfl

theorem number?_signedDecimal {value : Int} (least : wholeLeast ≤ value)
    (greatest : value ≤ wholeGreatest) (rest : List Char) :
    number? (Text.signedDecimal value ++ '\n' :: rest) = some (.whole value, '\n' :: rest) := by
  have held : whole? value = some (.whole value) := if_pos ⟨least, greatest⟩
  cases value with
  | ofNat number =>
      have read := number?_decimal number rest
      rw [Int.ofNat_eq_natCast] at held
      rw [Text.signedDecimal, read, held]
      rfl
  | negSucc number =>
      have read := unsigned?_line true (number + 1) rest
      rw [Text.signedDecimal, List.cons_append, number?, momentSighting_negative]
      dsimp only
      rw [read, if_pos rfl, show -((number + 1 : Nat) : Int) = Int.negSucc number from rfl, held]
      rfl

end Toml

end StyleLookup

import StyleLookup.Proofs.Text.Stretch
import StyleLookup.Text.Lowercase

/-!
Lower-casing of plain texts: ASCII characters and white space. Such a text is lower-cased one
character at a time, and only the capital letters of ASCII move.
-/

set_option autoImplicit false

namespace StyleLookup.Text

/-- An ASCII character or white space. -/
def IsPlain (c : Char) : Prop := c.toNat < 0x80 ∨ isBlank c = true

instance (c : Char) : Decidable (IsPlain c) := inferInstanceAs (Decidable (_ ∨ _))

/-- What holds of the first code points holds of the characters of ASCII. -/
@[elab_as_elim]
theorem ascii_forall {motive : Char → Prop} (c : Char) (ascii : c.toNat < 0x80)
    (table : ∀ point < 0x80, motive (Char.ofNat point)) : motive c := by
  have := table c.toNat ascii
  rwa [Char.ofNat_toNat] at this

theorem asciiLower_of_not_ascii {c : Char} (beyond : 0x80 ≤ c.toNat) : asciiLower c = c := by
  refine dif_neg ?_
  rintro ⟨-, capital⟩
  have bound : c.toNat ≤ 0x5A := UInt32.le_iff_toNat_le.mp capital
  omega

theorem isAlpha_asciiLower (c : Char) : (asciiLower c).isAlpha = c.isAlpha := by
  rcases Nat.lt_or_ge c.toNat 0x80 with ascii | beyond
  · exact ascii_forall c ascii (by decide +kernel)
  · rw [asciiLower_of_not_ascii beyond]

theorem simpleLower_of_isPlain {c : Char} (plain : IsPlain c) : simpleLower c = asciiLower c := by
  rcases plain with ascii | blank
  · exact ascii_forall c ascii (by decide +kernel)
  · have table : ∀ point ∈ blankPoints,
        simpleLower (Char.ofNat point) = asciiLower (Char.ofNat point) := by decide +kernel
    have := table c.toNat (mem_blankPoints blank)
    rwa [Char.ofNat_toNat] at this

/-- The two characters whose lower-case form takes more than a table are not plain. -/
theorem lowerAt_of_isPlain {c : Char} (plain : IsPlain c) (before after : List Char) :
    lowerAt before c after = [asciiLower c] := by
  have sigma : c ≠ 'Σ' := by
    rintro rfl
    exact absurd plain (by decide +kernel)
  have dotted : c ≠ 'İ' := by
    rintro rfl
    exact absurd plain (by decide +kernel)
  rw [lowerAt, if_neg sigma, if_neg dotted, simpleLower_of_isPlain plain]

theorem lowercase_of_plain {text : List Char} (plain : ∀ c ∈ text, IsPlain c) :
    lowercase text = text.map asciiLower := by
  have fromHere (before : List Char) : lowercaseAfter before text = text.map asciiLower := by
    induction text generalizing before with
    | nil => rfl
    | cons c text ih =>
        rw [lowercaseAfter, lowerAt_of_isPlain (plain c List.mem_cons_self),
          ih (fun d member => plain d (List.mem_cons_of_mem c member)), List.map_cons,
          List.singleton_append]
  exact fromHere []

end StyleLookup.Text

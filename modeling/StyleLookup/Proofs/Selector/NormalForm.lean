import StyleLookup.Proofs.Text.CaseContext
import StyleLookup.Selector.Matching

/-!
Selectors and tokens are matched by their normal forms alone. White space around them and the case
of ASCII letters make no difference, and a normal form is its own normal form.
-/

set_option autoImplicit false

namespace StyleLookup

/-- Texts that differ only in the white space around them and in the case of ASCII letters. -/
inductive Text.Alike : List Char → List Char → Prop where
  | intro {lead core tail otherLead otherCore otherTail : List Char}
      (leadBlank : AllBlank lead) (tailBlank : AllBlank tail)
      (otherLeadBlank : AllBlank otherLead) (otherTailBlank : AllBlank otherTail)
      (sameLetters : core.map asciiLower = otherCore.map asciiLower) :
      Alike (lead ++ core ++ tail) (otherLead ++ otherCore ++ otherTail)

namespace Token

theorem normalForm_append_blank {lead tail : List Char} (leadBlank : Text.AllBlank lead)
    (tailBlank : Text.AllBlank tail) (core : List Char) :
    normalForm (lead ++ core ++ tail) = normalForm core := by
  rw [normalForm, Text.trim_append_right tailBlank, Text.trim_append_left leadBlank, normalForm]

theorem normalForm_map_asciiLower (text : List Char) :
    normalForm (text.map Text.asciiLower) = normalForm text := by
  rw [normalForm, Text.trim_map_asciiLower, Text.lowercase_map_asciiLower, normalForm]

theorem normalForm_eq_of_alike {left right : List Char} (alike : Text.Alike left right) :
    normalForm left = normalForm right := by
  obtain ⟨leadBlank, tailBlank, otherLeadBlank, otherTailBlank, sameLetters⟩ := alike
  rw [normalForm_append_blank leadBlank tailBlank,
    normalForm_append_blank otherLeadBlank otherTailBlank, ← normalForm_map_asciiLower,
    sameLetters, normalForm_map_asciiLower]

@[simp] theorem normalForm_normalForm (text : List Char) :
    normalForm (normalForm text) = normalForm text := by
  rw [normalForm, normalForm, Text.trim_lowercase_trim, Text.lowercase_lowercase]

theorem normalForm_eq_nil_iff {text : List Char} : normalForm text = [] ↔ Text.AllBlank text := by
  rw [normalForm, Text.lowercase_eq_nil_iff, Text.trim_eq_nil_iff]

theorem parse_eq_of_normalForm_eq {left right : String}
    (same : normalForm left.toList = normalForm right.toList) : parse left = parse right := by
  rw [parse, parse, same]

theorem parse_text_parse (raw : String) : parse (parse raw).text = parse raw := by
  apply parse_eq_of_normalForm_eq
  rw [parse, ofNormal, String.toList_ofList, normalForm_normalForm]

theorem isEmpty_parse_iff {raw : String} :
    (parse raw).isEmpty = true ↔ normalForm raw.toList = [] := by
  simp [isEmpty, parse, ofNormal]

end Token

namespace Selector

theorem covers_eq_of_normalForm_eq {selector other token same : String}
    (selectors : Token.normalForm selector.toList = Token.normalForm other.toList)
    (tokens : Token.normalForm token.toList = Token.normalForm same.toList) :
    covers selector token = covers other same := by
  rw [covers, covers, Token.parse_eq_of_normalForm_eq tokens, matchesToken, matchesToken, selectors]

theorem covers_of_normalForm_eq {selector token : String}
    (same : Token.normalForm selector.toList = Token.normalForm token.toList)
    (present : Token.normalForm token.toList ≠ []) : covers selector token = true := by
  have named : (Token.parse token).isEmpty = false := by
    rw [← Bool.not_eq_true, Token.isEmpty_parse_iff]
    exact present
  have whole : (String.ofList (Token.normalForm selector.toList) == (Token.parse token).text) =
      true := by
    rw [same, beq_iff_eq]
    rfl
  simp only [covers, matchesToken, named, whole, Bool.not_false, Bool.true_and, Bool.true_or]

/-- What differs only in the white space around it and in the case of ASCII letters is read as the
same token and matched in the same way; a token that was read gives itself when it is read again;
and a selector that is not blank covers itself. -/
theorem matching_sees_normal_forms {selector otherSelector token otherToken : String}
    (selectors : Text.Alike selector.toList otherSelector.toList)
    (tokens : Text.Alike token.toList otherToken.toList) :
    Token.parse otherToken = Token.parse token ∧
      covers otherSelector otherToken = covers selector token ∧
      (∀ raw, Token.parse (Token.parse raw).text = Token.parse raw) ∧
      ((∃ c ∈ selector.toList, Text.isBlank c = false) →
        covers selector otherSelector = true) := by
  have sameSelector := Token.normalForm_eq_of_alike selectors
  have sameToken := Token.normalForm_eq_of_alike tokens
  refine ⟨Token.parse_eq_of_normalForm_eq sameToken.symm,
    covers_eq_of_normalForm_eq sameSelector.symm sameToken.symm, Token.parse_text_parse, ?_⟩
  rintro ⟨c, member, ink⟩
  apply covers_of_normalForm_eq sameSelector
  rw [← sameSelector, ne_eq, Token.normalForm_eq_nil_iff]
  intro blank
  rw [blank c member] at ink
  cases ink

/-- A final sigma, a dotted capital I, and white space that is not of ASCII. -/
theorem greek_matched_in_any_dress :
    Text.Alike " .ΟΔΟΣ.Btn\t".toList ".ΟΔΟΣ.bTN".toList ∧
      Text.Alike "\u2003İ.BTN".toList "İ.btn\n".toList ∧
      Token.parse "İ.btn\n" = Token.parse "\u2003İ.BTN" ∧
      covers ".ΟΔΟΣ.bTN" "İ.btn\n" = covers " .ΟΔΟΣ.Btn\t" "\u2003İ.BTN" ∧
      covers " .ΟΔΟΣ.Btn\t" "\u2003İ.BTN" = true ∧
      covers " .ΟΔΟΣ.Btn\t" ".ΟΔΟΣ.bTN" = true := by
  have selectors : Text.Alike " .ΟΔΟΣ.Btn\t".toList ".ΟΔΟΣ.bTN".toList :=
    @Text.Alike.intro [' '] ".ΟΔΟΣ.Btn".toList ['\t'] [] ".ΟΔΟΣ.bTN".toList []
      (by decide) (by decide) (by decide) (by decide) (by decide)
  have tokens : Text.Alike "\u2003İ.BTN".toList "İ.btn\n".toList :=
    @Text.Alike.intro ['\u2003'] "İ.BTN".toList [] [] "İ.btn".toList ['\n']
      (by decide) (by decide) (by decide) (by decide) (by decide)
  obtain ⟨sameToken, sameAnswer, -, itself⟩ := matching_sees_normal_forms selectors tokens
  exact ⟨selectors, tokens, sameToken, sameAnswer, by decide +kernel,
    itself ⟨'.', by decide, by decide⟩⟩

end Selector

end StyleLookup

import StyleLookup.Text.Utf8

/-!
Texts as bytes and back: the bytes of a text are read as this text.
-/

set_option autoImplicit false

namespace StyleLookup.Text

theorem readBytes_cons (underWay : Option OpenChar) (byte : UInt8) (rest : List UInt8) :
    readBytes underWay (byte :: rest) =
      (readByte underWay byte).1 ++ readBytes (readByte underWay byte).2 rest := rfl

theorem toNat_ofNat {code : Nat} (fits : code < 0x100) : (UInt8.ofNat code).toNat = code := by
  rw [UInt8.toNat_ofNat']
  exact Nat.mod_eq_of_lt fits

/-! ## First bytes -/

theorem openChar_one : ∀ code < 0x80, openChar (UInt8.ofNat code) = ([Char.ofNat code], none) := by
  decide

theorem openChar_two : ∀ value < 0x20, 2 ≤ value →
    openChar (UInt8.ofNat (value + 0xC0)) = ([], some ⟨value, 1, 0x80, 0xBF⟩) := by
  decide

theorem openChar_three : ∀ value < 0x10, openChar (UInt8.ofNat (value + 0xE0)) =
    ([], some ⟨value, 2,
      if value = 0 then 0xA0 else 0x80, if value = 0xD then 0x9F else 0xBF⟩) := by
  decide

theorem openChar_four : ∀ value < 5, openChar (UInt8.ofNat (value + 0xF0)) =
    ([], some ⟨value, 3,
      if value = 0 then 0x90 else 0x80, if value = 4 then 0x8F else 0xBF⟩) := by
  decide

theorem readBytes_of_openChar {byte : UInt8} {begun : OpenChar}
    (opened : openChar byte = ([], some begun)) (rest : List UInt8) :
    readBytes none (byte :: rest) = readBytes (some begun) rest := by
  rw [readBytes_cons, readByte, opened]
  rfl

/-! ## Further bytes -/

section Further

variable {value missing least greatest code : Nat} (rest : List UInt8)

theorem readByte_of_bounds (lower : least ≤ code + 0x80) (upper : code + 0x80 ≤ greatest)
    (fits : code < 0x40) :
    readByte (some ⟨value, missing, least, greatest⟩) (UInt8.ofNat (code + 0x80)) =
      if missing = 1 then ([Char.ofNat (64 * value + code)], none)
      else ([], some ⟨64 * value + code, missing - 1, 0x80, 0xBF⟩) := by
  have same : (UInt8.ofNat (code + 0x80)).toNat = code + 0x80 := toNat_ofNat (by omega)
  rw [readByte, same, if_pos ⟨lower, upper⟩, Nat.add_sub_cancel]

theorem readBytes_last (lower : least ≤ code + 0x80) (upper : code + 0x80 ≤ greatest)
    (fits : code < 0x40) :
    readBytes (some ⟨value, 1, least, greatest⟩) (UInt8.ofNat (code + 0x80) :: rest) =
      Char.ofNat (64 * value + code) :: readBytes none rest := by
  rw [readBytes_cons, readByte_of_bounds lower upper fits]
  rfl

theorem readBytes_further (lower : least ≤ code + 0x80) (upper : code + 0x80 ≤ greatest)
    (fits : code < 0x40) :
    readBytes (some ⟨value, missing + 2, least, greatest⟩) (UInt8.ofNat (code + 0x80) :: rest) =
      readBytes (some ⟨64 * value + code, missing + 1, 0x80, 0xBF⟩) rest := by
  rw [readBytes_cons, readByte_of_bounds lower upper fits]
  rfl

end Further

/-! ## Whole texts -/

theorem readBytes_utf8EncodeChar (c : Char) (rest : List UInt8) :
    readBytes none (String.utf8EncodeChar c ++ rest) = c :: readBytes none rest := by
  have point : Char.ofNat c.val.toNat = c := Char.ofNat_toNat c
  have valid : c.val.toNat < 0xD800 ∨ (0xDFFF < c.val.toNat ∧ c.val.toNat < 0x110000) := c.valid
  -- One case for each number of bytes that a character takes.
  unfold String.utf8EncodeChar
  generalize c.val.toNat = code at point valid ⊢
  subst point
  by_cases one : code ≤ 0x7F
  · simp only [if_pos one, List.singleton_append]
    rw [readBytes_cons, readByte, openChar_one code (by omega)]
    rfl
  by_cases two : code ≤ 0x7FF
  · simp only [if_neg one, if_pos two, List.cons_append, List.nil_append]
    rw [readBytes_of_openChar (openChar_two (code / 64 % 32) (by omega) (by omega)),
      readBytes_last rest (by omega) (by omega) (by omega)]
    congr 2
    omega
  by_cases three : code ≤ 0xFFFF
  · simp only [if_neg one, if_neg two, if_pos three, List.cons_append, List.nil_append]
    rw [readBytes_of_openChar (openChar_three (code / 4096 % 16) (by omega)),
      readBytes_further _ (by split <;> omega) (by split <;> omega) (by omega),
      readBytes_last rest (by omega) (by omega) (by omega)]
    congr 2
    omega
  · simp only [if_neg one, if_neg two, if_neg three, List.cons_append, List.nil_append]
    rw [readBytes_of_openChar (openChar_four (code / 262144 % 8) (by omega)),
      readBytes_further _ (by split <;> omega) (by split <;> omega) (by omega),
      readBytes_further _ (by omega) (by omega) (by omega),
      readBytes_last rest (by omega) (by omega) (by omega)]
    congr 2
    omega

theorem ofUtf8_utf8 (text : List Char) : ofUtf8 (utf8 text) = text := by
  rw [ofUtf8]
  induction text with
  | nil => rfl
  | cons c rest ih =>
      rw [utf8, List.flatMap_cons, readBytes_utf8EncodeChar]
      exact congrArg (c :: ·) ih

example : ofUtf8 [0xE2, 0x82, 0x2F, 0xFF, 0xFE] =
    [replacement, '/', replacement, replacement] := by decide

end StyleLookup.Text

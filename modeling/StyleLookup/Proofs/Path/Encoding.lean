import StyleLookup.Path.Encoding
import StyleLookup.Proofs.Text.Utf8

/-!
Paths and the texts that they spell. A text is got back from the path that spells it, however paths
are held. The legible paths are those that spell a text, so no two of them are read alike.
-/

set_option autoImplicit false

namespace StyleLookup.Path.Encoding

variable {encoding : Encoding} {path other : Path}

theorem toUInt8_ofUInt8 (byte : UInt8) : (Char.ofUInt8 byte).toUInt8 = byte :=
  UInt8.toUInt8_toUInt32 byte

@[simp] theorem decode_encode (encoding : Encoding) (spelling : String) :
    encoding.decode (encoding.encode spelling) = spelling := by
  cases encoding with
  | text => rfl
  | bytes =>
      have codes (bytes : List UInt8) :
          (bytes.map Char.ofUInt8).map Char.toUInt8 = bytes := by
        rw [List.map_map]
        exact (List.map_congr_left fun byte _ => toUInt8_ofUInt8 byte).trans (List.map_id bytes)
      rw [encode, decode, text_ofText, codes, Text.ofUtf8_utf8, String.ofList_toList]

theorem legible_iff : encoding.Legible path ↔ ∃ spelling, encoding.encode spelling = path := by
  constructor
  · exact fun legible => ⟨_, legible⟩
  · rintro ⟨spelling, rfl⟩
    rw [Legible, decode_encode]

theorem legible_text (path : Path) : Legible .text path := rfl

theorem Legible.eq_of_decode_eq (legible : encoding.Legible path)
    (otherLegible : encoding.Legible other) (same : encoding.decode path = encoding.decode other) :
    path = other :=
  calc path
    _ = encoding.encode (encoding.decode path) := legible.symm
    _ = encoding.encode (encoding.decode other) := by rw [same]
    _ = other := otherLegible

theorem toUInt8_mem_utf8EncodeChar {c : Char} (ascii : c.toNat < 0x80) :
    c.toUInt8 ∈ String.utf8EncodeChar c := by
  have single : c.utf8Size = 1 := Char.utf8Size_eq_one_iff.mpr (Nat.le_of_lt_succ ascii)
  rw [String.utf8EncodeChar_eq_singleton single]
  exact List.mem_singleton.mpr rfl

theorem ofUInt8_toUInt8 {c : Char} (ascii : c.toNat < 0x80) : Char.ofUInt8 c.toUInt8 = c := by
  rw [← Char.toNat_inj]
  exact Nat.mod_eq_of_lt (Nat.lt_trans ascii (by decide))

/-- The characters of ASCII that a text holds stand in the path that spells it. -/
theorem mem_text_encode (encoding : Encoding) {c : Char} (ascii : c.toNat < 0x80)
    {spelling : String} (member : c ∈ spelling.toList) : c ∈ (encoding.encode spelling).text := by
  cases encoding with
  | text => exact member
  | bytes =>
      have written : c.toUInt8 ∈ Text.utf8 spelling.toList :=
        List.mem_flatMap.mpr ⟨c, member, toUInt8_mem_utf8EncodeChar ascii⟩
      rw [encode, text_ofText]
      exact List.mem_map.mpr ⟨c.toUInt8, written, ofUInt8_toUInt8 ascii⟩

end StyleLookup.Path.Encoding

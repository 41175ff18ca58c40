import WasmHost.Bytes

namespace WasmHost.Bytes

theorem le_toNat_ofNat {n : Nat} (h : 0x80 ≤ n) (hn : n < 0x100) :
    0x80 ≤ (UInt8.ofNat n).toNat := by
  have hmod : (UInt8.ofNat n).toNat = n % 2 ^ 8 := UInt8.toNat_ofNat'
  omega

/-- Every byte of a character above ASCII has its highest bit set. -/
theorem le_of_mem_utf8EncodeChar {c : Char} {b : UInt8} (hc : 0x80 ≤ c.val.toNat)
    (hb : b ∈ String.utf8EncodeChar c) : 0x80 ≤ b.toNat := by
  have h1 : ¬ c.val.toNat ≤ 0x7f := by omega
  unfold String.utf8EncodeChar at hb
  by_cases h2 : c.val.toNat ≤ 0x7ff
  · simp only [h1, h2, if_true, if_false, List.mem_cons, List.not_mem_nil, or_false] at hb
    rcases hb with rfl | rfl <;> apply le_toNat_ofNat <;> omega
  by_cases h3 : c.val.toNat ≤ 0xffff
  · simp only [h1, h2, h3, if_true, if_false, List.mem_cons, List.not_mem_nil, or_false] at hb
    rcases hb with rfl | rfl | rfl <;> apply le_toNat_ofNat <;> omega
  · simp only [h1, h2, h3, if_false, List.mem_cons, List.not_mem_nil, or_false] at hb
    rcases hb with rfl | rfl | rfl | rfl <;> apply le_toNat_ofNat <;> omega

theorem utf8EncodeChar_of_lt {c : Char} (hc : c.val.toNat < 0x80) :
    String.utf8EncodeChar c = [UInt8.ofNat c.val.toNat] := by
  have h1 : c.val.toNat ≤ 0x7f := by omega
  simp only [String.utf8EncodeChar, h1, if_true]

/-- The byte of an ASCII character stands for that character and is part of no other. -/
theorem mem_utf8EncodeChar_iff {a c : Char} (ha : a.val.toNat < 0x80) :
    UInt8.ofNat a.val.toNat ∈ String.utf8EncodeChar c ↔ c = a := by
  have hbyte : (UInt8.ofNat a.val.toNat).toNat = a.val.toNat := by
    rw [UInt8.toNat_ofNat']
    omega
  constructor
  · intro h
    by_cases hc : c.val.toNat < 0x80
    · rw [utf8EncodeChar_of_lt hc, List.mem_singleton] at h
      have heq := congrArg UInt8.toNat h
      rw [hbyte, UInt8.toNat_ofNat'] at heq
      have hval : c.val.toNat = a.val.toNat := by omega
      exact Char.ext (UInt32.toNat_inj.mp hval)
    · have hle := le_of_mem_utf8EncodeChar (by omega) h
      omega
  · intro h
    rw [h, utf8EncodeChar_of_lt ha]
    exact List.mem_singleton_self _

theorem mem_ofString_iff {a : Char} (ha : a.val.toNat < 0x80) {s : String} :
    UInt8.ofNat a.val.toNat ∈ ofString s ↔ a ∈ s.toList := by
  simp only [ofString, List.mem_flatMap, mem_utf8EncodeChar_iff ha, exists_eq_right]

theorem zero_mem_ofString_iff {s : String} : 0 ∈ ofString s ↔ '\x00' ∈ s.toList :=
  mem_ofString_iff (a := '\x00') (by decide)

theorem toByteArray_eq (s : String) : s.toByteArray = (ofString s).toByteArray := by
  rw [ofString, ← String.ofList_toList (s := s), String.toByteArray_ofList, String.ofList_toList]
  rfl

@[simp] theorem length_ofString (s : String) : (ofString s).length = s.utf8ByteSize := by
  rw [← String.size_toByteArray, toByteArray_eq, List.size_toByteArray]

theorem ofString_append (s t : String) : ofString (s ++ t) = ofString s ++ ofString t := by
  rw [ofString, String.toList_append, List.flatMap_append]
  rfl

/-- Different texts have different bytes. -/
theorem ofString_inj {s t : String} : ofString s = ofString t ↔ s = t := by
  rw [← String.toByteArray_inj, toByteArray_eq, toByteArray_eq]
  constructor
  · intro h
    rw [h]
  · intro h
    have hdata := congrArg (fun bytes => bytes.data.toList) h
    simpa using hdata

end WasmHost.Bytes

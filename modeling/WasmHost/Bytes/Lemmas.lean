import Mathlib.Tactic.Ring
import WasmHost.Bytes

namespace WasmHost.Bytes

theorem toNat_ofNat (width n : Nat) : toNat (ofNat width n) = n % 256 ^ width := by
  induction width generalizing n with
  | zero => simp [ofNat, toNat, Nat.mod_one]
  | succ width ih =>
    rw [ofNat, toNat, ih, pow_succ', Nat.mod_mul]
    simp

theorem ofNat_add (low high n : Nat) :
    ofNat (low + high) n = ofNat low n ++ ofNat high (n / 256 ^ low) := by
  induction low generalizing n with
  | zero => simp [ofNat]
  | succ low ih =>
    rw [Nat.succ_add, ofNat, ofNat, ih, Nat.div_div_eq_div_mul, ← pow_succ', List.cons_append]

theorem ofNat_mod (width n : Nat) : ofNat width (n % 256 ^ width) = ofNat width n := by
  induction width generalizing n with
  | zero => rfl
  | succ width ih =>
    have hbyte : UInt8.ofNat (n % 256 ^ (width + 1)) = UInt8.ofNat n := by
      rw [← UInt8.toNat_inj, UInt8.toNat_ofNat', UInt8.toNat_ofNat', pow_succ',
        Nat.mod_mul_right_mod]
    have hrest : n % 256 ^ (width + 1) / 256 = n / 256 % 256 ^ width := by
      rw [pow_succ', Nat.mod_mul_right_div_self]
    rw [ofNat, ofNat, hbyte, hrest, ih]

theorem toNat_lt (bs : Bytes) : bs.toNat < 256 ^ bs.length := by
  induction bs with
  | nil => decide
  | cons b rest ih =>
    have hb := b.toNat_lt
    rw [toNat, List.length_cons, pow_succ]
    omega

theorem toNat_toUInt32 {bs : Bytes} (h : bs.length = 4) : bs.toUInt32.toNat = bs.toNat := by
  have hlt := toNat_lt bs
  rw [h] at hlt
  exact UInt32.toNat_ofNat_of_lt' hlt

theorem ofUInt32_ofNat {n : Nat} (h : n < UInt32.size) : ofUInt32 (UInt32.ofNat n) = ofNat 4 n := by
  rw [ofUInt32, UInt32.toNat_ofNat_of_lt' h]

theorem toUInt32_ofUInt32 (w : UInt32) : toUInt32 (ofUInt32 w) = w := by
  have h : w.toNat % 256 ^ 4 = w.toNat := Nat.mod_eq_of_lt (by simpa using w.toNat_lt)
  rw [toUInt32, ofUInt32, toNat_ofNat, h, UInt32.ofNat_toNat]

theorem toUInt64_ofUInt64 (w : UInt64) : toUInt64 (ofUInt64 w) = w := by
  have h : w.toNat % 256 ^ 8 = w.toNat := Nat.mod_eq_of_lt (by simpa using w.toNat_lt)
  rw [toUInt64, ofUInt64, toNat_ofNat, h, UInt64.ofNat_toNat]

/-- A long word lies in memory as its low word and then its high word. -/
theorem ofUInt64_eq_append (w : UInt64) :
    ofUInt64 w = ofUInt32 w.toUInt32 ++ ofUInt32 (w >>> 32).toUInt32 := by
  have hlow : w.toUInt32.toNat = w.toNat % 256 ^ 4 := UInt64.toNat_toUInt32 w
  have hhigh : (w >>> 32).toUInt32.toNat = w.toNat / 256 ^ 4 % 256 ^ 4 := by
    rw [UInt64.toNat_toUInt32, UInt64.toNat_shiftRight, Nat.shiftRight_eq_div_pow]
    rfl
  rw [ofUInt32, ofUInt32, hlow, hhigh, ofNat_mod, ofNat_mod]
  exact ofNat_add 4 4 w.toNat

end WasmHost.Bytes

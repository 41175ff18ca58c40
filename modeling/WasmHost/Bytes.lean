namespace WasmHost

abbrev Bytes := List UInt8

namespace Bytes

/-- The `width` lowest bytes of a number, the least significant first. -/
def ofNat : Nat → Nat → Bytes
  | 0, _ => []
  | width + 1, n => UInt8.ofNat n :: ofNat width (n / 256)

/-- The number whose bytes these are, the least significant first. -/
def toNat : Bytes → Nat
  | [] => 0
  | b :: bs => b.toNat + 256 * toNat bs

@[simp] theorem length_ofNat (width n : Nat) : (ofNat width n).length = width := by
  induction width generalizing n with
  | zero => rfl
  | succ width ih => simp [ofNat, ih]

/-- The four bytes of a word, as they lie in memory. -/
def ofUInt32 (w : UInt32) : Bytes := ofNat 4 w.toNat

/-- The eight bytes of a long word, as they lie in memory. -/
def ofUInt64 (w : UInt64) : Bytes := ofNat 8 w.toNat

def ofString (s : String) : Bytes := s.toList.flatMap String.utf8EncodeChar

def toUInt32 (bs : Bytes) : UInt32 := UInt32.ofNat bs.toNat

def toUInt64 (bs : Bytes) : UInt64 := UInt64.ofNat bs.toNat

@[simp] theorem length_ofUInt32 (w : UInt32) : (ofUInt32 w).length = 4 := length_ofNat ..

@[simp] theorem length_ofUInt64 (w : UInt64) : (ofUInt64 w).length = 8 := length_ofNat ..

end Bytes

end WasmHost

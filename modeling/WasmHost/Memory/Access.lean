import WasmHost.Memory
import WasmHost.Text.Hex

namespace WasmHost

/-- A range of guest addresses that does not lie in the memory. -/
structure OutOfBounds where
  ptr : UInt32
  len : UInt64
deriving DecidableEq

def OutOfBounds.message (e : OutOfBounds) : String :=
  "Out of bounds: " ++ toString e.len.toNat ++ " bytes at 0x" ++ Text.hex e.ptr.toNat

/-- The memory of an engine, seen from its host: a size, and reads and writes of bytes. -/
class LinearMemory (μ : Type) where
  size : μ → Nat
  read? : μ → Nat → Nat → Option Bytes
  write? : μ → Nat → Bytes → Option μ

namespace LinearMemory

def rangeEnd? (ptr : UInt32) (len : UInt64) : Option UInt64 :=
  let stop := ptr.toUInt64 + len
  if stop < len then none else some stop

variable {μ : Type} [LinearMemory μ]

/-- Fails unless `len` bytes from `ptr` on lie in the memory. -/
def check (m : μ) (ptr : UInt32) (len : UInt64) : Except OutOfBounds Unit :=
  match rangeEnd? ptr len with
  | some stop => if stop.toNat ≤ size m then .ok () else .error ⟨ptr, len⟩
  | none => .error ⟨ptr, len⟩

/-- Reads after a check, so that no more is ever asked of the memory than it has. -/
def read (m : μ) (ptr len : UInt32) : Except OutOfBounds Bytes := do
  check m ptr len.toUInt64
  match read? m ptr.toNat len.toNat with
  | some bytes => return bytes
  | none => throw ⟨ptr, len.toUInt64⟩

def readUInt32 (m : μ) (ptr : UInt32) : Except OutOfBounds UInt32 :=
  match read? m ptr.toNat 4 with
  | some bytes => .ok bytes.toUInt32
  | none => .error ⟨ptr, 4⟩

def write (m : μ) (ptr : UInt32) (bytes : Bytes) : Except OutOfBounds μ :=
  match write? m ptr.toNat bytes with
  | some m' => .ok m'
  | none => .error ⟨ptr, UInt64.ofNat bytes.length⟩

def writeUInt32 (m : μ) (ptr value : UInt32) : Except OutOfBounds μ :=
  write m ptr (Bytes.ofUInt32 value)

def writeUInt64 (m : μ) (ptr : UInt32) (value : UInt64) : Except OutOfBounds μ :=
  write m ptr (Bytes.ofUInt64 value)

theorem rangeEnd?_eq_some_iff {ptr : UInt32} {len stop : UInt64} :
    rangeEnd? ptr len = some stop ↔ stop.toNat = ptr.toNat + len.toNat := by
  have hp := ptr.toNat_lt
  have hl := len.toNat_lt
  have hs := stop.toNat_lt
  simp only [rangeEnd?]
  split
  · rename_i h
    rw [UInt64.lt_iff_toNat_lt, UInt64.toNat_add, UInt32.toNat_toUInt64] at h
    simp only [reduceCtorEq, false_iff]
    omega
  · rename_i h
    rw [UInt64.lt_iff_toNat_lt, UInt64.toNat_add, UInt32.toNat_toUInt64] at h
    rw [Option.some.injEq, ← UInt64.toNat_inj, UInt64.toNat_add, UInt32.toNat_toUInt64]
    omega

end LinearMemory

namespace Memory

instance : LinearMemory Memory := ⟨size, read?, write?⟩

def check (m : Memory) (ptr : UInt32) (len : UInt64) : Except OutOfBounds Unit :=
  LinearMemory.check m ptr len

def read (m : Memory) (ptr len : UInt32) : Except OutOfBounds Bytes := LinearMemory.read m ptr len

def readUInt32 (m : Memory) (ptr : UInt32) : Except OutOfBounds UInt32 :=
  LinearMemory.readUInt32 m ptr

def write (m : Memory) (ptr : UInt32) (bytes : Bytes) : Except OutOfBounds Memory :=
  LinearMemory.write m ptr bytes

def writeUInt32 (m : Memory) (ptr value : UInt32) : Except OutOfBounds Memory :=
  LinearMemory.writeUInt32 m ptr value

def writeUInt64 (m : Memory) (ptr : UInt32) (value : UInt64) : Except OutOfBounds Memory :=
  LinearMemory.writeUInt64 m ptr value

theorem writeUInt32_eq_write (m : Memory) (ptr value : UInt32) :
    m.writeUInt32 ptr value = m.write ptr (Bytes.ofUInt32 value) := rfl

end Memory

end WasmHost

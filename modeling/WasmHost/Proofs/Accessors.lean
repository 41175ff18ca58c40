import WasmHost.Bytes.Lemmas
import WasmHost.Memory.Access

namespace WasmHost

/-- What the accessors rely on: an engine reads and writes a range exactly when it lies in the
memory. -/
class LawfulLinearMemory (μ : Type) [LinearMemory μ] : Prop where
  exists_read?_iff (m : μ) (start len : Nat) :
    (∃ bytes, LinearMemory.read? m start len = some bytes) ↔ start + len ≤ LinearMemory.size m
  exists_write?_iff (m : μ) (start : Nat) (bytes : Bytes) :
    (∃ m', LinearMemory.write? m start bytes = some m') ↔ start + bytes.length ≤ LinearMemory.size m

namespace LinearMemory

variable {μ : Type} [LinearMemory μ] {m m' : μ} {ptr : UInt32}

/-- An access succeeds exactly when `len` bytes from `ptr` on lie in the memory, and reports just
these when it fails. -/
structure Guarded {α : Type} (m : μ) (ptr : UInt32) (len : UInt64) (access : Except OutOfBounds α) :
    Prop where
  succeeds_iff : (∃ a, access = .ok a) ↔ ptr.toNat + len.toNat ≤ size m
  reports : ∀ e, access = .error e → e = ⟨ptr, len⟩

theorem check_eq_ok_iff {len : UInt64} :
    check m ptr len = .ok () ↔
      ptr.toNat + len.toNat ≤ size m ∧ ptr.toNat + len.toNat < UInt64.size := by
  by_cases hlt : ptr.toNat + len.toNat < UInt64.size
  · obtain ⟨stop, hstop⟩ : ∃ stop : UInt64, stop.toNat = ptr.toNat + len.toNat :=
      ⟨.ofNat _, UInt64.toNat_ofNat_of_lt' hlt⟩
    have hend : rangeEnd? ptr len = some stop := rangeEnd?_eq_some_iff.mpr hstop
    by_cases h : ptr.toNat + len.toNat ≤ size m <;> simp [check, hend, hstop, h, hlt]
  · have hend : rangeEnd? ptr len = none := by
      rw [Option.eq_none_iff_forall_ne_some]
      intro stop hs
      rw [rangeEnd?_eq_some_iff] at hs
      exact hlt (hs ▸ stop.toNat_lt)
    simp [check, hend, hlt]

/-- The end of a range of 32-bit numbers is a number of 64 bits. -/
theorem check_toUInt64_eq_ok_iff {len : UInt32} :
    check m ptr len.toUInt64 = .ok () ↔ ptr.toNat + len.toNat ≤ size m := by
  have hp := ptr.toNat_lt
  have hl := len.toNat_lt
  have hlt : ptr.toNat + len.toNat < UInt64.size := by
    rw [UInt64.size]
    omega
  rw [check_eq_ok_iff, UInt32.toNat_toUInt64]
  exact and_iff_left hlt

theorem check_eq_error {len : UInt64} {e : OutOfBounds} (h : check m ptr len = .error e) :
    e = ⟨ptr, len⟩ := by
  unfold check at h
  split at h
  · split at h
    · cases h
    · cases h
      rfl
  · cases h
    rfl

theorem guarded_check (hm : size m < UInt64.size) (ptr : UInt32) (len : UInt64) :
    Guarded m ptr len (check m ptr len) where
  succeeds_iff := by
    have hok : (∃ u, check m ptr len = .ok u) ↔ check m ptr len = .ok () :=
      ⟨fun h => h.choose_spec, fun h => ⟨(), h⟩⟩
    rw [hok, check_eq_ok_iff]
    constructor
    · intro h
      exact h.1
    · intro h
      exact ⟨h, Nat.lt_of_le_of_lt h hm⟩
  reports := fun _ h => check_eq_error h

variable [LawfulLinearMemory μ]

/-- The check that comes first refuses just what the memory would refuse. -/
theorem guarded_read (m : μ) (ptr len : UInt32) : Guarded m ptr len.toUInt64 (read m ptr len) := by
  by_cases h : ptr.toNat + len.toNat ≤ size m
  · obtain ⟨bytes, hbytes⟩ := (LawfulLinearMemory.exists_read?_iff m ptr.toNat len.toNat).mpr h
    have hread : read m ptr len = .ok bytes := by
      simp only [read, check_toUInt64_eq_ok_iff.mpr h, hbytes, bind, Except.bind, pure, Except.pure]
    constructor
    · simp [hread, h]
    · simp [hread]
  · cases hcheck : check m ptr len.toUInt64 with
    | ok u => exact absurd (check_toUInt64_eq_ok_iff.mp hcheck) h
    | error e =>
      have hread : read m ptr len = .error e := by
        simp only [read, hcheck, bind, Except.bind]
      constructor
      · simp [hread, h]
      · intro e' he'
        rw [hread] at he'
        cases he'
        exact check_eq_error hcheck

theorem guarded_readUInt32 (m : μ) (ptr : UInt32) : Guarded m ptr 4 (readUInt32 m ptr) := by
  have hlaw := LawfulLinearMemory.exists_read?_iff m ptr.toNat 4
  have hfour : (4 : UInt64).toNat = 4 := rfl
  cases hread : read? m ptr.toNat 4 with
  | some bytes =>
    rw [hread] at hlaw
    constructor <;> simp [readUInt32, hread, hfour, ← hlaw]
  | none =>
    rw [hread] at hlaw
    constructor
    · simp [readUInt32, hread, hfour, ← hlaw]
    · simp [readUInt32, hread, eq_comm]

theorem guarded_write {len : UInt64} {bytes : Bytes} (hlen : bytes.length = len.toNat) (m : μ)
    (ptr : UInt32) :
    Guarded m ptr len (write m ptr bytes) := by
  have hlaw := LawfulLinearMemory.exists_write?_iff m ptr.toNat bytes
  rw [hlen] at hlaw
  cases hwrite : write? m ptr.toNat bytes with
  | some m' =>
    rw [hwrite] at hlaw
    constructor <;> simp [write, hwrite, ← hlaw]
  | none =>
    rw [hwrite] at hlaw
    constructor
    · simp [write, hwrite, ← hlaw]
    · simp [write, hwrite, hlen, eq_comm]

theorem guarded_writeUInt32 (m : μ) (ptr value : UInt32) :
    Guarded m ptr 4 (writeUInt32 m ptr value) :=
  guarded_write (Bytes.length_ofUInt32 value) m ptr

theorem guarded_writeUInt64 (m : μ) (ptr : UInt32) (value : UInt64) :
    Guarded m ptr 8 (writeUInt64 m ptr value) :=
  guarded_write (Bytes.length_ofUInt64 value) m ptr

/-- Behind a check that passed, the memory reads the range and takes bytes for it. -/
theorem exists_of_check {len : UInt64} (h : check m ptr len = .ok ()) :
    (∃ bytes, read? m ptr.toNat len.toNat = some bytes) ∧
      ∀ bytes : Bytes, bytes.length = len.toNat → ∃ m', write? m ptr.toNat bytes = some m' := by
  obtain ⟨hfits, _⟩ := check_eq_ok_iff.mp h
  refine ⟨(LawfulLinearMemory.exists_read?_iff m _ _).mpr hfits, ?_⟩
  intro bytes hlen
  apply (LawfulLinearMemory.exists_write?_iff m _ _).mpr
  rwa [hlen]

/-- All accessors agree on what lies in a memory and how a refusal is reported, and behind a check
none of them fails. -/
structure Agrees (m : μ) (ptr : UInt32) : Prop where
  check : ∀ len, Guarded m ptr len (check m ptr len)
  read : ∀ len : UInt32, Guarded m ptr len.toUInt64 (read m ptr len)
  readUInt32 : Guarded m ptr 4 (readUInt32 m ptr)
  write : ∀ (bytes : Bytes) (len : UInt64), bytes.length = len.toNat →
    Guarded m ptr len (write m ptr bytes)
  writeUInt32 : ∀ value, Guarded m ptr 4 (writeUInt32 m ptr value)
  writeUInt64 : ∀ value, Guarded m ptr 8 (writeUInt64 m ptr value)
  behind : ∀ len, LinearMemory.check m ptr len = .ok () →
    (∃ bytes, read? m ptr.toNat len.toNat = some bytes) ∧
      ∀ bytes : Bytes, bytes.length = len.toNat → ∃ m', write? m ptr.toNat bytes = some m'

theorem agrees (hm : size m < UInt64.size) (ptr : UInt32) : Agrees m ptr where
  check := guarded_check hm ptr
  read := guarded_read m ptr
  readUInt32 := guarded_readUInt32 m ptr
  write _ _ hlen := guarded_write hlen m ptr
  writeUInt32 := guarded_writeUInt32 m ptr
  writeUInt64 := guarded_writeUInt64 m ptr
  behind _ h := exists_of_check h

end LinearMemory

namespace Memory

instance : LawfulLinearMemory Memory where
  exists_read?_iff m start len := by
    change (∃ bytes, m.read? start len = some bytes) ↔ start + len ≤ m.size
    unfold Memory.read?
    split <;> simp_all
  exists_write?_iff m start bytes := by
    change (∃ m', m.write? start bytes = some m') ↔ start + bytes.length ≤ m.size
    unfold Memory.write?
    split <;> simp_all

end Memory

end WasmHost

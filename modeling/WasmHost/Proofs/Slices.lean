import WasmHost.Proofs.Accessors

namespace WasmHost.Memory

/-- The bytes of `[start, start + len)`, in the memory or beyond it. -/
def slice (m : Memory) (start len : Nat) : Bytes := (List.range' start len).map m.byte

variable {m m' : Memory}

@[simp] theorem length_slice (m : Memory) (start len : Nat) : (m.slice start len).length = len := by
  simp [slice]

theorem slice_add (m : Memory) (start len more : Nat) :
    m.slice start (len + more) = m.slice start len ++ m.slice (start + len) more := by
  simp only [slice, ← List.map_append, List.range'_append_1]

theorem slice_congr {start len : Nat}
    (h : ∀ i, start ≤ i → i < start + len → m'.byte i = m.byte i) :
    m'.slice start len = m.slice start len := by
  apply List.map_congr_left
  intro i hi
  rw [List.mem_range'_1] at hi
  exact h i hi.1 hi.2

/-- What was stored is what is there. -/
theorem slice_store (m : Memory) (start : Nat) (bytes : Bytes) :
    (m.store start bytes).slice start bytes.length = bytes := by
  apply List.ext_getElem
  · simp
  · intro i _ hi
    simp only [slice, List.getElem_map, List.getElem_range', Nat.one_mul]
    rw [byte_store, if_pos (Nat.le_add_right _ _), Nat.add_sub_cancel_left,
      List.getD_eq_getElem?_getD, List.getElem?_eq_getElem hi, Option.getD_some]

theorem slice_storeUInt32 (m : Memory) (start : Nat) (value : UInt32) :
    (m.store start (Bytes.ofUInt32 value)).slice start 4 = Bytes.ofUInt32 value := by
  have h := m.slice_store start (Bytes.ofUInt32 value)
  rwa [Bytes.length_ofUInt32] at h

theorem slice_store_of_disjoint {start len addr : Nat} {bytes : Bytes}
    (h : start + len ≤ addr ∨ addr + bytes.length ≤ start) :
    (m.store addr bytes).slice start len = m.slice start len := by
  apply slice_congr
  intro i hl hr
  apply byte_store_of_outside
  omega

theorem write?_of_le {start : Nat} {bytes : Bytes} (h : start + bytes.length ≤ m.size) :
    m.write? start bytes = some (m.store start bytes) := if_pos h

theorem write_of_le {ptr : UInt32} {bytes : Bytes} (h : ptr.toNat + bytes.length ≤ m.size) :
    m.write ptr bytes = .ok (m.store ptr.toNat bytes) := by
  have hwrite : LinearMemory.write? m ptr.toNat bytes = some (m.store ptr.toNat bytes) :=
    write?_of_le h
  rw [write, LinearMemory.write, hwrite]

theorem write_of_lt {ptr : UInt32} {bytes : Bytes} (h : m.size < ptr.toNat + bytes.length) :
    m.write ptr bytes = .error ⟨ptr, UInt64.ofNat bytes.length⟩ := by
  have hwrite : LinearMemory.write? m ptr.toNat bytes = none := if_neg (Nat.not_le_of_lt h)
  rw [write, LinearMemory.write, hwrite]

theorem writeUInt32_of_le {ptr value : UInt32} (h : ptr.toNat + 4 ≤ m.size) :
    m.writeUInt32 ptr value = .ok (m.store ptr.toNat (Bytes.ofUInt32 value)) := by
  apply write_of_le
  rwa [Bytes.length_ofUInt32]

theorem read?_of_le {start len : Nat} (h : start + len ≤ m.size) :
    m.read? start len = some (m.slice start len) :=
  if_pos h

theorem readUInt32_eq_ok_iff {ptr value : UInt32} :
    m.readUInt32 ptr = .ok value ↔
      ptr.toNat + 4 ≤ m.size ∧ value = (m.slice ptr.toNat 4).toUInt32 := by
  by_cases h : ptr.toNat + 4 ≤ m.size
  · have hread : LinearMemory.read? m ptr.toNat 4 = some (m.slice ptr.toNat 4) := read?_of_le h
    rw [readUInt32, LinearMemory.readUInt32, hread]
    simp [h, eq_comm]
  · have hread : LinearMemory.read? m ptr.toNat 4 = none := if_neg h
    rw [readUInt32, LinearMemory.readUInt32, hread]
    simp [h]

theorem check_toUInt64_eq_ok_iff {ptr len : UInt32} :
    m.check ptr len.toUInt64 = .ok () ↔ ptr.toNat + len.toNat ≤ m.size :=
  LinearMemory.check_toUInt64_eq_ok_iff

theorem read_eq_ok_iff {ptr len : UInt32} {bytes : Bytes} :
    m.read ptr len = .ok bytes ↔
      ptr.toNat + len.toNat ≤ m.size ∧ bytes = m.slice ptr.toNat len.toNat := by
  by_cases h : ptr.toNat + len.toNat ≤ m.size
  · have hcheck : LinearMemory.check m ptr len.toUInt64 = .ok () := check_toUInt64_eq_ok_iff.mpr h
    have hread : LinearMemory.read? m ptr.toNat len.toNat = some (m.slice ptr.toNat len.toNat) :=
      read?_of_le h
    simp [read, LinearMemory.read, hcheck, hread, bind, Except.bind, pure, Except.pure, h, eq_comm]
  · have hnone : ¬ ∃ bytes, m.read ptr len = .ok bytes := by
      intro hread
      have hfits := (LinearMemory.guarded_read m ptr len).succeeds_iff.mp hread
      rw [UInt32.toNat_toUInt64] at hfits
      exact h hfits
    constructor
    · intro hread
      exact absurd ⟨bytes, hread⟩ hnone
    · intro hfits
      exact absurd hfits.1 h

theorem write_eq_ok_iff {ptr : UInt32} {bytes : Bytes} :
    m.write ptr bytes = .ok m' ↔
      ptr.toNat + bytes.length ≤ m.size ∧ m' = m.store ptr.toNat bytes := by
  by_cases h : ptr.toNat + bytes.length ≤ m.size
  · rw [write_of_le h]
    simp [h, eq_comm]
  · rw [write_of_lt (Nat.lt_of_not_le h)]
    simp [h]

/-- The bytes from an address up to the first NUL, if there is one before the end. -/
def cString? (m : Memory) (start : Nat) : Option Bytes :=
  let tail := m.slice start (m.size - start)
  if 0 ∈ tail then some (tail.takeWhile (· ≠ 0)) else none

theorem cString?_of_slice {start : Nat} {bytes : Bytes} (h : start + (bytes.length + 1) ≤ m.size)
    (h0 : 0 ∉ bytes) (hs : m.slice start (bytes.length + 1) = bytes ++ [0]) :
    m.cString? start = some bytes := by
  have htail : m.slice start (m.size - start) =
      bytes ++ 0 :: m.slice (start + (bytes.length + 1)) (m.size - start - (bytes.length + 1)) := by
    rw [← Nat.add_sub_cancel' (show bytes.length + 1 ≤ m.size - start by omega), slice_add, hs,
      List.append_assoc, Nat.add_sub_cancel_left]
    rfl
  have hne : ∀ b ∈ bytes, decide (b ≠ 0) = true := by
    intro b hb
    rw [decide_eq_true_iff]
    intro he
    rw [he] at hb
    exact h0 hb
  rw [cString?, htail]
  simp only [List.mem_append, List.mem_cons, true_or, or_true, if_true]
  rw [List.takeWhile_append_of_pos hne, List.takeWhile_cons_of_neg (by simp), List.append_nil]

/-- The strings that a guest finds when it follows `count` addresses from `list` on. -/
def readStrings (m : Memory) (list : Nat) : Nat → Option (List Bytes)
  | 0 => some []
  | count + 1 => do
    let ptr ← m.read? list 4
    let s ← m.cString? ptr.toUInt32.toNat
    let rest ← readStrings m (list + 4) count
    return s :: rest

theorem readStrings_eq_some {list : Nat} {strings : List Bytes}
    (h : ∀ i (hi : i < strings.length), ∃ ptr : UInt32, m.read? (list + 4 * i) 4 =
      some (Bytes.ofUInt32 ptr) ∧
      m.cString? ptr.toNat = some strings[i]) : m.readStrings list strings.length =
        some strings := by
  induction strings generalizing list with
  | nil => rfl
  | cons s rest ih =>
    obtain ⟨ptr, hptr, hs⟩ := h 0 (Nat.zero_lt_succ _)
    have hrest : m.readStrings (list + 4) rest.length = some rest := by
      apply ih
      intro i hi
      have hnext := h (i + 1) (Nat.succ_lt_succ hi)
      have hlist : list + 4 * (i + 1) = list + 4 + 4 * i := by omega
      rwa [hlist] at hnext
    have hptr' : m.read? list 4 = some (Bytes.ofUInt32 ptr) := hptr
    simp [readStrings, hptr', Bytes.toUInt32_ofUInt32, hs, hrest]

end WasmHost.Memory

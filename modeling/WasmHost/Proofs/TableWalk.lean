import WasmHost.Proofs.StringTable

namespace WasmHost

/-- A walk over pieces of these sizes from `start` on finds each of them below `limit`. Where a
piece begins is brought back into 32 bits; where it ends is not. -/
def WalkFits (limit start : Nat) : List Nat → Prop
  | [] => True
  | size :: rest => start % UInt32.size + size ≤ limit ∧ WalkFits limit (start + size) rest

namespace WalkFits

variable {limit start : Nat} {sizes : List Nat}

theorem mod_iff : WalkFits limit (start % UInt32.size) sizes ↔ WalkFits limit start sizes := by
  induction sizes generalizing start with
  | nil => rfl
  | cons size rest ih =>
    simp only [WalkFits, Nat.mod_mod]
    rw [← ih, Nat.mod_add_mod, ih]

theorem of_le (h : start + sizes.sum ≤ limit) : WalkFits limit start sizes := by
  induction sizes generalizing start with
  | nil => trivial
  | cons size rest ih =>
    rw [List.sum_cons] at h
    have hmod := Nat.mod_le start UInt32.size
    exact ⟨by omega, ih (by omega)⟩

/-- A walk gets around the address space only where the memory is the whole of it and a piece ends
with it. -/
theorem ends (hl : limit ≤ UInt32.size) (hs : start < UInt32.size)
    (h : WalkFits limit start sizes) :
    sizes = [] ∨ start + sizes.sum ≤ limit ∨
      limit = UInt32.size ∧ ∃ i < sizes.length, start + (sizes.take i).sum = UInt32.size := by
  induction sizes generalizing start with
  | nil => exact .inl rfl
  | cons size rest ih =>
    obtain ⟨hfirst, hrest⟩ := h
    rw [Nat.mod_eq_of_lt hs] at hfirst
    right
    -- Only behind a piece that ends with the address space does the next one begin at 0.
    by_cases hend : start + size = UInt32.size
    · cases rest with
      | nil =>
        left
        simpa using hfirst
      | cons next rest =>
        right
        refine ⟨by omega, 1, by simp, ?_⟩
        simpa using hend
    · rcases ih (by omega) hrest with rfl | hrest | ⟨hwhole, i, hi, htop⟩
      · left
        simpa using hfirst
      · left
        rw [List.sum_cons]
        omega
      · right
        refine ⟨hwhole, i + 1, Nat.succ_lt_succ hi, ?_⟩
        rw [List.take_succ_cons, List.sum_cons, ← Nat.add_assoc]
        exact htop

/-- Short of the whole address space no walk gets around it: before that it would have to leave the
memory. -/
theorem iff_of_lt (hl : limit < UInt32.size) (hs : start < UInt32.size) :
    WalkFits limit start sizes ↔ sizes = [] ∨ start + sizes.sum ≤ limit := by
  constructor
  · intro h
    rcases ends hl.le hs h with hnil | hfit | ⟨hwhole, _⟩
    · exact .inl hnil
    · exact .inr hfit
    · omega
  · intro h
    rcases h with rfl | hfit
    · trivial
    · exact of_le hfit

/-- No word that starts at a multiple of four crosses the end of the address space. -/
theorem words_of_aligned {count : Nat} (h : start % 4 = 0) :
    WalkFits UInt32.size start (.replicate count 4) := by
  induction count generalizing start with
  | zero => trivial
  | succ count ih =>
    rw [List.replicate_succ]
    refine ⟨?_, ih (by omega)⟩
    rw [UInt32.size]
    omega

end WalkFits

/-- A part of the memory that a record names. -/
structure Buffer where
  base : Nat
  len : Nat
deriving DecidableEq

namespace Memory

variable {m : Memory}

/-- An address as the program steps to it. -/
def wrapped (addr : Nat) : Nat := addr % UInt32.size

/-- The word at an address, as a number. -/
def word (m : Memory) (addr : Nat) : Nat := (m.slice addr 4).toNat

/-- The buffers that the `count` records from `start` on name, their words taken from where `place`
puts the addresses. -/
def buffers (m : Memory) (place : Nat → Nat) (start count : Nat) : List Buffer :=
  (List.range count).map fun i =>
    ⟨m.word (place (start + 8 * i)), m.word (place (start + 8 * i + 4))⟩

/-- The bytes of buffers, one after the other. -/
def joined (m : Memory) (buffers : List Buffer) : Bytes :=
  buffers.flatMap fun b => m.slice b.base b.len

theorem joined_cons (m : Memory) (b : Buffer) (rest : List Buffer) :
    m.joined (b :: rest) = m.slice b.base b.len ++ m.joined rest := rfl

theorem buffers_succ (place : Nat → Nat) (start count : Nat) :
    m.buffers place start (count + 1) =
      ⟨m.word (place start), m.word (place (start + 4))⟩ :: m.buffers place (start + 8) count := by
  have hnext (i : Nat) : start + 8 * (i + 1) = start + 8 + 8 * i := by omega
  simp only [buffers, List.range_succ_eq_map, List.map_cons, List.map_map, Function.comp_def,
    Nat.succ_eq_add_one, hnext, Nat.mul_zero, Nat.add_zero]

theorem buffers_mod (start count : Nat) :
    m.buffers wrapped (start % UInt32.size) count = m.buffers wrapped start count := by
  simp only [buffers, wrapped, Nat.mod_add_mod, Nat.add_assoc]

/-- A record that lies in a memory short of the whole address space is read where it stands. -/
theorem buffers_wrapped_of_le {start count : Nat} (hm : m.size < UInt32.size)
    (h : start + 8 * count ≤ m.size) :
    m.buffers wrapped start count = m.buffers id start count := by
  apply List.map_congr_left
  intro i hi
  rw [List.mem_range] at hi
  rw [wrapped, wrapped, Nat.mod_eq_of_lt (by omega), Nat.mod_eq_of_lt (by omega)]
  rfl

end Memory

namespace Wasi

open Memory

variable {m m' : Memory} {iov : UInt32} {count : Nat} {bytes : Bytes}

theorem gather_succ_eq_ok_iff :
    gather m iov (count + 1) = .ok bytes ↔ ∃ base len first rest, m.readUInt32 iov = .ok base ∧
      m.readUInt32 (iov + 4) = .ok len ∧ m.read base len = .ok first ∧
      gather m (iov + 8) count = .ok rest ∧
      bytes = first ++ rest := by
  rw [gather]
  cases m.readUInt32 iov with
  | error e => simp [bind, Except.bind]
  | ok base =>
    cases m.readUInt32 (iov + 4) with
    | error e => simp [bind, Except.bind]
    | ok len =>
      cases hr : m.read base len with
      | error e => simp [bind, Except.bind, hr]
      | ok first =>
        cases gather m (iov + 8) count with
        | error e => simp [bind, Except.bind, hr]
        | ok rest => simp [bind, Except.bind, pure, Except.pure, hr, eq_comm]

theorem word_eq_toNat {addr : Nat} : ((m.slice addr 4).toUInt32).toNat = m.word addr :=
  Bytes.toNat_toUInt32 (m.length_slice addr 4)

/-- The walk over the records succeeds exactly when each word of the table, taken where the wrapped
address points, and each buffer lie in the memory. It gathers what was there. -/
theorem gather_eq_ok_iff :
    gather m iov count = .ok bytes ↔
      WalkFits m.size iov.toNat (.replicate (2 * count) 4) ∧
      (∀ b ∈ m.buffers wrapped iov.toNat count, b.base + b.len ≤ m.size) ∧
      bytes = m.joined (m.buffers wrapped iov.toNat count) := by
  induction count generalizing iov bytes with
  | zero => simp [gather, WalkFits, buffers, joined, eq_comm]
  | succ count ih =>
    have h4 : (iov + 4).toNat = wrapped (iov.toNat + 4) := UInt32.toNat_add iov 4
    have h8 : (iov + 8).toNat = (iov.toNat + 8) % UInt32.size := UInt32.toNat_add iov 8
    have h0 : wrapped iov.toNat = iov.toNat := Nat.mod_eq_of_lt iov.toNat_lt
    have hwalk : WalkFits m.size iov.toNat (.replicate (2 * (count + 1)) 4) ↔
        iov.toNat + 4 ≤ m.size ∧ wrapped (iov.toNat + 4) + 4 ≤ m.size ∧
          WalkFits m.size (iov.toNat + 8) (.replicate (2 * count) 4) := by
      rw [Nat.mul_succ, List.replicate_succ, List.replicate_succ, WalkFits, WalkFits, ← wrapped,
        ← wrapped, h0]
    simp only [gather_succ_eq_ok_iff, readUInt32_eq_ok_iff, read_eq_ok_iff, ih, h4, h8,
      WalkFits.mod_iff, buffers_mod]
    -- What is left is walked from a wrapped address; `mod_iff` and `buffers_mod` have put the plain
    -- sum in its place.
    rw [hwalk, buffers_succ, joined_cons, List.forall_mem_cons, h0]
    constructor
    · intro h
      obtain ⟨base, len, first, rest, ⟨hb, rfl⟩, ⟨hl, rfl⟩, ⟨hr, rfl⟩, ⟨hw, hbs, rfl⟩, rfl⟩ := h
      rw [word_eq_toNat, word_eq_toNat] at hr ⊢
      exact ⟨⟨hb, hl, hw⟩, ⟨hr, hbs⟩, rfl⟩
    · intro h
      obtain ⟨⟨hb, hl, hw⟩, ⟨hr, hbs⟩, rfl⟩ := h
      refine ⟨_, _, _, _, ⟨hb, rfl⟩, ⟨hl, rfl⟩, ⟨?_, rfl⟩, ⟨hw, hbs, rfl⟩, ?_⟩
      · rwa [word_eq_toNat, word_eq_toNat]
      · rw [word_eq_toNat, word_eq_toNat]

/-- The loop that writes strings succeeds exactly when each address it writes and each string lie in
the memory, taken where the wrapped pointers are. -/
theorem writeStrings_eq_success_iff {list buf : UInt32} {strings : List Bytes} :
    (writeStrings m list buf strings).1 = .success ↔
      WalkFits m.size list.toNat (.replicate strings.length 4) ∧
      WalkFits m.size buf.toNat (strings.map List.length) := by
  induction strings generalizing m list buf with
  | nil => simp [writeStrings, WalkFits]
  | cons s rest ih =>
    have hl : (list + 4).toNat = (list.toNat + 4) % UInt32.size := UInt32.toNat_add list 4
    have hb : (buf + UInt32.ofNat s.length).toNat = (buf.toNat + s.length) % UInt32.size := by
      rw [UInt32.toNat_add, UInt32.toNat_ofNat', Nat.add_mod_mod]
    have hl0 : list.toNat % UInt32.size = list.toNat := Nat.mod_eq_of_lt list.toNat_lt
    have hb0 : buf.toNat % UInt32.size = buf.toNat := Nat.mod_eq_of_lt buf.toNat_lt
    rw [List.length_cons, List.replicate_succ, List.map_cons, WalkFits, WalkFits, hl0, hb0,
      writeStrings]
    cases haddr : m.writeUInt32 list buf with
    | error e =>
      have hout : ¬ list.toNat + 4 ≤ m.size := by
        intro h
        rw [writeUInt32_of_le h] at haddr
        cases haddr
      simp [hout]
    | ok m₁ =>
      obtain ⟨hfit, rfl⟩ := write_eq_ok_iff.mp haddr
      rw [Bytes.length_ofUInt32] at hfit
      cases htext : (m.store list.toNat (Bytes.ofUInt32 buf)).write buf s with
      | error e =>
        have hout : ¬ buf.toNat + s.length ≤ m.size := by
          intro h
          rw [write_of_le (by rwa [size_store])] at htext
          cases htext
        simp [htext, hout]
      | ok m₂ =>
        obtain ⟨hfit', rfl⟩ := write_eq_ok_iff.mp htext
        rw [size_store] at hfit'
        simp only [htext, ih, size_store, hl, hb, WalkFits.mod_iff]
        tauto

end Wasi

end WasmHost

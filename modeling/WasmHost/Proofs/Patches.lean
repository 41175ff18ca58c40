import WasmHost.Proofs.TableWalk

namespace WasmHost

/-- The cells `start, …, start + len - 1`. -/
def InRange (start len i : Nat) : Prop := start ≤ i ∧ i < start + len

/-- Bytes that are to be put into memory, and where. -/
structure Patch where
  start : Nat
  bytes : Bytes
deriving DecidableEq

namespace Patch

def Covers (p : Patch) (i : Nat) : Prop := InRange p.start p.bytes.length i

def Fits (p : Patch) (m : Memory) : Prop := p.start + p.bytes.length ≤ m.size

instance (p : Patch) (m : Memory) : Decidable (p.Fits m) := Nat.decLe _ _

end Patch

namespace Memory

variable {m : Memory} {patches : List Patch}

/-- Puts patches into memory one after the other, whether their cells exist or not. -/
def storeAll (m : Memory) (patches : List Patch) : Memory :=
  patches.foldl (fun m p => m.store p.start p.bytes) m

@[simp] theorem storeAll_cons (m : Memory) (p : Patch) (rest : List Patch) :
    m.storeAll (p :: rest) = (m.store p.start p.bytes).storeAll rest := rfl

/-- A store changes cells and nothing else. -/
theorem exists_cells_store (m : Memory) (start : Nat) (bytes : Bytes) :
    ∃ cells, m.store start bytes = { m with cells } := by
  induction bytes generalizing m start with
  | nil => exact ⟨m.cells, rfl⟩
  | cons b bs ih =>
    obtain ⟨cells, h⟩ := ih (m.setByte start b) (start + 1)
    exact ⟨cells, h⟩

theorem exists_cells_storeAll (m : Memory) (patches : List Patch) :
    ∃ cells, m.storeAll patches = { m with cells } := by
  induction patches generalizing m with
  | nil => exact ⟨m.cells, rfl⟩
  | cons p rest ih =>
    obtain ⟨cells, hp⟩ := m.exists_cells_store p.start p.bytes
    obtain ⟨cells', h⟩ := ih (m.store p.start p.bytes)
    rw [storeAll_cons, h, hp]
    exact ⟨cells', rfl⟩

/-- A cell that no patch is meant for keeps its byte. -/
theorem byte_storeAll_of_not_covers {i : Nat} (h : ∀ p ∈ patches, ¬ p.Covers i) :
    (m.storeAll patches).byte i = m.byte i := by
  induction patches generalizing m with
  | nil => rfl
  | cons p rest ih =>
    rw [List.forall_mem_cons] at h
    obtain ⟨hp, hrest⟩ := h
    have hout : i < p.start ∨ p.start + p.bytes.length ≤ i := by
      rw [Patch.Covers, InRange] at hp
      omega
    rw [storeAll_cons, ih hrest, byte_store_of_outside hout]

theorem storeAll_append (m : Memory) (patches more : List Patch) :
    m.storeAll (patches ++ more) = (m.storeAll patches).storeAll more := List.foldl_append

/-- A memory with just these patches written to it, one after the other: each byte of a patch is
there unless a later one lies over it, and a cell that no patch is meant for is as before. -/
structure Patched (m m' : Memory) (patches : List Patch) : Prop where
  pages : m'.pages = m.pages
  limit : m'.limit = m.limit
  written : ∀ before p after, patches = before ++ p :: after → ∀ k (_ : k < p.bytes.length),
    (∀ q ∈ after, ¬ q.Covers (p.start + k)) → m'.byte (p.start + k) = p.bytes[k]
  kept : ∀ i, (∀ p ∈ patches, ¬ p.Covers i) → m'.byte i = m.byte i

theorem patched_storeAll (m : Memory) (patches : List Patch) :
    Patched m (m.storeAll patches) patches := by
  obtain ⟨cells, hcells⟩ := m.exists_cells_storeAll patches
  refine ⟨by rw [hcells], by rw [hcells], ?_, fun i => byte_storeAll_of_not_covers⟩
  intro before p after hsplit k hk hlater
  rw [hsplit, storeAll_append, storeAll_cons, byte_storeAll_of_not_covers hlater, byte_store,
    if_pos (Nat.le_add_right _ _), Nat.add_sub_cancel_left, List.getD_eq_getElem?_getD,
      List.getElem?_eq_getElem hk,
    Option.getD_some]

end Memory

namespace Wasi

variable {m : Memory} {patches : List Patch}

/-- Applies patches in order and stops with a fault at the first that does not fit. Those before it
stay. -/
def settle (m : Memory) : List Patch → Errno × Memory
  | [] => (.success, m)
  | p :: rest => if p.Fits m then settle (m.store p.start p.bytes) rest else (.fault, m)

theorem settle_of_fits (h : ∀ p ∈ patches, p.Fits m) :
    settle m patches = (.success, m.storeAll patches) := by
  induction patches generalizing m with
  | nil => rfl
  | cons p rest ih =>
    rw [List.forall_mem_cons] at h
    obtain ⟨hp, hrest⟩ := h
    have hrest' : ∀ q ∈ rest, q.Fits (m.store p.start p.bytes) := by
      intro q hq
      rw [Patch.Fits, Memory.size_store]
      exact hrest q hq
    rw [settle, if_pos hp, ih hrest']
    rfl

theorem settle_of_not_fits {done rest : List Patch} {p : Patch} (hd : ∀ q ∈ done, q.Fits m)
    (hp : ¬ p.Fits m) :
    settle m (done ++ p :: rest) = (.fault, m.storeAll done) := by
  induction done generalizing m with
  | nil =>
    rw [List.nil_append, settle, if_neg hp]
    rfl
  | cons q done ih =>
    rw [List.forall_mem_cons] at hd
    obtain ⟨hq, hdone⟩ := hd
    have hdone' : ∀ q' ∈ done, q'.Fits (m.store q.start q.bytes) := by
      intro q' hq'
      rw [Patch.Fits, Memory.size_store]
      exact hdone q' hq'
    have hp' : ¬ p.Fits (m.store q.start q.bytes) := by
      rw [Patch.Fits, Memory.size_store]
      exact hp
    rw [List.cons_append, settle, if_pos hq, ih hdone' hp']
    rfl

/-- The patches before the first one that does not fit. -/
structure Stops (m : Memory) (patches done : List Patch) : Prop where
  fits : ∀ q ∈ done, q.Fits m
  next : ∃ p rest, patches = done ++ p :: rest ∧ ¬ p.Fits m

theorem exists_stops (h : ¬ ∀ p ∈ patches, p.Fits m) : ∃ done, Stops m patches done := by
  induction patches with
  | nil => simp at h
  | cons p rest ih =>
    by_cases hp : p.Fits m
    · have hrest : ¬ ∀ q ∈ rest, q.Fits m := fun hrest => h (List.forall_mem_cons.mpr ⟨hp, hrest⟩)
      obtain ⟨done, hdone, q, rest', hsplit, hq⟩ := ih hrest
      exact ⟨p :: done, List.forall_mem_cons.mpr ⟨hp, hdone⟩, q,
        rest', by rw [hsplit, List.cons_append], hq⟩
    · exact ⟨[], by simp, p, rest, rfl, hp⟩

theorem Stops.settle {done : List Patch} (h : Stops m patches done) :
    settle m patches = (.fault, m.storeAll done) := by
  obtain ⟨hd, p, rest, rfl, hp⟩ := h
  exact settle_of_not_fits hd hp

theorem settle_eq_success_iff : (settle m patches).1 = .success ↔ ∀ p ∈ patches, p.Fits m := by
  constructor
  · intro h
    by_contra hnot
    obtain ⟨done, hdone⟩ := exists_stops hnot
    rw [hdone.settle] at h
    cases h
  · intro h
    rw [settle_of_fits h]

/-- Whatever is answered, part of the patches have been applied, from the first on. -/
theorem exists_settle_eq_storeAll (m : Memory) (patches : List Patch) :
    ∃ done, done <+: patches ∧ (settle m patches).2 = m.storeAll done := by
  by_cases h : ∀ p ∈ patches, p.Fits m
  · exact ⟨patches, List.prefix_refl _, by rw [settle_of_fits h]⟩
  · obtain ⟨done, hdone⟩ := exists_stops h
    obtain ⟨_, p, rest, hsplit, _⟩ := id hdone
    exact ⟨done, hsplit ▸ List.prefix_append _ _, by rw [hdone.settle]⟩

/-- A write and what comes after it. -/
theorem settle_cons (m : Memory) (ptr : UInt32) (bytes : Bytes) (rest : List Patch) :
    settle m (⟨ptr.toNat, bytes⟩ :: rest) = match m.write ptr bytes with
      | .ok m' => settle m' rest
      | .error _ => (.fault, m) := by
  rw [settle]
  by_cases h : Patch.Fits ⟨ptr.toNat, bytes⟩ m
  · rw [Memory.write_of_le h, if_pos h]
  · rw [Memory.write_of_lt (Nat.lt_of_not_le h), if_neg h]

theorem writeSizes_eq_settle (m : Memory) (countOut sizeOut count size : UInt32) :
    writeSizes m countOut sizeOut count size =
      settle m [⟨countOut.toNat, Bytes.ofUInt32 count⟩, ⟨sizeOut.toNat, Bytes.ofUInt32 size⟩] := by
  rw [settle_cons, writeSizes, Memory.writeUInt32_eq_write]
  cases m.write countOut (Bytes.ofUInt32 count) with
  | error e => rfl
  | ok m₁ =>
    simp only [settle_cons, Memory.writeUInt32_eq_write]
    cases m₁.write sizeOut (Bytes.ofUInt32 size) <;> rfl

/-- What is to be written for each string: its address at `list + 4 * i`, and itself at `buf` behind
the strings before it. All addresses are brought back into 32 bits. -/
def handOver (list buf : Nat) (strings : List Bytes) : List Patch :=
  (List.range strings.length).flatMap fun i =>
    let start := Memory.wrapped (buf + totalSize (strings.take i))
    [⟨Memory.wrapped (list + 4 * i), Bytes.ofNat 4 start⟩, ⟨start, strings.getD i []⟩]

theorem handOver_cons (list buf : Nat) (s : Bytes) (rest : List Bytes) :
    handOver list buf (s :: rest) =
      ⟨Memory.wrapped list, Bytes.ofNat 4 (Memory.wrapped buf)⟩ :: ⟨Memory.wrapped buf, s⟩ ::
        handOver (list + 4) (buf + s.length) rest := by
  have hnext (i : Nat) : list + 4 * (i + 1) = list + 4 + 4 * i := by omega
  simp only [handOver, List.length_cons, List.range_succ_eq_map, List.flatMap_cons,
    List.flatMap_map, List.take_zero,
    List.take_succ_cons, totalSize, Nat.mul_zero, Nat.add_zero, List.getD_cons_zero,
      List.getD_cons_succ, hnext,
    ← Nat.add_assoc, List.cons_append, List.nil_append]

theorem handOver_mod (list buf : Nat) (strings : List Bytes) :
    handOver (list % UInt32.size) (buf % UInt32.size) strings = handOver list buf strings := by
  simp only [handOver, Memory.wrapped, Nat.mod_add_mod]

theorem writeStrings_eq_settle (m : Memory) (list buf : UInt32) (strings : List Bytes) :
    writeStrings m list buf strings = settle m (handOver list.toNat buf.toNat strings) := by
  induction strings generalizing m list buf with
  | nil => rfl
  | cons s rest ih =>
    have hl : (list + 4).toNat = (list.toNat + 4) % UInt32.size := UInt32.toNat_add list 4
    have hb : (buf + UInt32.ofNat s.length).toNat = (buf.toNat + s.length) % UInt32.size := by
      rw [UInt32.toNat_add, UInt32.toNat_ofNat', Nat.add_mod_mod]
    have hl0 : Memory.wrapped list.toNat = list.toNat := Nat.mod_eq_of_lt list.toNat_lt
    have hb0 : Memory.wrapped buf.toNat = buf.toNat := Nat.mod_eq_of_lt buf.toNat_lt
    have haddr : Bytes.ofNat 4 buf.toNat = Bytes.ofUInt32 buf := rfl
    rw [handOver_cons, hl0, hb0, haddr, settle_cons, writeStrings,
      Memory.writeUInt32_eq_write]
    cases m.write list (Bytes.ofUInt32 buf) with
    | error e => rfl
    | ok m₁ =>
      simp only [settle_cons]
      cases m₁.write buf s with
      | error e => rfl
      | ok m₂ =>
        simp only [ih, hl, hb, handOver_mod]

end Wasi

end WasmHost

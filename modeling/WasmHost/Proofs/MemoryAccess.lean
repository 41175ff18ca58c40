import WasmHost.Proofs.HostCalls
import WasmHost.Proofs.Slices
import WasmHost.Script

namespace WasmHost

namespace Memory

variable {m m' : Memory} {ptr : UInt32}

theorem store_append (m : Memory) (start : Nat) (xs ys : Bytes) :
    m.store start (xs ++ ys) = (m.store start xs).store (start + xs.length) ys := by
  induction xs generalizing m start with
  | nil => rfl
  | cons x xs ih =>
    have hstart : start + (x :: xs).length = start + 1 + xs.length := by
      rw [List.length_cons]
      omega
    rw [List.cons_append, store_cons, store_cons, ih, hstart]

@[simp] theorem pages_store (m : Memory) (start : Nat) (bytes : Bytes) :
    (m.store start bytes).pages = m.pages := by
  induction bytes generalizing m start with
  | nil => rfl
  | cons b bs ih => exact ih _ _

@[simp] theorem limit_store (m : Memory) (start : Nat) (bytes : Bytes) :
    (m.store start bytes).limit = m.limit := by
  induction bytes generalizing m start with
  | nil => rfl
  | cons b bs ih => exact ih _ _

/-- An access succeeds exactly when `len` bytes from `ptr` on lie in the memory, and reports just
these when it fails. -/
abbrev Guarded {α : Type} (m : Memory) (ptr : UInt32) (len : UInt64)
    (access : Except OutOfBounds α) : Prop :=
  LinearMemory.Guarded m ptr len access

/-- `m'` is `m` with these bytes at `ptr`, and the same anywhere else. -/
structure Written (m m' : Memory) (ptr : UInt32) (bytes : Bytes) : Prop where
  pages : m'.pages = m.pages
  limit : m'.limit = m.limit
  outside : ∀ i, i < ptr.toNat ∨ ptr.toNat + bytes.length ≤ i → m'.byte i = m.byte i
  inside : m'.read? ptr.toNat bytes.length = some bytes
  readBack : ∀ len : UInt32, len.toNat = bytes.length → m'.read ptr len = .ok bytes

theorem written_of_write {bytes : Bytes} (h : m.write ptr bytes = .ok m') :
    m.Written m' ptr bytes := by
  obtain ⟨hfits, rfl⟩ := write_eq_ok_iff.mp h
  have hsize : ptr.toNat + bytes.length ≤ (m.store ptr.toNat bytes).size := by rwa [size_store]
  refine ⟨pages_store .., limit_store .., fun i hi => byte_store_of_outside hi, ?_, ?_⟩
  · rw [read?_of_le hsize, slice_store]
  · intro len hlen
    apply read_eq_ok_iff.mpr
    rw [hlen]
    exact ⟨hsize, (m.slice_store ptr.toNat bytes).symm⟩

theorem readUInt32_of_writeUInt32 {value : UInt32} (h : m.writeUInt32 ptr value = .ok m') :
    m'.readUInt32 ptr = .ok value := by
  obtain ⟨hfits, rfl⟩ := write_eq_ok_iff.mp h
  rw [Bytes.length_ofUInt32] at hfits
  apply readUInt32_eq_ok_iff.mpr
  rw [size_store, slice_storeUInt32, Bytes.toUInt32_ofUInt32]
  exact ⟨hfits, rfl⟩

/-- A long word is written as its low word and then, behind it, its high word. -/
theorem exists_writeUInt32_of_writeUInt64 {value : UInt64} (h : m.writeUInt64 ptr value = .ok m')
    {next : UInt32} (hn : next.toNat = ptr.toNat + 4) :
    ∃ half, m.writeUInt32 ptr value.toUInt32 = .ok half ∧
      half.writeUInt32 next (value >>> 32).toUInt32 = .ok m' := by
  obtain ⟨hfits, rfl⟩ := write_eq_ok_iff.mp h
  rw [Bytes.length_ofUInt64] at hfits
  have hlow : ptr.toNat + 4 ≤ m.size := by omega
  have hhigh : next.toNat + 4 ≤ (m.store ptr.toNat (Bytes.ofUInt32 value.toUInt32)).size := by
    rw [size_store]
    omega
  refine ⟨_, writeUInt32_of_le hlow, ?_⟩
  rw [writeUInt32_of_le hhigh, Bytes.ofUInt64_eq_append, store_append, Bytes.length_ofUInt32, hn]

end Memory

namespace Script

theorem keep_ok (m : Memory) (c : Call) :
    keep (.ok m) c = .ok (.ok ()) { c with memory := some m } := rfl

theorem keep_error (e : OutOfBounds) (c : Call) : keep (.error e) c = .ok (.error e) c := rfl

end Script

namespace Wasi

theorem table_get?_random :
    table.get? ⟨importSpace, "random_get"⟩ = some (Syscall.toHostFunc [.i32, .i32] randomGet) := by
  rfl

variable {m : Memory} {c : Call} {params : List Value} {buf len : UInt32}

theorem randomGet_of_check_error {e : OutOfBounds} (h0 : params[0]? = some (.i32 buf))
    (h1 : params[1]? = some (.i32 len)) (hm : c.memory = some m)
    (h : m.check buf len.toUInt64 = .error e) :
    randomGet params c = .ok .fault c := by
  rw [randomGet, HostM.bind_of_ok (HostM.word_eq_ok h0 c), HostM.bind_of_ok (HostM.word_eq_ok h1 c),
    HostM.bind_of_ok (HostM.memory_eq_ok hm), h]
  rfl

/-- The write behind the check is one that the memory takes. -/
theorem randomGet_of_check_ok (h0 : params[0]? = some (.i32 buf))
    (h1 : params[1]? = some (.i32 len)) (hm : c.memory = some m)
    (h : m.check buf len.toUInt64 = .ok ()) :
    m.write buf (c.host.entropy.draw len.toNat).1 =
      .ok (m.store buf.toNat (c.host.entropy.draw len.toNat).1) ∧
    randomGet params c = .ok .success { c with
      memory := some (m.store buf.toNat (c.host.entropy.draw len.toNat).1)
      host := { c.host with entropy := (c.host.entropy.draw len.toNat).2 } } := by
  have hlen : (c.host.entropy.draw len.toNat).1.length = len.toNat := by
    rw [Entropy.draw, List.length_map, List.length_range']
  have hwrite : m.write buf (c.host.entropy.draw len.toNat).1 =
      .ok (m.store buf.toNat (c.host.entropy.draw len.toNat).1) := by
    apply Memory.write_of_le
    rw [hlen]
    exact Memory.check_toUInt64_eq_ok_iff.mp h
  refine ⟨hwrite, ?_⟩
  rw [randomGet, HostM.bind_of_ok (HostM.word_eq_ok h0 c), HostM.bind_of_ok (HostM.word_eq_ok h1 c),
    HostM.bind_of_ok (HostM.memory_eq_ok hm), h]
  change commit (m.write buf (c.host.entropy.draw len.toNat).1)
    { c with host := { c.host with entropy := (c.host.entropy.draw len.toNat).2 } } = _
  rw [hwrite, commit_eq_ok]

end Wasi

namespace Memory

/-- The accessors of a memory whose size a long word can hold. All of them succeed exactly when the
range lies in the memory, and all report the range that they were refused; so none fails behind a
check of its range, neither when a range is read nor when random bytes are stored. A write that is
refused changes nothing, and one that succeeds changes just its range, where its bytes are found
again. A long word is written like its low and then its high word. Of a memory the bounds need only
that it reads and writes just the ranges that lie in it. -/
theorem access_exact {m : Memory} (hm : m.size < UInt64.size) (ptr : UInt32) :
    (∀ len, m.Guarded ptr len (m.check ptr len)) ∧
    (∀ len : UInt32, m.Guarded ptr len.toUInt64 (m.read ptr len)) ∧
    m.Guarded ptr 4 (m.readUInt32 ptr) ∧
    (∀ (bytes : Bytes) (len : UInt64), bytes.length = len.toNat →
      m.Guarded ptr len (m.write ptr bytes)) ∧
    (∀ value, m.Guarded ptr 4 (m.writeUInt32 ptr value)) ∧
    (∀ value, m.Guarded ptr 8 (m.writeUInt64 ptr value)) ∧
    (∀ len, m.check ptr len = .ok () →
      (∃ bytes, m.read? ptr.toNat len.toNat = some bytes) ∧
      ∀ bytes : Bytes, bytes.length = len.toNat → ∃ m', m.write? ptr.toNat bytes = some m') ∧
    (∀ random, Wasi.table.get? ⟨Wasi.importSpace, "random_get"⟩ = some random →
      ∀ (context : Context) (host : Host) (len : UInt32),
        (m.check ptr len.toUInt64 ≠ .ok () →
          random.call context [.i32 ptr, .i32 len] (some m) host = ⟨.ok [.i32 21], some m, host⟩) ∧
        (m.check ptr len.toUInt64 = .ok () → ∃ m',
          m.write ptr (host.entropy.draw len.toNat).1 = .ok m' ∧
          random.call context [.i32 ptr, .i32 len] (some m) host =
            ⟨.ok [.i32 0], some m', { host with entropy := (host.entropy.draw len.toNat).2 }⟩)) ∧
    (∀ bytes e, m.write ptr bytes = .error e → ∀ c : Call,
      Script.keep (m.write ptr bytes) c = .ok (.error e) c ∧
      Wasi.commit (m.write ptr bytes) c = .ok .fault c) ∧
    (∀ bytes m', m.write ptr bytes = .ok m' → m.Written m' ptr bytes ∧ ∀ c : Call,
      Script.keep (m.write ptr bytes) c = .ok (.ok ()) { c with memory := some m' } ∧
      Wasi.commit (m.write ptr bytes) c = .ok .success { c with memory := some m' }) ∧
    (∀ value m', m.writeUInt32 ptr value = .ok m' →
      m.Written m' ptr (Bytes.ofUInt32 value) ∧ m'.readUInt32 ptr = .ok value) ∧
    (∀ value m', m.writeUInt64 ptr value = .ok m' →
      m.Written m' ptr (Bytes.ofUInt32 value.toUInt32 ++ Bytes.ofUInt32 (value >>> 32).toUInt32) ∧
      ∀ next : UInt32, next.toNat = ptr.toNat + 4 → ∃ half,
        m.writeUInt32 ptr value.toUInt32 = .ok half ∧
        half.writeUInt32 next (value >>> 32).toUInt32 = .ok m') ∧
    ∀ (μ : Type) [LinearMemory μ] [LawfulLinearMemory μ] (n : μ),
      LinearMemory.size n < UInt64.size → LinearMemory.Agrees n ptr := by
  have h : LinearMemory.Agrees m ptr := LinearMemory.agrees hm ptr
  refine ⟨h.check, h.read, h.readUInt32, h.write, h.writeUInt32, h.writeUInt64, h.behind, ?_, ?_,
    ?_, ?_, ?_, ?_⟩
  · intro random hrandom context host len
    obtain rfl := Option.some.inj (hrandom.symm.trans Wasi.table_get?_random)
    constructor
    · intro h
      cases hcheck : m.check ptr len.toUInt64 with
      | ok u => exact absurd hcheck h
      | error e =>
        have hrun : Wasi.randomGet [.i32 ptr, .i32 len] ⟨context, some m, [.funcRef], host⟩ =
            .ok .fault ⟨context, some m, [.funcRef], host⟩ :=
              Wasi.randomGet_of_check_error rfl rfl rfl hcheck
        exact Wasi.Syscall.call_eq_ok hrun
    · intro h
      let c : Call := ⟨context, some m, [.funcRef], host⟩
      let args : List Value := [.i32 ptr, .i32 len]
      have h0 : args[0]? = some (.i32 ptr) := rfl
      have h1 : args[1]? = some (.i32 len) := rfl
      have hmemory : c.memory = some m := rfl
      obtain ⟨hwrite, hrun⟩ := Wasi.randomGet_of_check_ok h0 h1 hmemory h
      exact ⟨_, hwrite, Wasi.Syscall.call_eq_ok hrun⟩
  · intro bytes e h c
    rw [h]
    exact ⟨Script.keep_error e c, Wasi.commit_error e c⟩
  · intro bytes m' h
    refine ⟨written_of_write h, ?_⟩
    intro c
    rw [h]
    exact ⟨Script.keep_ok m' c, Wasi.commit_eq_ok m' c⟩
  · intro value m' h
    exact ⟨written_of_write h, readUInt32_of_writeUInt32 h⟩
  · intro value m' h
    rw [← Bytes.ofUInt64_eq_append]
    exact ⟨written_of_write h, fun next hn => exists_writeUInt32_of_writeUInt64 h hn⟩
  · intro μ _ _ n hn
    exact LinearMemory.agrees hn ptr

/-- A word fits at the end of a page but no later, and nothing at all fits behind the page. -/
theorem access_exact_last :
    (∃ m', (zeroed 1 1).writeUInt32 65532 7 = .ok m' ∧ m'.readUInt32 65532 = .ok 7) ∧
    (∀ m', (zeroed 1 1).writeUInt32 65533 7 ≠ .ok m') ∧ (zeroed 1 1).check 65536 0 = .ok () ∧
    (zeroed 1 1).check 65536 0xffffffffffffffff = .error ⟨65536, 0xffffffffffffffff⟩ := by
  have hm : (zeroed 1 1).size < UInt64.size := by decide
  obtain ⟨_, _, _, _, hword, _, _, _, _, _, hread, _⟩ := access_exact hm 65532
  obtain ⟨_, _, _, _, hlate, _⟩ := access_exact hm 65533
  obtain ⟨hcheck, _⟩ := access_exact hm 65536
  refine ⟨?_, ?_, ?_, ?_⟩
  · obtain ⟨m', hm'⟩ := (hword 7).succeeds_iff.mpr (by decide)
    exact ⟨m', hm', (hread 7 m' hm').2⟩
  · intro m' hm'
    exact absurd ((hlate 7).succeeds_iff.mp ⟨m', hm'⟩) (by decide)
  · obtain ⟨u, hu⟩ := (hcheck 0).succeeds_iff.mpr (by decide)
    exact hu
  · cases he : (zeroed 1 1).check 65536 0xffffffffffffffff with
    | ok u => exact absurd ((hcheck _).succeeds_iff.mp ⟨u, he⟩) (by decide)
    | error e => rw [(hcheck _).reports e he]

end Memory

end WasmHost

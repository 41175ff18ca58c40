import WasmHost.Proofs.HandOver
import WasmHost.Proofs.Output

namespace WasmHost

namespace Memory

variable {m : Memory}

theorem size_le_of_pages (h : m.pages ≤ maxPages) : m.size ≤ UInt32.size := by
  rw [maxPages] at h
  simp only [size, pageSize, UInt32.size]
  omega

theorem size_eq_iff : m.size = UInt32.size ↔ m.pages = maxPages := by
  simp only [size, pageSize, UInt32.size, maxPages]
  omega

/-- A table of words lies in the memory, or the memory is the whole address space and the table can
go on at its beginning, as no word is divided. -/
def WordsFit (m : Memory) (start count : Nat) : Prop :=
  count = 0 ∨ start + 4 * count ≤ m.size ∨ m.pages = maxPages ∧ start % 4 = 0

theorem walkFits_words_iff (hm : m.pages ≤ maxPages) {start count : Nat}
    (hs : start < UInt32.size) :
    WalkFits m.size start (.replicate count 4) ↔ m.WordsFit start count := by
  have hsum : (List.replicate count 4).sum = 4 * count := by
    rw [List.sum_replicate_nat, Nat.mul_comm]
  constructor
  · intro h
    rcases h.ends (size_le_of_pages hm) hs with hnil | hfit | ⟨hwhole, i, hi, htop⟩
    · exact .inl (List.replicate_eq_nil_iff _ |>.mp hnil)
    · rw [hsum] at hfit
      exact .inr (.inl hfit)
    · rw [List.length_replicate] at hi
      rw [List.take_replicate, List.sum_replicate_nat, Nat.min_eq_left hi.le, UInt32.size] at htop
      exact .inr (.inr ⟨size_eq_iff.mp hwhole, by omega⟩)
  · intro h
    rcases h with rfl | hfit | ⟨hwhole, haligned⟩
    · trivial
    · exact WalkFits.of_le (by rwa [hsum])
    · rw [size_eq_iff.mpr hwhole]
      exact WalkFits.words_of_aligned haligned

end Memory

namespace Wasi

theorem writeStrings_answer (m : Memory) (list buf : UInt32) (strings : List Bytes) :
    (writeStrings m list buf strings).1 = .success ∨
      (writeStrings m list buf strings).1 = .fault := by
  induction strings generalizing m list buf with
  | nil => exact .inl rfl
  | cons s rest ih =>
    rw [writeStrings]
    cases m.writeUInt32 list buf with
    | error e => exact .inr rfl
    | ok m₁ =>
      cases hs : m₁.write buf s with
      | error e => simp [hs]
      | ok m₂ =>
        simp only [hs]
        exact ih m₂ _ _

/-- Texts that start at `buf` lie in the memory, each at the place where its pointer is after it has
been brought back into 32 bits. -/
def TextsFit (m : Memory) (buf : Nat) (texts : List String) : Prop :=
  WalkFits m.size buf (texts.map fun s => s.utf8ByteSize + 1)

theorem TextsFit.ends {m : Memory} {buf : Nat} {texts : List String}
    (hm : m.pages ≤ Memory.maxPages) (hb : buf < UInt32.size) (h : TextsFit m buf texts) :
    texts = [] ∨ buf + textSize texts ≤ m.size ∨
      m.pages = Memory.maxPages ∧
        ∃ i < texts.length, buf + textSize (texts.take i) = UInt32.size := by
  rcases WalkFits.ends (Memory.size_le_of_pages hm) hb h with hnil | hfit | ⟨hwhole, i, hi, htop⟩
  · exact .inl (List.map_eq_nil_iff.mp hnil)
  · exact .inr (.inl hfit)
  · rw [List.length_map] at hi
    rw [← List.map_take] at htop
    exact .inr (.inr ⟨Memory.size_eq_iff.mp hwhole, i, hi, htop⟩)

section

variable {context : Context} {m : Memory}

theorem gather_eq_ok_iff_wordsFit {iovs count : UInt32} {bytes : Bytes}
    (hm : m.pages ≤ Memory.maxPages) :
    gather m iovs count.toNat = .ok bytes ↔
      m.WordsFit iovs.toNat (2 * count.toNat) ∧
      (∀ b ∈ m.buffers Memory.wrapped iovs.toNat count.toNat, b.base + b.len ≤ m.size) ∧
      bytes = m.joined (m.buffers Memory.wrapped iovs.toNat count.toNat) := by
  rw [gather_eq_ok_iff, Memory.walkFits_words_iff hm iovs.toNat_lt]

/-- Records that do not fit are answered with 21; nothing else about them is looked at. -/
theorem call_write_of_not_wordsFit (hm : m.pages ≤ Memory.maxPages) {fd iovs count : UInt32}
    (hfd : fd = 1 ∨ fd = 2) (h : ¬ m.WordsFit iovs.toNat (2 * count.toNat)) (out : UInt32)
    (host : Host) :
    writeFunc.call context [.i32 fd, .i32 iovs, .i32 count, .i32 out] (some m) host =
      ⟨.ok [.i32 21], some m, host⟩ := by
  obtain ⟨sink, hs⟩ := Context.exists_output?_iff.mpr hfd
  apply call_write_of_not_gathered ⟨rfl, rfl, rfl, rfl⟩ hs
  intro bytes hg
  exact h ((gather_eq_ok_iff_wordsFit hm).mp hg).1

theorem wordsFit_of_call_write (hm : m.pages ≤ Memory.maxPages) {fd iovs count out : UInt32}
    {host : Host}
    (h : (writeFunc.call context [.i32 fd, .i32 iovs, .i32 count, .i32 out] (some m) host).result =
        .ok [.i32 0]) :
    m.WordsFit iovs.toNat (2 * count.toNat) := by
  by_contra hout
  by_cases hfd : fd = 1 ∨ fd = 2
  · rw [call_write_of_not_wordsFit hm hfd hout] at h
    simp at h
  · rw [call_write_of_badf ⟨rfl, rfl, rfl, rfl⟩ (Context.output?_eq_none_iff.mpr hfd)] at h
    simp at h

theorem call_get_result (l : StringList) (h0 : ∀ s ∈ l.strings context, '\x00' ∉ s.toList)
    (hm : m.pages ≤ Memory.maxPages) (list buf : UInt32) (host : Host) :
    let r := l.get.call context [.i32 list, .i32 buf] (some m) host
    (r.result = .ok [.i32 0] ↔
      m.WordsFit list.toNat (l.strings context).length ∧ TextsFit m buf.toNat (l.strings context)) ∧
    (r.result = .ok [.i32 0] ∨ r.result = .ok [.i32 21]) := by
  intro r
  have hr : r = _ := StringList.call_get h0 list buf
  have hsizes : ((l.strings context).map terminated).map List.length =
      (l.strings context).map fun s => s.utf8ByteSize + 1 := by
    simp
  constructor
  · rw [hr, errnoResult_eq_zero_iff, writeStrings_eq_success_iff, List.length_map, hsizes,
      Memory.walkFits_words_iff hm list.toNat_lt]
    rfl
  · rw [hr]
    rcases writeStrings_answer m list buf ((l.strings context).map terminated) with h | h
    · left
      rw [h]
      rfl
    · right
      rw [h]
      rfl

end

/-- How far a table may reach. In a memory of fewer than 65536 pages a call that succeeds has found
its table, and the buffer it fills, below the end. A memory that is the whole address space has an
address for every pointer, so a table that meets the end between two words goes on at address 0, and
so does a buffer that meets it between two texts. -/
theorem table_reach {write get : HostFunc} {l : StringList} (hw : table.get? writeName = some write)
    (hg : table.get? ⟨importSpace, l.getName⟩ = some get) (context : Context) (host : Host)
    {m : Memory} (hm : m.pages ≤ Memory.maxPages) :
    (∀ fd iovs count out : UInt32,
      let r := write.call context [.i32 fd, .i32 iovs, .i32 count, .i32 out] (some m) host
      let buffers := m.buffers Memory.wrapped iovs.toNat count.toNat
      (r.result = .ok [.i32 0] → m.WordsFit iovs.toNat (2 * count.toNat)) ∧
      ((fd = 1 ∨ fd = 2) → ¬ m.WordsFit iovs.toNat (2 * count.toNat) →
        r = ⟨.ok [.i32 21], some m, host⟩) ∧
      (∀ sink, context.output? fd = some sink → sink ≠ .inherited →
        m.WordsFit iovs.toNat (2 * count.toNat) →
        (∀ b ∈ buffers, b.base + b.len ≤ m.size) → (m.joined buffers).length < UInt32.size →
        out.toNat + 4 ≤ m.size →
        r.result = .ok [.i32 0])) ∧
    ((∀ s ∈ l.strings context, '\x00' ∉ s.toList) → ∀ list buf : UInt32,
      let r := get.call context [.i32 list, .i32 buf] (some m) host
      let texts := l.strings context
      (r.result = .ok [.i32 0] ↔ m.WordsFit list.toNat texts.length ∧ TextsFit m buf.toNat texts) ∧
      (r.result = .ok [.i32 0] ∨ r.result = .ok [.i32 21]) ∧
      (r.result = .ok [.i32 0] → texts = [] ∨ buf.toNat + textSize texts ≤ m.size ∨
        m.pages = Memory.maxPages ∧
          ∃ i < texts.length, buf.toNat + textSize (texts.take i) = UInt32.size)) ∧
    ((∃ s ∈ l.strings context, '\x00' ∈ s.toList) → ∀ list buf : UInt32,
      get.call context [.i32 list, .i32 buf] (some m) host = ⟨.ok [.i32 28], some m, host⟩) := by
  obtain rfl := Option.some.inj (hw.symm.trans table_get?_writeName)
  obtain rfl := Option.some.inj (hg.symm.trans l.table_get?_get)
  refine ⟨?_, ?_, ?_⟩
  · intro fd iovs count out
    refine ⟨wordsFit_of_call_write hm, fun hfd h =>
      call_write_of_not_wordsFit hm hfd h out host, ?_⟩
    intro sink hs hi hwords hbuffers hlen hout
    have hgather := (gather_eq_ok_iff_wordsFit hm).mpr ⟨hwords, hbuffers, rfl⟩
    exact (call_write_result hs hi hgather out host).1.mpr ⟨hlen, hout⟩
  · intro h0 list buf
    obtain ⟨hiff, hanswer⟩ := call_get_result l h0 hm list buf host
    exact ⟨hiff, hanswer, fun h => (hiff.mp h).2.ends hm buf.toNat_lt⟩
  · intro hnul list buf
    obtain ⟨s, hs, h0⟩ := hnul
    exact (StringList.call_of_nul hs h0 [.i32 list, .i32 buf] (some m)).2

/-- Two records from eight bytes below the end of the address space on, of which the second stands
at address 0. -/
theorem table_reach_around :
    let m := Memory.zeroed Memory.maxPages Memory.maxPages
    (writeFunc.call recording [.i32 1, .i32 0xfffffff8, .i32 2, .i32 100] (some m) .still).result =
      .ok [.i32 0] ∧
    m.size < (0xfffffff8 : UInt32).toNat + 8 * 2 := by
  intro m
  have hm : m.pages ≤ Memory.maxPages := Nat.le_refl _
  have hword (addr : Nat) : m.word addr = 0 := by
    simp only [Memory.word, Memory.slice, List.range', List.map_cons, List.map_nil, m,
      Memory.byte_zeroed]
    rfl
  have hbuffers : m.buffers Memory.wrapped (0xfffffff8 : UInt32).toNat (2 : UInt32).toNat =
    [⟨0, 0⟩, ⟨0, 0⟩] := by
    simp [Memory.buffers, hword, List.range_succ]
  obtain ⟨hwrite, _⟩ :=
    table_reach table_get?_writeName StringList.args.table_get?_get recording .still hm
  obtain ⟨_, _, h⟩ := hwrite 1 0xfffffff8 2 100
  refine ⟨?_, by decide⟩
  apply h (.capture "o") rfl (by decide) (.inr (.inr ⟨rfl, by decide⟩))
  · rw [hbuffers]
    simp
  · rw [hbuffers]
    decide
  · decide

end Wasi

end WasmHost

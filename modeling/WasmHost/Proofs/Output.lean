import WasmHost.Proofs.HostCalls
import WasmHost.Proofs.TableWalk

namespace WasmHost

namespace Streams

variable {s s' : Streams} {sink : Sink} {fd : UInt32} {bytes : Bytes}

/-- What was written to the buffer of a name; to one that does not exist yet, nothing. -/
def contents (s : Streams) (name : String) : Bytes := (s.captured? name).getD []

theorem contents_capture (s : Streams) (name other : String) (bytes : Bytes) :
    (s.capture name bytes).contents other = s.contents other ++ if name = other then bytes
      else [] := by
  rw [contents, captured?_capture]
  by_cases h : other = name
  · simp [h, contents]
  · simp [h, Ne.symm h, contents]

/-- A write adds its bytes to the buffer that is its sink, and to no other. -/
theorem contents_write (s : Streams) (sink : Sink) (fd : UInt32) (bytes : Bytes) (name : String) :
    (s.write sink fd bytes).2.contents name = s.contents name ++ if sink = .capture name then bytes
      else [] := by
  cases sink with
  | discard => simp [write]
  | capture other => simp [write, contents_capture]
  | inherited =>
    have hkept : (s.write .inherited fd bytes).2.captures = s.captures := by
      simp only [write]
      split
      · split <;> rfl
      · rfl
    simp [contents, captured?, hkept]

/-- Only the host's own streams can refuse, or take bytes that no buffer holds. -/
theorem write_of_ne_inherited (h : sink ≠ .inherited) (s : Streams) (fd : UInt32) (bytes : Bytes) :
    ∃ captures, s.write sink fd bytes = (true, { s with captures }) := by
  cases sink with
  | discard => exact ⟨s.captures, rfl⟩
  | capture name => exact ⟨_, rfl⟩
  | inherited => exact absurd rfl h

/-- A buffer that took bytes shows it exactly when there were any. -/
theorem exists_contents_ne_iff {name : String} (h : ∀ other, s'.contents other =
    s.contents other ++ if Sink.capture name = .capture other then bytes else []) :
    (∃ other, s'.contents other ≠ s.contents other) ↔ bytes ≠ [] := by
  constructor
  · intro hne hnil
    obtain ⟨other, hother⟩ := hne
    rw [h, hnil, ite_self, List.append_nil] at hother
    exact hother rfl
  · intro hne
    refine ⟨name, ?_⟩
    rw [h, if_pos rfl, Ne, List.append_right_eq_self]
    exact hne

end Streams

namespace Context

variable {context : Context} {fd : UInt32} {sink : Sink}

theorem output?_eq_none_iff : context.output? fd = none ↔ ¬ (fd = 1 ∨ fd = 2) := by
  unfold output?
  split
  · simp_all
  · split <;> simp_all

theorem exists_output?_iff : (∃ sink, context.output? fd = some sink) ↔ fd = 1 ∨ fd = 2 := by
  rw [← Option.isSome_iff_exists, Option.isSome_iff_ne_none, Ne, output?_eq_none_iff, not_not]

theorem mem_of_output? (h : context.output? fd = some sink) :
    sink = context.stdout ∨ sink = context.stderr := by
  unfold output? at h
  split at h
  · cases h
    exact .inl rfl
  · split at h <;> cases h
    exact .inr rfl

end Context

namespace Wasi

def writeName : ImportName := ⟨importSpace, "fd_write"⟩

/-- The function that writes output, as it stands in the table. -/
def writeFunc : HostFunc := Syscall.toHostFunc [.i32, .i32, .i32, .i32] fdWrite

theorem table_get?_writeName : table.get? writeName = some writeFunc := rfl

/-- The arguments of a call that writes output, whatever may follow them. -/
structure WriteArgs (args : List Value) (fd iovs count out : UInt32) : Prop where
  fd : args[0]? = some (.i32 fd)
  iovs : args[1]? = some (.i32 iovs)
  count : args[2]? = some (.i32 count)
  out : args[3]? = some (.i32 out)

/-- What the storing of a count answers, and the memory that it leaves. -/
def storeCount (m : Memory) (out : UInt32) (count : Nat) : Errno × Memory :=
  if count < UInt32.size then
    if out.toNat + 4 ≤ m.size then (.success, m.store out.toNat (Bytes.ofNat 4 count))
    else (.fault, m)
  else (.inval, m)

theorem storeCount_eq_success_iff {m : Memory} {out : UInt32} {count : Nat} :
    (storeCount m out count).1 = .success ↔ count < UInt32.size ∧ out.toNat + 4 ≤ m.size := by
  unfold storeCount
  split
  · split <;> simp_all
  · simp_all

section

variable {args : List Value} {fd iovs count out : UInt32} {context : Context} {host : Host}
  {m : Memory} {memory : Option Memory} {c : Call} {sink : Sink} {streams : Streams} {bytes : Bytes}

theorem emit_eq_ok (hm : c.memory = some m)
    (hw : c.host.streams.write sink fd bytes = (true, streams)) (out : UInt32) :
    emit m sink fd bytes out c =
      .ok (storeCount m out bytes.length).1
        { c with
          memory := some (storeCount m out bytes.length).2
          host := { c.host with streams } } := by
  obtain ⟨context, memory, results, host⟩ := c
  obtain rfl : memory = some m := hm
  have hemit : emit m sink fd bytes out ⟨context, some m, results, host⟩ =
      (if bytes.length < UInt32.size then commit (m.writeUInt32 out (UInt32.ofNat bytes.length))
        else pure .inval)
        ⟨context, some m, results, { host with streams }⟩ := by
    rw [emit, HostM.bind_of_ok (HostM.host_eq_ok _)]
    simp only at hw
    simp only [hw]
    rfl
  rw [hemit, storeCount]
  by_cases hlen : bytes.length < UInt32.size
  · by_cases hout : out.toNat + 4 ≤ m.size
    · simp only [hlen, hout, if_true, Memory.writeUInt32_of_le hout, Bytes.ofUInt32_ofNat hlen,
        commit_eq_ok]
    · have hwrite : m.writeUInt32 out (UInt32.ofNat bytes.length) = .error ⟨out, 4⟩ := by
        apply Memory.write_of_lt
        rw [Bytes.length_ofUInt32]
        exact Nat.lt_of_not_le hout
      simp only [hlen, hout, if_true, if_false, hwrite, commit_error]
  · simp only [hlen, if_false]
    rfl

theorem emit_of_refused (hw : c.host.streams.write sink fd bytes = (false, streams)) (m : Memory)
    (out : UInt32) :
    emit m sink fd bytes out c = .ok .io { c with host := { c.host with streams } } := by
  rw [emit, HostM.bind_of_ok (HostM.host_eq_ok c)]
  simp only [hw]
  rfl

theorem fdWrite_eq (h : WriteArgs args fd iovs count out) (c : Call) :
    fdWrite args c =
      (match c.context.output? fd with
        | none => pure Errno.badf
        | some sink => do
          let m ← HostM.memory
          match gather m iovs count.toNat with
          | .error _ => return Errno.fault
          | .ok bytes => emit m sink fd bytes out) c := by
  rw [fdWrite, HostM.bind_of_ok (HostM.word_eq_ok h.fd c),
    HostM.bind_of_ok (HostM.word_eq_ok h.iovs c),
    HostM.bind_of_ok (HostM.word_eq_ok h.count c), HostM.bind_of_ok (HostM.word_eq_ok h.out c)]
  exact HostM.bind_of_ok (HostM.context_eq_ok c)

/-- A descriptor without a sink is refused before anything is looked at. -/
theorem call_write_of_badf (h : WriteArgs args fd iovs count out) (hs : context.output? fd = none) :
    writeFunc.call context args memory host = ⟨.ok [.i32 8], memory, host⟩ := by
  change writeFunc.call context args memory host = ⟨.ok [.i32 Errno.badf.code], memory, host⟩
  apply Syscall.call_eq_ok
  rw [fdWrite_eq h]
  simp only [hs]
  rfl

/-- A record or a buffer outside the memory is answered before anything is sent. -/
theorem call_write_of_fault (h : WriteArgs args fd iovs count out)
    (hs : context.output? fd = some sink) {e : OutOfBounds}
    (hg : gather m iovs count.toNat = .error e) :
    writeFunc.call context args (some m) host = ⟨.ok [.i32 21], some m, host⟩ := by
  change writeFunc.call context args (some m) host = ⟨.ok [.i32 Errno.fault.code], some m, host⟩
  apply Syscall.call_eq_ok
  rw [fdWrite_eq h]
  simp only [hs]
  rw [HostM.bind_of_ok (HostM.memory_eq_ok rfl), hg]
  rfl

theorem call_write_of_not_gathered (h : WriteArgs args fd iovs count out)
    (hs : context.output? fd = some sink) (hg : ∀ bytes, gather m iovs count.toNat ≠ .ok bytes) :
    writeFunc.call context args (some m) host = ⟨.ok [.i32 21], some m, host⟩ := by
  cases hgather : gather m iovs count.toNat with
  | error e => exact call_write_of_fault h hs hgather
  | ok bytes => exact absurd hgather (hg bytes)

/-- What was gathered cannot be sent, or only in part; the answer is an error, and nothing is
stored. -/
theorem call_write_of_refused (h : WriteArgs args fd iovs count out)
    (hs : context.output? fd = some sink) (hg : gather m iovs count.toNat = .ok bytes)
    (hw : host.streams.write sink fd bytes = (false, streams)) :
    writeFunc.call context args (some m) host = ⟨.ok [.i32 29], some m, { host with streams }⟩ := by
  change writeFunc.call context args (some m) host =
    ⟨.ok [.i32 Errno.io.code], some m, { host with streams }⟩
  apply Syscall.call_eq_ok
  rw [fdWrite_eq h]
  simp only [hs]
  rw [HostM.bind_of_ok (HostM.memory_eq_ok rfl), hg]
  exact emit_of_refused hw m out

/-- What was gathered has been sent when the count is stored, whatever comes of that. -/
theorem call_write_of_gather (h : WriteArgs args fd iovs count out)
    (hs : context.output? fd = some sink) (hg : gather m iovs count.toNat = .ok bytes)
    (hw : host.streams.write sink fd bytes = (true, streams)) :
    writeFunc.call context args (some m) host =
      ⟨.ok [.i32 (storeCount m out bytes.length).1.code], some (storeCount m out bytes.length).2,
        { host with streams }⟩ := by
  apply Syscall.call_eq_ok
  rw [fdWrite_eq h]
  simp only [hs]
  rw [HostM.bind_of_ok (HostM.memory_eq_ok rfl), hg]
  exact emit_eq_ok rfl hw out

end

/-- The records of a call and the buffers that they name lie in the memory. -/
structure Gatherable (m : Memory) (start count : Nat) : Prop where
  record : ∀ i < count, start + 8 * i + 8 ≤ m.size
  buffer : ∀ b ∈ m.buffers id start count, b.base + b.len ≤ m.size

/-- In a memory short of the whole address space the records are read where they stand. -/
theorem gather_eq_ok_iff_of_lt {m : Memory} {iovs count : UInt32} {bytes : Bytes}
    (hm : m.size < UInt32.size) :
    gather m iovs count.toNat = .ok bytes ↔
      Gatherable m iovs.toNat count.toNat ∧
      bytes = m.joined (m.buffers id iovs.toNat count.toNat) := by
  have hwalk : WalkFits m.size iovs.toNat (.replicate (2 * count.toNat) 4) ↔
      count.toNat = 0 ∨ iovs.toNat + 8 * count.toNat ≤ m.size := by
    rw [WalkFits.iff_of_lt hm iovs.toNat_lt, List.replicate_eq_nil_iff, List.sum_replicate_nat]
    omega
  rw [gather_eq_ok_iff, hwalk]
  by_cases h0 : count.toNat = 0
  · rw [h0]
    constructor
    · intro h
      exact ⟨⟨fun i hi => absurd hi (Nat.not_lt_zero i), h.2.1⟩, h.2.2⟩
    · intro h
      exact ⟨.inl rfl, h.1.buffer, h.2⟩
  · constructor
    · intro h
      obtain ⟨hfit, hbuffer, hbytes⟩ := h
      have hfit := hfit.resolve_left h0
      rw [Memory.buffers_wrapped_of_le hm hfit] at hbuffer hbytes
      refine ⟨⟨?_, hbuffer⟩, hbytes⟩
      intro i hi
      omega
    · intro h
      obtain ⟨⟨hrecord, hbuffer⟩, hbytes⟩ := h
      have hlast := hrecord (count.toNat - 1) (by omega)
      have hfit : iovs.toNat + 8 * count.toNat ≤ m.size := by
        omega
      rw [Memory.buffers_wrapped_of_le hm hfit]
      exact ⟨.inr hfit, hbuffer, hbytes⟩

/-- What a call that succeeded has done: its bytes are in the sink of the descriptor, their number
is in the memory, and nothing else changed. -/
structure Sent (sink : Sink) (out : Nat) (bytes : Bytes) (m m' : Memory) (host host' : Host) :
    Prop where
  size : m'.size = m.size
  count : m'.read? out 4 = some (Bytes.ofNat 4 bytes.length)
  outside : ∀ i, (i < out ∨ out + 4 ≤ i) → m'.byte i = m.byte i
  sinks : ∀ name, host'.streams.contents name =
    host.streams.contents name ++ if sink = .capture name then bytes else []
  host : ∃ captures, host' = { host with streams := { host.streams with captures } }

theorem errnoResult_eq_zero_iff {errno : Errno} :
    (Except.ok [.i32 errno.code] : Except Stop (List Value)) = .ok [.i32 0] ↔ errno = .success := by
  cases errno <;> simp [Errno.code]

section

variable {context : Context} {host : Host} {m : Memory} {fd iovs count out : UInt32} {sink : Sink}
  {bytes : Bytes}

/-- A call that got its bytes together, with a sink that takes them, stores their number last. -/
theorem exists_call_write (hs : context.output? fd = some sink) (hi : sink ≠ .inherited)
    (hg : gather m iovs count.toNat = .ok bytes) (out : UInt32) (host : Host) :
    ∃ host' : Host,
      writeFunc.call context [.i32 fd, .i32 iovs, .i32 count, .i32 out] (some m) host =
        ⟨.ok [.i32 (storeCount m out bytes.length).1.code], some (storeCount m out bytes.length).2,
          host'⟩ ∧
      (∃ captures, host' = { host with streams := { host.streams with captures } }) ∧
      ∀ name, host'.streams.contents name =
        host.streams.contents name ++ if sink = .capture name then bytes else [] := by
  obtain ⟨captures, hw⟩ := Streams.write_of_ne_inherited hi host.streams fd bytes
  refine ⟨_, call_write_of_gather ⟨rfl, rfl, rfl, rfl⟩ hs hg hw, ⟨captures, rfl⟩, ?_⟩
  have hcontents := Streams.contents_write host.streams sink fd bytes
  rwa [hw] at hcontents

theorem storeCount_of_le (hlen : bytes.length < UInt32.size) (hout : out.toNat + 4 ≤ m.size) :
    ∃ m', storeCount m out bytes.length = (.success, m') ∧ m'.size = m.size ∧
      m'.read? out.toNat 4 = some (Bytes.ofNat 4 bytes.length) ∧
      ∀ i, (i < out.toNat ∨ out.toNat + 4 ≤ i) → m'.byte i = m.byte i := by
  have hsize := m.size_store out.toNat (Bytes.ofNat 4 bytes.length)
  have hslice := m.slice_store out.toNat (Bytes.ofNat 4 bytes.length)
  rw [Bytes.length_ofNat] at hslice
  refine ⟨_, by rw [storeCount, if_pos hlen, if_pos hout], hsize, ?_, ?_⟩
  · rw [Memory.read?_of_le (by rwa [hsize]), hslice]
  · intro i hi
    apply Memory.byte_store_of_outside
    rwa [Bytes.length_ofNat]

/-- Once the bytes are together, only their number and the place for it decide. -/
theorem call_write_result (hs : context.output? fd = some sink) (hi : sink ≠ .inherited)
    (hg : gather m iovs count.toNat = .ok bytes) (out : UInt32) (host : Host) :
    let r := writeFunc.call context [.i32 fd, .i32 iovs, .i32 count, .i32 out] (some m) host
    (r.result = .ok [.i32 0] ↔ bytes.length < UInt32.size ∧ out.toNat + 4 ≤ m.size) ∧
    (r.result = .ok [.i32 0] →
      ∃ m', r.memory = some m' ∧ Sent sink out.toNat bytes m m' host r.host) := by
  intro r
  obtain ⟨host', hcall, hhost, hsinks⟩ := exists_call_write hs hi hg out host
  have hr : r = _ := hcall
  have hresult : r.result = .ok [.i32 0] ↔ bytes.length < UInt32.size ∧ out.toNat + 4 ≤ m.size := by
    rw [hr, errnoResult_eq_zero_iff, storeCount_eq_success_iff]
  refine ⟨hresult, ?_⟩
  intro h
  obtain ⟨hlen, hout⟩ := hresult.mp h
  obtain ⟨m', hstore, hsize, hcount, houtside⟩ := storeCount_of_le hlen hout
  rw [hr, hstore]
  exact ⟨m', rfl, hsize, hcount, houtside, hsinks, hhost⟩

end

/-- A call gathers exactly what its records name, as it stood before the call. It succeeds just when
the descriptor has a sink, each record, each buffer and the place for the count lie in the memory,
and the count is a word. A record or a buffer outside the memory is answered before anything is
sent. -/
theorem write_exact {write : HostFunc} (hw : table.get? writeName = some write) {context : Context}
    {m : Memory} (hout : context.stdout ≠ .inherited) (herr : context.stderr ≠ .inherited)
    (hm : m.pages ≤ 65535) (fd iovs count out : UInt32) (host : Host) :
    let bytes := m.joined (m.buffers id iovs.toNat count.toNat)
    let r := write.call context [.i32 fd, .i32 iovs, .i32 count, .i32 out] (some m) host
    (r.result = .ok [.i32 0] ↔ (fd = 1 ∨ fd = 2) ∧ Gatherable m iovs.toNat count.toNat ∧
      bytes.length ≤ 2 ^ 32 - 1 ∧ out.toNat + 4 ≤ m.size) ∧
    (r.result = .ok [.i32 0] → ∃ sink m', context.output? fd = some sink ∧ r.memory = some m' ∧
      Sent sink out.toNat bytes m m' host r.host) ∧
    ((fd = 1 ∨ fd = 2) → ¬ Gatherable m iovs.toNat count.toNat →
      r = ⟨.ok [.i32 21], some m, host⟩) ∧
    (¬ (fd = 1 ∨ fd = 2) → r = ⟨.ok [.i32 8], some m, host⟩) := by
  intro bytes r
  obtain rfl := Option.some.inj (hw.symm.trans table_get?_writeName)
  have hsize : m.size < UInt32.size := by
    simp only [Memory.size, Memory.pageSize, UInt32.size]
    omega
  by_cases hfd : fd = 1 ∨ fd = 2
  · obtain ⟨sink, hs⟩ := Context.exists_output?_iff.mpr hfd
    have hi : sink ≠ .inherited := by
      rcases Context.mem_of_output? hs with rfl | rfl
      · exact hout
      · exact herr
    by_cases hg : Gatherable m iovs.toNat count.toNat
    · obtain ⟨hresult, hsent⟩ :=
        call_write_result hs hi ((gather_eq_ok_iff_of_lt hsize).mpr ⟨hg, rfl⟩) out host
      have hword : bytes.length ≤ 2 ^ 32 - 1 ↔ bytes.length < UInt32.size :=
        Nat.le_sub_one_iff_lt (by decide)
      refine ⟨?_, ?_, fun _ h => absurd hg h, fun h => absurd hfd h⟩
      · rw [hword]
        exact hresult.trans ⟨fun h => ⟨hfd, hg, h⟩, fun h => h.2.2⟩
      · intro h
        obtain ⟨m', hmem, hm'⟩ := hsent h
        exact ⟨sink, m', hs, hmem, hm'⟩
    · have hnot : ∀ bytes, gather m iovs count.toNat ≠ .ok bytes := by
        intro bytes hgather
        exact hg ((gather_eq_ok_iff_of_lt hsize).mp hgather).1
      have hr : r = _ := call_write_of_not_gathered ⟨rfl, rfl, rfl, rfl⟩ hs hnot
      have hne : r.result ≠ .ok [.i32 0] := by simp [hr]
      exact ⟨⟨fun h => absurd h hne, fun h => absurd h.2.1 hg⟩, fun h => absurd h hne, fun _ _ =>
        hr,
        fun h => absurd hfd h⟩
  · have hr : r = _ := call_write_of_badf ⟨rfl, rfl, rfl, rfl⟩ (Context.output?_eq_none_iff.mpr hfd)
    have hne : r.result ≠ .ok [.i32 0] := by simp [hr]
    exact ⟨⟨fun h => absurd h hne, fun h => absurd h.1 hfd⟩, fun h => absurd h hne, fun h =>
      absurd h hfd, fun _ => hr⟩

/-- A context that keeps both output streams apart. -/
def recording : Context := ContextDraft.build { stdout := .capture "o", stderr := .capture "e" } 0

/-- A page with two records from 0 on, whose buffers overlap at 17. -/
def overlapping : Memory :=
  (Memory.zeroed 1 1).store 0 [16, 0, 0, 0, 2, 0, 0, 0, 17, 0, 0, 0, 1, 0, 0, 0, 104, 105]

/-- The count may go where the first record stands: the records have been read by then. -/
theorem write_exact_overlapping :
    let r := writeFunc.call recording [.i32 1, .i32 0, .i32 2, .i32 0] (some overlapping) .still
    r.result = .ok [.i32 0] ∧ ∃ m', r.memory = some m' ∧
      Sent (.capture "o") 0 [104, 105, 105] overlapping m' .still r.host := by
  intro r
  have hrecord : ∀ i < 2, 0 + 8 * i + 8 ≤ overlapping.size := by decide
  have hbuffer : ∀ b ∈ overlapping.buffers id 0 2, b.base + b.len ≤ overlapping.size := by decide
  have hbytes : overlapping.joined (overlapping.buffers id 0 2) = [104, 105, 105] := by decide
  have hout : recording.stdout ≠ .inherited := by decide
  have herr : recording.stderr ≠ .inherited := by decide
  have hm : overlapping.pages ≤ 65535 := by decide
  obtain ⟨hresult, hsent, _⟩ := write_exact table_get?_writeName hout herr hm 1 0 2 0 .still
  have h : r.result = .ok [.i32 0] :=
    hresult.mpr ⟨by decide, ⟨hrecord, hbuffer⟩, by decide, by decide⟩
  obtain ⟨sink, m', hs, hm', hall⟩ := hsent h
  obtain rfl : Sink.capture "o" = sink := Option.some.inj hs
  refine ⟨h, m', hm', ?_⟩
  rw [← hbytes]
  exact hall

/-- A call that fails has sent all that it gathered, when only the count or the place for it was at
fault: these are looked at when the bytes are out. Every other failure comes before anything is
sent. -/
theorem failed_write_sends_iff {write : HostFunc} (hw : table.get? writeName = some write)
    {context : Context} {stdout stderr : String} (hout : context.stdout = .capture stdout)
    (herr : context.stderr = .capture stderr) (m : Memory) (fd iovs count out : UInt32)
    (host : Host) :
    let r := write.call context [.i32 fd, .i32 iovs, .i32 count, .i32 out] (some m) host
    ∃ errno : Errno, r.result = .ok [.i32 errno.code] ∧
      ((errno ≠ .success ∧ ∃ name, r.host.streams.contents name ≠ host.streams.contents name) ↔
        (fd = 1 ∨ fd = 2) ∧ ∃ bytes, gather m iovs count.toNat = .ok bytes ∧ bytes ≠ [] ∧
          (UInt32.size ≤ bytes.length ∨ m.size < out.toNat + 4)) ∧
      ∀ bytes name, gather m iovs count.toNat = .ok bytes →
        context.output? fd = some (.capture name) →
        r.host.streams.contents name = host.streams.contents name ++ bytes := by
  intro r
  obtain rfl := Option.some.inj (hw.symm.trans table_get?_writeName)
  cases hs : context.output? fd with
  | none =>
    have hfd := Context.output?_eq_none_iff.mp hs
    have hr : r = _ := call_write_of_badf ⟨rfl, rfl, rfl, rfl⟩ hs
    refine ⟨.badf, by rw [hr]; rfl, ?_, by simp⟩
    simp [hr, hfd]
  | some sink =>
    have hfd := Context.exists_output?_iff.mp ⟨sink, hs⟩
    obtain ⟨name, rfl⟩ : ∃ name, sink = .capture name := by
      rcases Context.mem_of_output? hs with rfl | rfl
      · exact ⟨stdout, hout⟩
      · exact ⟨stderr, herr⟩
    cases hg : gather m iovs count.toNat with
    | error e =>
      have hr : r = _ := call_write_of_fault ⟨rfl, rfl, rfl, rfl⟩ hs hg
      refine ⟨.fault, by rw [hr]; rfl, ?_, by simp⟩
      simp [hr]
    | ok bytes =>
      obtain ⟨host', hcall, _, hsinks⟩ := exists_call_write hs (by simp) hg out host
      have hr : r = _ := hcall
      have hfail : (storeCount m out bytes.length).1 ≠ .success ↔
          UInt32.size ≤ bytes.length ∨ m.size < out.toNat + 4 := by
        rw [Ne, storeCount_eq_success_iff]
        omega
      refine ⟨(storeCount m out bytes.length).1, by rw [hr], ?_, ?_⟩
      · rw [hr, hfail, Streams.exists_contents_ne_iff hsinks]
        constructor
        · intro h
          exact ⟨hfd, bytes, rfl, h.2, h.1⟩
        · intro h
          obtain ⟨_, bytes', hbytes, hne, hbad⟩ := h
          cases hbytes
          exact ⟨hbad, hne⟩
      · intro bytes' other hbytes hother
        cases hbytes
        rw [hr, hsinks, if_pos (Option.some.inj hother)]

/-- A page with one record at 0, of a buffer at 16. -/
def greetingPage : Memory :=
  (Memory.zeroed 1 1).store 0 [16, 0, 0, 0, 2, 0, 0, 0, 0, 0, 0, 0, 0, 0, 0, 0, 104, 105]

/-- The count has nowhere to go, and the output is out. -/
theorem failed_write_sends_greeting :
    let r :=
      writeFunc.call recording [.i32 1, .i32 0, .i32 1, .i32 0xffffffff] (some greetingPage) .still
    ∃ errno : Errno, errno ≠ .success ∧ r.result = .ok [.i32 errno.code] ∧
      r.host.streams.contents "o" = [104, 105] := by
  intro r
  have hg : gather greetingPage 0 1 = .ok [104, 105] := by decide
  have hout : recording.stdout = .capture "o" := rfl
  have herr : recording.stderr = .capture "e" := rfl
  obtain ⟨errno, hresult, hiff, hall⟩ :=
    failed_write_sends_iff table_get?_writeName hout herr greetingPage 1 0 1
    0xffffffff .still
  obtain ⟨hne, _⟩ := hiff.mpr ⟨.inl rfl, [104, 105], hg, by decide, .inr (by decide)⟩
  exact ⟨errno, hne, hresult, hall _ _ hg rfl⟩

end Wasi

end WasmHost

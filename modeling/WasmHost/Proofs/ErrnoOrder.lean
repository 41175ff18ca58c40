import WasmHost.Proofs.AddressSpace
import WasmHost.Proofs.Demands

namespace WasmHost

namespace Value

variable {args : List Value} {types : List ValueType}

theorem exists_word_of_types (h : args.map type = .number .i32 :: types) :
    ∃ w rest, args = .i32 w :: rest ∧ rest.map type = types := by
  obtain ⟨v, rest, rfl, hv, hrest⟩ := List.map_eq_cons_iff.mp h
  cases v with
  | i32 w => exact ⟨w, rest, rfl, hrest⟩
  | _ => cases hv

theorem exists_long_of_types (h : args.map type = .number .i64 :: types) :
    ∃ w rest, args = .i64 w :: rest ∧ rest.map type = types := by
  obtain ⟨v, rest, rfl, hv, hrest⟩ := List.map_eq_cons_iff.mp h
  cases v with
  | i64 w => exact ⟨w, rest, rfl, hrest⟩
  | _ => cases hv

end Value

/-- The next write of these bytes to a stream of the host is refused. -/
def HostStream.Refuses (s : HostStream) (bytes : Bytes) : Prop :=
  ∃ taken, s.refusal s.writes bytes = some taken

/-- Only the host's own streams can refuse bytes. No empty write gets to its stderr. -/
def Streams.Refuses (s : Streams) (sink : Sink) (fd : UInt32) (bytes : Bytes) : Prop :=
  sink = .inherited ∧ (fd = 2 ∧ bytes ≠ [] ∧ s.stderr.Refuses bytes ∨
    fd ≠ 2 ∧ s.stdout.Refuses bytes)

theorem HostStream.write_fst_eq_false_iff {s : HostStream} {bytes : Bytes} :
    (s.write bytes).1 = false ↔ s.Refuses bytes := by
  rw [write, Refuses]
  cases s.refusal s.writes bytes <;> simp

theorem Streams.write_fst_eq_false_iff {s : Streams} {sink : Sink} {fd : UInt32} {bytes : Bytes} :
    (s.write sink fd bytes).1 = false ↔ s.Refuses sink fd bytes := by
  cases sink with
  | inherited =>
    simp only [write, Refuses, ← HostStream.write_fst_eq_false_iff]
    by_cases hfd : fd = 2
    · by_cases hbytes : bytes = [] <;> simp [hfd, hbytes]
    · simp [hfd]
  | capture name => simp [write, Refuses]
  | discard => simp [write, Refuses]

namespace Wasi

theorem Errno.code_mem (e : Errno) : e.code ∈ [0, 8, 21, 28, 29, 58] := by
  cases e <;> decide

theorem ClockId.ofInt32?_cases (id : UInt32) :
    id = 0 ∧ ofInt32? id.toInt32 = some .realtime ∨
    id = 1 ∧ ofInt32? id.toInt32 = some .monotonic ∨
    id = 2 ∧ ofInt32? id.toInt32 = some .processCpu ∨
    id = 3 ∧ ofInt32? id.toInt32 = some .threadCpu ∨
    3 < id ∧ ofInt32? id.toInt32 = none := by
  by_cases h : id ≤ 3
  · have hcases : id = 0 ∨ id = 1 ∨ id = 2 ∨ id = 3 := by
      simp only [UInt32.le_iff_toNat_le, ← UInt32.toNat_inj, UInt32.reduceToNat] at h ⊢
      omega
    rcases hcases with rfl | rfl | rfl | rfl <;> simp <;> decide
  · have hid : 3 < id := UInt32.not_le.mp h
    have hne (k : UInt32) (hk : k ≤ 3) : id.toInt32 ≠ k.toInt32 := by
      intro he
      have hid : id = k := by rw [← UInt32.toUInt32_toInt32 id, he, UInt32.toUInt32_toInt32]
      exact h (hid ▸ hk)
    refine .inr (.inr (.inr (.inr ⟨hid, ?_⟩)))
    have h0 : id.toInt32 ≠ 0 := hne 0 (by decide)
    have h1 : id.toInt32 ≠ 1 := hne 1 (by decide)
    have h2 : id.toInt32 ≠ 2 := hne 2 (by decide)
    have h3 : id.toInt32 ≠ 3 := hne 3 (by decide)
    rw [ofInt32?, if_neg h0, if_neg h1, if_neg h2, if_neg h3]

/-- A text of the list holds a NUL. -/
def StringList.HasNul (context : Context) : StringList → Prop
  | args => ∃ s ∈ context.args, '\x00' ∈ s.toList
  | environ => ∃ entry ∈ context.env, '\x00' ∈ entry.1.toList ∨ '\x00' ∈ entry.2.toList

theorem StringList.hasNul_iff {l : StringList} {context : Context} :
    l.HasNul context ↔ ∃ s ∈ l.strings context, '\x00' ∈ s.toList := by
  cases l with
  | args => rfl
  | environ => simp [HasNul, strings]

/-- The records from `iovs` on and the buffers that they name lie in memory. -/
structure RecordsFit (m : Memory) (iovs count : Nat) : Prop where
  record : WalkFits m.size iovs (.replicate (2 * count) 4)
  buffer : ∀ b ∈ m.buffers Memory.wrapped iovs count, b.base + b.len ≤ m.size

namespace Service

/-- What a function answers without a look at the memory, when its first checks come to an
answer. -/
def Decides (context : Context) (args : List Value) (e : Errno) : Service → Prop
  | exit | random => False
  | clockTime | clockResolution =>
    ∃ id : UInt32, args[0]? = some (.i32 id) ∧
      ((id = 2 ∨ id = 3) ∧ e = .notsup ∨ 3 < id ∧ e = .inval)
  | sizes l =>
    e = .inval ∧ (l.HasNul context ∨
      ¬ ((l.strings context).length < UInt32.size ∧ textSize (l.strings context) < UInt32.size))
  | get l => e = .inval ∧ l.HasNul context
  | write => e = .badf ∧ ∃ fd, args[0]? = some (.i32 fd) ∧ fd ≠ 1 ∧ fd ≠ 2
  | yield => e = .success

/-- The parameters of a write, with the sink behind its descriptor and the bytes that its records
name. -/
structure Writes (context : Context) (args : List Value) (m : Memory) (sink : Sink)
    (fd iovs count out : UInt32) (bytes : Bytes) : Prop where
  params : args = [.i32 fd, .i32 iovs, .i32 count, .i32 out]
  sink : context.output? fd = some sink
  bytes : bytes = m.joined (m.buffers Memory.wrapped iovs.toNat count.toNat)

/-- All that a function has to write can be written. -/
def Served (context : Context) (host : Host) (args : List Value) (m : Memory) : Service → Prop
  | exit => False
  | clockTime => ∃ out, args[2]? = some (.i32 out) ∧ out.toNat + 8 ≤ m.size
  | clockResolution => ∃ out, args[1]? = some (.i32 out) ∧ out.toNat + 8 ≤ m.size
  | sizes _ => ∃ countOut sizeOut, args = [.i32 countOut, .i32 sizeOut] ∧
      countOut.toNat + 4 ≤ m.size ∧ sizeOut.toNat + 4 ≤ m.size
  | get l => ∃ list buf, args = [.i32 list, .i32 buf] ∧
      WalkFits m.size list.toNat (.replicate (l.strings context).length 4) ∧
      TextsFit m buf.toNat (l.strings context)
  | write => ∃ sink fd iovs count out bytes, Writes context args m sink fd iovs count out bytes ∧
      RecordsFit m iovs.toNat count.toNat ∧ ¬ host.streams.Refuses sink fd bytes ∧
      bytes.length < UInt32.size ∧ out.toNat + 4 ≤ m.size
  | random => ∃ buf len, args = [.i32 buf, .i32 len] ∧ buf.toNat + len.toNat ≤ m.size
  | yield => True

/-- A write that finds its bytes and cannot get rid of them. -/
def Refused (context : Context) (host : Host) (args : List Value) (m : Memory) : Service → Prop
  | write => ∃ sink fd iovs count out bytes, Writes context args m sink fd iovs count out bytes ∧
      RecordsFit m iovs.toNat count.toNat ∧ host.streams.Refuses sink fd bytes
  | _ => False

/-- A write that gets rid of more bytes than it can count. -/
def Overlong (context : Context) (host : Host) (args : List Value) (m : Memory) : Service → Prop
  | write => ∃ sink fd iovs count out bytes, Writes context args m sink fd iovs count out bytes ∧
      RecordsFit m iovs.toNat count.toNat ∧ ¬ host.streams.Refuses sink fd bytes ∧
      UInt32.size ≤ bytes.length
  | _ => False

/-- What a function answers when it gets to look at the memory. -/
structure Judges (s : Service) (context : Context) (host : Host) (args : List Value) (m : Memory)
    (e : Errno) : Prop where
  success : e = .success ↔ s.Served context host args m
  io : e = .io ↔ s.Refused context host args m
  inval : e = .inval ↔ s.Overlong context host args m
  fault : e = .fault ↔
    ¬ s.Served context host args m ∧ ¬ s.Refused context host args m ∧
    ¬ s.Overlong context host args m

theorem judges_of_served {s : Service} {context : Context} {host : Host} {args : List Value}
    {m : Memory} {e : Errno} (hs : s ≠ write) (he : e = .success ∨ e = .fault)
    (h : e = .success ↔ s.Served context host args m) :
    s.Judges context host args m e := by
  have hrefused : ¬ s.Refused context host args m := by
    cases s with
    | write => exact absurd rfl hs
    | _ => exact id
  have hoverlong : ¬ s.Overlong context host args m := by
    cases s with
    | write => exact absurd rfl hs
    | _ => exact id
  refine ⟨h, ?_, ?_, ?_⟩
  · rcases he with rfl | rfl <;> simp [hrefused]
  · rcases he with rfl | rfl <;> simp [hoverlong]
  · rw [← h]
    rcases he with rfl | rfl <;> simp [hrefused, hoverlong]

end Service

theorem settle_eq_success_or_fault (m : Memory) (patches : List Patch) :
    (settle m patches).1 = .success ∨ (settle m patches).1 = .fault := by
  by_cases h : ∀ p ∈ patches, p.Fits m
  · exact .inl (settle_eq_success_iff.mpr h)
  · obtain ⟨done, hdone⟩ := exists_stops h
    rw [hdone.settle]
    exact .inr rfl

/-- What a demand for patches is answered with. -/
def Demand.verdict (of : Memory → Except Errno (List Patch)) (m : Memory) : Errno :=
  match of m with
  | .error e => e
  | .ok patches => (settle m patches).1

theorem Demand.resolve_patch (of : Memory → Except Errno (List Patch)) (m : Memory) :
    ((patch of).resolve (some m)).1 = .ok (verdict of m) := by
  rw [resolve, verdict]
  cases of m <;> rfl

namespace Service

/-- A demand that does what the first checks of a function and then its look at the memory come
to. -/
inductive Agrees (s : Service) (context : Context) (host : Host) (args : List Value) : Demand → Prop
  | answer {e : Errno} (h : ∀ e', s.Decides context args e' ↔ e' = e) :
      Agrees s context host args (.answer e)
  | patch {of : Memory → Except Errno (List Patch)} (h : ∀ e, ¬ s.Decides context args e)
      (hm : ∀ m, s.Judges context host args m (Demand.verdict of m)) :
      Agrees s context host args (.patch of)

section

variable {s : Service} {context : Context} {host : Host} {args : List Value}

/-- Outside of writes, success is for all patches to fit, and anything else is a fault. -/
theorem Agrees.of_fits (hs : s ≠ write) (h : ∀ e, ¬ s.Decides context args e) {patches : List Patch}
    (hm : ∀ m, (∀ p ∈ patches, p.Fits m) ↔ s.Served context host args m) :
    Agrees s context host args (.patch fun _ => .ok patches) := by
  refine .patch h fun m => judges_of_served hs (settle_eq_success_or_fault m patches) ?_
  exact settle_eq_success_iff.trans (hm m)

theorem agrees_clock (hs : s ≠ write) {id out : UInt32} (time : ClockId → UInt64)
    (hdecides : ∀ e, s.Decides context args e ↔
        (id = 2 ∨ id = 3) ∧ e = .notsup ∨ 3 < id ∧ e = .inval)
    (hserved : ∀ m, out.toNat + 8 ≤ m.size ↔ s.Served context host args m) :
    Agrees s context host args (.ofClock id out time) := by
  have hpatch (h : id = 0 ∨ id = 1) (nanos : UInt64) :
      Agrees s context host args (.patch fun _ => .ok [⟨out.toNat, Bytes.ofUInt64 nanos⟩]) := by
    apply Agrees.of_fits hs
    · intro e
      rw [hdecides]
      rcases h with rfl | rfl <;> simp
    · simpa [Patch.Fits] using hserved
  rw [Demand.ofClock]
  rcases ClockId.ofInt32?_cases id with ⟨rfl, hc⟩ | ⟨rfl, hc⟩ | ⟨rfl, hc⟩ | ⟨rfl, hc⟩ | ⟨hid, hc⟩
  · rw [hc]
    exact hpatch (.inl rfl) _
  · rw [hc]
    exact hpatch (.inr rfl) _
  · rw [hc]
    exact .answer fun e => by simp [hdecides]
  · rw [hc]
    exact .answer fun e => by simp [hdecides]
  · rw [hc]
    have h2 : id ≠ 2 := by rintro rfl; simp at hid
    have h3 : id ≠ 3 := by rintro rfl; simp at hid
    exact .answer fun e => by simp [hdecides, hid, h2, h3]

theorem agrees_sizes (l : StringList) (countOut sizeOut : UInt32) :
    Agrees (sizes l) context host [.i32 countOut, .i32 sizeOut]
      ((sizes l).demand context host [.i32 countOut, .i32 sizeOut]) := by
  rw [demand, Demand.ofTexts]
  rcases allTerminated?_cases (l.strings context) with ⟨hclean, hsome⟩ | ⟨hnul, hnone⟩
  · have hno : ¬ l.HasNul context := by simpa [StringList.hasNul_iff] using hclean
    rw [hsome]
    simp only [Demand.ofWord, List.getElem?_cons_zero, List.getElem?_cons_succ, List.length_map,
      totalSize_map_terminated]
    split
    · rename_i hsmall
      apply Agrees.of_fits
      · simp
      · simp [Decides, hno, hsmall]
      · simp [Served, Patch.Fits]
    · rename_i hlarge
      exact .answer fun e => by simp only [Decides, hno, hlarge]; simp
  · rw [hnone]
    exact .answer fun e => by simp [Decides, StringList.hasNul_iff.mpr hnul]

theorem agrees_get (l : StringList) (list buf : UInt32) :
    Agrees (get l) context host [.i32 list, .i32 buf]
      ((get l).demand context host [.i32 list, .i32 buf]) := by
  rw [demand, Demand.ofTexts]
  rcases allTerminated?_cases (l.strings context) with ⟨hclean, hsome⟩ | ⟨hnul, hnone⟩
  · have hno : ¬ l.HasNul context := by simpa [StringList.hasNul_iff] using hclean
    rw [hsome]
    apply Agrees.of_fits
    · simp
    · simp [Decides, hno]
    · intro m
      rw [← settle_eq_success_iff, ← writeStrings_eq_settle, writeStrings_eq_success_iff]
      simp [Served, TextsFit, Function.comp_def]
  · rw [hnone]
    exact .answer fun e => by simp [Decides, StringList.hasNul_iff.mpr hnul]

section

variable {m : Memory} {sink : Sink} {fd iovs count : UInt32}

theorem exists_writes_iff (hsink : context.output? fd = some sink) {out : UInt32}
    {P : Sink → UInt32 → UInt32 → UInt32 → UInt32 → Bytes → Prop} :
    (∃ sink' fd' iovs' count' out' bytes,
      Writes context [.i32 fd, .i32 iovs, .i32 count, .i32 out] m sink' fd' iovs' count' out'
          bytes ∧
        P sink' fd' iovs' count' out' bytes) ↔
    P sink fd iovs count out (m.joined (m.buffers Memory.wrapped iovs.toNat count.toNat)) := by
  constructor
  · intro h
    obtain ⟨sink', fd', iovs', count', out', bytes, ⟨hparams, hsink', rfl⟩, hP⟩ := h
    cases hparams
    obtain rfl := Option.some.inj (hsink.symm.trans hsink')
    exact hP
  · intro hP
    exact ⟨sink, fd, iovs, count, out, _, ⟨rfl, hsink, rfl⟩, hP⟩

theorem verdict_of_not_recordsFit (h : ¬ RecordsFit m iovs.toNat count.toNat) (streams : Streams)
    (sink : Sink) (fd out : UInt32) :
    Demand.verdict (Demand.countOf streams sink fd iovs count out) m = .fault := by
  cases hg : gather m iovs count.toNat with
  | error e => rw [Demand.verdict, Demand.countOf, hg]
  | ok bytes =>
    obtain ⟨hrecord, hbuffer, _⟩ := gather_eq_ok_iff.mp hg
    exact absurd ⟨hrecord, hbuffer⟩ h

theorem verdict_of_recordsFit (h : RecordsFit m iovs.toNat count.toNat) (streams : Streams)
    (sink : Sink) (fd out : UInt32) :
    Demand.verdict (Demand.countOf streams sink fd iovs count out) m =
      let bytes := m.joined (m.buffers Memory.wrapped iovs.toNat count.toNat)
      if (streams.write sink fd bytes).1 = false then .io
      else if bytes.length < UInt32.size then if out.toNat + 4 ≤ m.size then .success else .fault
      else .inval := by
  have hg := gather_eq_ok_iff.mpr ⟨h.record, h.buffer, rfl⟩
  generalize m.joined (m.buffers Memory.wrapped iovs.toNat count.toNat) = bytes at hg ⊢
  by_cases hw : (streams.write sink fd bytes).1 = false
  · simp [Demand.verdict, Demand.countOf, hg, hw]
  · by_cases hlen : bytes.length < UInt32.size
    · by_cases hout : out.toNat + 4 ≤ m.size <;>
        simp [Demand.verdict, Demand.countOf, hg, hw, hlen, settle, Patch.Fits, hout]
    · simp [Demand.verdict, Demand.countOf, hg, hw, hlen]

theorem judges_write (hsink : context.output? fd = some sink) (out : UInt32) :
    Judges write context host [.i32 fd, .i32 iovs, .i32 count, .i32 out] m
      (Demand.verdict (Demand.countOf host.streams sink fd iovs count out) m) := by
  have hserved : Served context host [.i32 fd, .i32 iovs, .i32 count, .i32 out] m write ↔ _ :=
    exists_writes_iff hsink
  have hrefused : Refused context host [.i32 fd, .i32 iovs, .i32 count, .i32 out] m write ↔ _ :=
    exists_writes_iff hsink
  have hoverlong : Overlong context host [.i32 fd, .i32 iovs, .i32 count, .i32 out] m write ↔ _ :=
    exists_writes_iff hsink
  by_cases hfits : RecordsFit m iovs.toNat count.toNat
  · rw [verdict_of_recordsFit hfits]
    generalize m.joined (m.buffers Memory.wrapped iovs.toNat count.toNat) = bytes at *
    by_cases hw : host.streams.Refuses sink fd bytes
    · have hnone := Streams.write_fst_eq_false_iff.mpr hw
      constructor <;> simp [hserved, hrefused, hoverlong, hfits, hw, hnone]
    · have hsome := mt Streams.write_fst_eq_false_iff.mp hw
      by_cases hlen : bytes.length < UInt32.size
      · have hshort : ¬ UInt32.size ≤ bytes.length := Nat.not_le_of_lt hlen
        by_cases hout : out.toNat + 4 ≤ m.size <;> constructor <;>
          simp [hserved, hrefused, hoverlong, hfits, hw, hsome, hlen, hshort, hout]
      · constructor <;> simp [hserved, hrefused, hoverlong, hfits, hw, hsome, hlen,
          Nat.le_of_not_lt hlen]
  · rw [verdict_of_not_recordsFit hfits]
    constructor <;> simp [hserved, hrefused, hoverlong, hfits]

end

theorem agrees_write (fd iovs count out : UInt32) :
    Agrees write context host [.i32 fd, .i32 iovs, .i32 count, .i32 out]
      (write.demand context host [.i32 fd, .i32 iovs, .i32 count, .i32 out]) := by
  simp only [demand, Demand.ofWord, List.getElem?_cons_zero, List.getElem?_cons_succ]
  cases hsink : context.output? fd with
  | none =>
    have hfd := Context.output?_eq_none_iff.mp hsink
    exact .answer fun e => by simp [Decides, not_or.mp hfd]
  | some sink =>
    have hfd := Context.exists_output?_iff.mp ⟨sink, hsink⟩
    refine .patch (fun e => ?_) fun m => judges_write hsink out
    simp only [Decides]
    intro h
    simp at h
    tauto

theorem agrees (s : Service) (hs : s ≠ exit) (context : Context) (host : Host) {args : List Value}
    (hargs : args.map Value.type = s.func.signature.params.map .number) :
    Agrees s context host args (s.demand context host args) := by
  cases s with
  | exit => exact absurd rfl hs
  | clockTime =>
    obtain ⟨id, args₁, rfl, h₁⟩ := Value.exists_word_of_types hargs
    obtain ⟨precision, args₂, rfl, h₂⟩ := Value.exists_long_of_types h₁
    obtain ⟨out, args₃, rfl, h₃⟩ := Value.exists_word_of_types h₂
    refine agrees_clock ?_ (time context host) ?_ ?_
    · simp
    · simp [Decides]
    · simp [Served]
  | clockResolution =>
    obtain ⟨id, args₁, rfl, h₁⟩ := Value.exists_word_of_types hargs
    obtain ⟨out, args₂, rfl, h₂⟩ := Value.exists_word_of_types h₁
    refine agrees_clock ?_ (fun _ => 1) ?_ ?_
    · simp
    · simp [Decides]
    · simp [Served]
  | sizes l =>
    obtain ⟨countOut, args₁, rfl, h₁⟩ := Value.exists_word_of_types hargs
    obtain ⟨sizeOut, args₂, rfl, h₂⟩ := Value.exists_word_of_types h₁
    obtain rfl := List.map_eq_nil_iff.mp h₂
    exact agrees_sizes l countOut sizeOut
  | get l =>
    obtain ⟨list, args₁, rfl, h₁⟩ := Value.exists_word_of_types hargs
    obtain ⟨buf, args₂, rfl, h₂⟩ := Value.exists_word_of_types h₁
    obtain rfl := List.map_eq_nil_iff.mp h₂
    exact agrees_get l list buf
  | write =>
    obtain ⟨fd, args₁, rfl, h₁⟩ := Value.exists_word_of_types hargs
    obtain ⟨iovs, args₂, rfl, h₂⟩ := Value.exists_word_of_types h₁
    obtain ⟨count, args₃, rfl, h₃⟩ := Value.exists_word_of_types h₂
    obtain ⟨out, args₄, rfl, h₄⟩ := Value.exists_word_of_types h₃
    obtain rfl := List.map_eq_nil_iff.mp h₄
    exact agrees_write fd iovs count out
  | random =>
    obtain ⟨buf, args₁, rfl, h₁⟩ := Value.exists_word_of_types hargs
    obtain ⟨len, args₂, rfl, h₂⟩ := Value.exists_word_of_types h₁
    obtain rfl := List.map_eq_nil_iff.mp h₂
    apply Agrees.of_fits
    · simp
    · simp [Decides]
    · simp [Served, Patch.Fits, Entropy.length_draw]
  | yield => exact .answer fun e => Iff.rfl

end

end Service

/-- What functions other than the exit answer when they are called with what they take. Their first
checks go by the parameters and the context alone. Only when these come to no answer is the memory
looked at, and then it has to be there. -/
theorem answer_or_fault (s : Service) (hs : s ≠ .exit) {f : HostFunc}
    (hf : table.get? ⟨importSpace, s.name⟩ = some f) (context : Context) (host : Host)
    {args : List Value} (hargs : args.map Value.type = f.signature.params.map .number) :
    (∀ memory signal, (f.call context args memory host).result ≠ .error (.exit signal)) ∧
    (∀ memory, (∃ code ∈ [0, 8, 21, 28, 29, 58], (f.call context args memory host).result =
      .ok [.i32 code]) ∨
      memory = none ∧ (∀ e, ¬ s.Decides context args e) ∧
        (f.call context args memory host).result = .error Demand.noMemory) ∧
    (∀ e, s.Decides context args e →
      ∀ memory, (f.call context args memory host).result = .ok [.i32 e.code]) ∧
    ((∀ e, ¬ s.Decides context args e) →
      (f.call context args none host).result = .error Demand.noMemory ∧
      ∀ m, ∃ e, (f.call context args (some m) host).result = .ok [.i32 e.code] ∧
        s.Judges context host args m e) := by
  obtain ⟨t, hname, rfl⟩ := Service.table_get?_eq_some_iff.mp hf
  obtain rfl := Service.name_injective (congrArg ImportName.name hname)
  have hresult (memory : Option Memory) : (s.func.call context args memory host).result =
      ((s.demand context host args).resolve memory).1.map fun e => [.i32 e.code] := by
    obtain ⟨host', hcall⟩ := s.exists_call context args memory host
    rw [hcall, Demand.reply]
  have hagrees := s.agrees hs context host hargs
  generalize s.demand context host args = d at hresult hagrees
  cases hagrees with
  | answer h =>
    rename_i e
    have hanswer (memory : Option Memory) :
        (s.func.call context args memory host).result = .ok [.i32 e.code] :=
      hresult memory
    refine ⟨fun memory signal => ?_, fun memory =>
      .inl ⟨e.code, e.code_mem, hanswer memory⟩, ?_, ?_⟩
    · simp [hanswer]
    · intro e' he' memory
      rw [(h e').mp he', hanswer]
    · intro hnone
      exact absurd ((h e).mpr rfl) (hnone e)
  | patch h hm =>
    rename_i of
    have hnone : (s.func.call context args none host).result = .error Demand.noMemory :=
      hresult none
    have hsome (m : Memory) :
        (s.func.call context args (some m) host).result =
          .ok [.i32 (Demand.verdict of m).code] := by
      rw [hresult, Demand.resolve_patch]
      rfl
    refine ⟨fun memory signal => ?_, fun memory => ?_, fun e he => absurd he (h e), fun _ =>
      ⟨hnone, fun m => ?_⟩⟩
    · cases memory with
      | none => simp [hnone, Demand.noMemory]
      | some m => simp [hsome]
    · cases memory with
      | none => exact .inr ⟨rfl, h, hnone⟩
      | some m => exact .inl ⟨_, Errno.code_mem _, hsome m⟩
    · exact ⟨_, hsome m, hm m⟩

/-- A clock that is not kept is refused wherever its time should go. For one that is kept there has
to be a memory, and room in it. -/
theorem answer_or_fault_clock :
    let call (id out : UInt32) (memory : Option Memory) :=
      (Service.clockTime.func.call StringList.greeting [.i32 id, .i64 0, .i32 out] memory
        .still).result
    (∀ memory, call 2 0xffffffff memory = .ok [.i32 58]) ∧ call 0 0 none = .error Demand.noMemory ∧
    call 0 65528 (some (.zeroed 1 1)) = .ok [.i32 0] ∧
    call 0 65529 (some (.zeroed 1 1)) = .ok [.i32 21] := by
  intro call
  have h (id out : UInt32) := answer_or_fault .clockTime (by simp) rfl StringList.greeting .still
    (rfl : [Value.i32 id, .i64 0, .i32 out].map Value.type = _)
  have hopen (out : UInt32) (e : Errno) :
      ¬ Service.clockTime.Decides StringList.greeting [.i32 0, .i64 0, .i32 out] e := by
    simp [Service.Decides]
  have hserved (out : UInt32) :
      Service.clockTime.Served StringList.greeting .still [.i32 0, .i64 0, .i32 out]
      (.zeroed 1 1) ↔ out.toNat + 8 ≤ 65536 := by
    simp [Service.Served, Memory.size, Memory.zeroed, Memory.pageSize]
  refine ⟨fun memory => ?_, ((h 0 0).2.2.2 (hopen 0)).1, ?_, ?_⟩
  · exact (h 2 0xffffffff).2.2.1 .notsup (by simp [Service.Decides]) memory
  · obtain ⟨e, he, hjudges⟩ := ((h 0 65528).2.2.2 (hopen 65528)).2 (.zeroed 1 1)
    obtain rfl := hjudges.success.mpr ((hserved 65528).mpr (by decide))
    exact he
  · obtain ⟨e, he, hjudges⟩ := ((h 0 65529).2.2.2 (hopen 65529)).2 (.zeroed 1 1)
    obtain rfl := hjudges.fault.mpr ⟨fun hs => absurd ((hserved 65529).mp hs) (by decide), id, id⟩
    exact he

end Wasi

end WasmHost

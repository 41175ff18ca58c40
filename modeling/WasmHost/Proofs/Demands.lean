import WasmHost.Proofs.ExitBoundary
import WasmHost.Proofs.Output
import WasmHost.Proofs.HandOver
import WasmHost.Proofs.Patches

namespace WasmHost

theorem Entropy.length_draw (e : Entropy) (len : Nat) : (e.draw len).1.length = len := by
  simp [draw]

namespace Wasi

/-- What a call of a function of the table asks for: to be stopped, an answer for which no memory is
needed, or patches to the memory. What is found in the memory may already be an error; then nothing
is written. -/
inductive Demand
  | stop (stop : Stop)
  | answer (errno : Errno)
  | patch (of : Memory → Except Errno (List Patch))

namespace Demand

/-- What a function that needs the memory fails with when there is none to be seen. -/
def noMemory : Stop := .failure "module does not export its memory"

/-- The answer to a demand, and the memory after it. -/
def resolve : Demand → Option Memory → Except Stop Errno × Option Memory
  | stop s, memory => (.error s, memory)
  | answer errno, memory => (.ok errno, memory)
  | patch _, none => (.error noMemory, none)
  | patch of, some m =>
    match of m with
    | .error errno => (.ok errno, some m)
    | .ok patches => (.ok (settle m patches).1, some (settle m patches).2)

/-- Goes on with the parameter at a place, which has to be an `i32`. -/
def ofWord (params : List Value) (index : Nat) (next : UInt32 → Demand) : Demand :=
  match params[index]? with
  | some (.i32 w) => next w
  | _ => stop (.failure (SlotError.expected .i32 index).message)

/-- Goes on with the parameter at a place, which has to be an `i64`. -/
def ofLong (params : List Value) (index : Nat) (next : UInt64 → Demand) : Demand :=
  match params[index]? with
  | some (.i64 w) => next w
  | _ => stop (.failure (SlotError.expected .i64 index).message)

/-- Goes on with texts that can all be closed by a NUL. -/
def ofTexts (texts : List String) (next : List Bytes → Demand) : Demand :=
  match allTerminated? texts with
  | some strings => next strings
  | none => answer .inval

/-- Puts a time where it is asked for, when the clock is one of the two that are kept. -/
def ofClock (id out : UInt32) (time : ClockId → UInt64) : Demand :=
  match ClockId.ofInt32? id.toInt32 with
  | some .realtime => patch fun _ => .ok [⟨out.toNat, Bytes.ofUInt64 (time .realtime)⟩]
  | some .monotonic => patch fun _ => .ok [⟨out.toNat, Bytes.ofUInt64 (time .monotonic)⟩]
  | some .processCpu | some .threadCpu => answer .notsup
  | none => answer .inval

/-- The number of gathered bytes, to be put where it is asked for, when a sink takes them. -/
def countOf (streams : Streams) (sink : Sink) (fd iovs count out : UInt32) (m : Memory) :
    Except Errno (List Patch) :=
  match gather m iovs count.toNat with
  | .error _ => .error .fault
  | .ok bytes =>
    if (streams.write sink fd bytes).1 then
      if bytes.length < UInt32.size then .ok [⟨out.toNat,
        Bytes.ofUInt32 (UInt32.ofNat bytes.length)⟩]
      else .error .inval
    else .error .io

section

variable {P : Demand → Prop} {params : List Value} {index : Nat} {texts : List String}

theorem ofWord_cases {next : UInt32 → Demand} (hstop : ∀ s, P (stop s))
    (h : ∀ w, params[index]? = some (.i32 w) → P (next w)) : P (ofWord params index next) := by
  unfold ofWord
  split
  · rename_i w hw
    exact h w hw
  · exact hstop _

theorem ofLong_cases {next : UInt64 → Demand} (hstop : ∀ s, P (stop s))
    (h : ∀ w, params[index]? = some (.i64 w) → P (next w)) : P (ofLong params index next) := by
  unfold ofLong
  split
  · rename_i w hw
    exact h w hw
  · exact hstop _

theorem ofTexts_cases {next : List Bytes → Demand} (hanswer : P (answer .inval))
    (h : P (next (texts.map terminated))) : P (ofTexts texts next) := by
  unfold ofTexts
  rcases allTerminated?_cases texts with ⟨_, hsome⟩ | ⟨_, hnone⟩
  · rw [hsome]
    exact h
  · rw [hnone]
    exact hanswer

theorem ofClock_cases {id out : UInt32} {time : ClockId → UInt64}
    (hanswer : ∀ errno, P (answer errno))
    (h : ∀ nanos, P (patch fun _ => .ok [⟨out.toNat, Bytes.ofUInt64 nanos⟩])) :
    P (ofClock id out time) := by
  unfold ofClock
  split
  · exact h _
  · exact h _
  · exact hanswer _
  · exact hanswer _
  · exact hanswer _

end

end Demand

/-- How a call is left when it is answered so. -/
def ended (c : Call) (host : Host) :
    Except Stop Errno × Option Memory → EStateM.Result Stop Call Errno
  | (.ok errno, memory) => .ok errno { c with memory, host }
  | (.error stop, memory) => .error stop { c with memory, host }

/-- From this call on, a computation does to result and memory what a demand says. -/
def Meets (x : HostM Errno) (c : Call) (d : Demand) : Prop :=
  ∃ host, x c = ended c host (d.resolve c.memory)

namespace Meets

open HostM

variable {α : Type} {c : Call} {d : Demand} {params : List Value} {index : Nat}

theorem pure (errno : Errno) (c : Call) : Meets (Pure.pure errno) c (.answer errno) := ⟨c.host, rfl⟩

/-- What a computation reads or changes of the host before it goes on does not matter. -/
theorem of_host {y : HostM α} {f : α → HostM Errno} {a : α} {host : Host}
    (hy : y c = .ok a { c with host }) (h : Meets (f a) { c with host } d) :
    Meets (y >>= f) c d := by
  obtain ⟨host', hf⟩ := h
  exact ⟨host', (bind_of_ok hy).trans hf⟩

theorem of_error {y : HostM α} {stop : Stop} (hy : y c = .error stop c) (f : α → HostM Errno) :
    Meets (y >>= f) c (.stop stop) :=
  ⟨c.host, bind_of_error hy⟩

theorem int32 {f : Int32 → HostM Errno} {next : UInt32 → Demand}
    (h : ∀ w, Meets (f w.toInt32) c (next w)) :
    Meets (HostM.int32 params index >>= f) c (.ofWord params index next) := by
  unfold Demand.ofWord
  split
  · rename_i w hw
    exact of_host (int32_eq_ok hw c) (h w)
  · rename_i hnone
    exact of_error (int32_eq_error hnone c) f

theorem word {f : UInt32 → HostM Errno} {next : UInt32 → Demand} (h : ∀ w, Meets (f w) c (next w)) :
    Meets (HostM.word params index >>= f) c (.ofWord params index next) := by
  have hf : HostM.word params index >>= f = HostM.int32 params index >>= fun n => f n.toUInt32 := by
    rw [HostM.word, bind_assoc]
    rfl
  rw [hf]
  exact int32 h

theorem int64 {f : Int64 → HostM Errno} {next : UInt64 → Demand}
    (h : ∀ w, Meets (f w.toInt64) c (next w)) :
    Meets (HostM.int64 params index >>= f) c (.ofLong params index next) := by
  unfold Demand.ofLong
  split
  · rename_i w hw
    exact of_host (int64_eq_ok hw c) (h w)
  · rename_i hnone
    exact of_error (int64_eq_error hnone c) f

section

variable {m : Memory} {of : Memory → Except Errno (List Patch)}

theorem memory {f : Memory → HostM Errno} (h : ∀ m, c.memory = some m → Meets (f m) c (.patch of)) :
    Meets (HostM.memory >>= f) c (.patch of) := by
  cases hm : c.memory with
  | none =>
    have hstop := bind_of_error (f := f) (memory_eq_error hm)
    obtain ⟨context, memory, results, host⟩ := c
    obtain rfl : memory = none := hm
    exact ⟨host, hstop⟩
  | some m => exact of_host (memory_eq_ok hm) (h m hm)

/-- An error that the memory already shows leaves it as it is. -/
theorem refused (hm : c.memory = some m) {errno : Errno} (hof : of m = .error errno) :
    Meets (Pure.pure errno) c (.patch of) := by
  obtain ⟨context, memory, results, host⟩ := c
  obtain rfl : memory = some m := hm
  refine ⟨host, ?_⟩
  simp only [Demand.resolve, hof]
  rfl

/-- So does the first of the patches that are asked for, when it does not fit. -/
theorem fault (hm : c.memory = some m) {p : Patch} {rest : List Patch}
    (hof : of m = .ok (p :: rest)) (hp : ¬ p.Fits m) : Meets (Pure.pure .fault) c (.patch of) := by
  obtain ⟨context, memory, results, host⟩ := c
  obtain rfl : memory = some m := hm
  refine ⟨host, ?_⟩
  simp only [Demand.resolve, hof, settle, if_neg hp]
  rfl

theorem commitPart (hm : c.memory = some m) {patches : List Patch} (hof : of m = .ok patches) :
    Meets (Wasi.commitPart (settle m patches)) c (.patch of) := by
  refine ⟨c.host, ?_⟩
  simp only [Demand.resolve, hm, hof]
  rfl

/-- One write that is answered for is one patch. -/
theorem commit (hm : c.memory = some m) {ptr : UInt32} {bytes : Bytes}
    (hof : of m = .ok [⟨ptr.toNat, bytes⟩]) :
    Meets (Wasi.commit (m.write ptr bytes)) c (.patch of) := by
  obtain ⟨context, memory, results, host⟩ := c
  obtain rfl : memory = some m := hm
  refine ⟨host, ?_⟩
  simp only [Demand.resolve, hof, settle_cons]
  cases m.write ptr bytes <;> rfl

end

end Meets

/-- The functions of the table. -/
inductive Service
  | exit
  | clockTime
  | clockResolution
  | sizes (l : StringList)
  | get (l : StringList)
  | write
  | random
  | yield

namespace Service

def name : Service → String
  | exit => "proc_exit"
  | clockTime => "clock_time_get"
  | clockResolution => "clock_res_get"
  | sizes l => l.sizesName
  | get l => l.getName
  | write => "fd_write"
  | random => "random_get"
  | yield => "sched_yield"

def func : Service → HostFunc
  | exit => exitFunc
  | clockTime => Syscall.toHostFunc [.i32, .i64, .i32] clockTimeGet
  | clockResolution => Syscall.toHostFunc [.i32, .i32] clockResGet
  | sizes l => l.sizes
  | get l => l.get
  | write => writeFunc
  | random => Syscall.toHostFunc [.i32, .i32] randomGet
  | yield => Syscall.toHostFunc [] schedYield

theorem name_injective {s t : Service} (h : s.name = t.name) : s = t := by
  rcases s with _ | _ | _ | (_ | _) | (_ | _) | _ | _ | _ <;>
    rcases t with _ | _ | _ | (_ | _) | (_ | _) | _ | _ | _ <;>
      first | rfl | exact absurd h (by decide)

/-- The table has these functions under these names, and no others. -/
theorem table_get?_eq_some_iff {name : ImportName} {f : HostFunc} :
    table.get? name = some f ↔ ∃ s : Service, name = ⟨importSpace, s.name⟩ ∧ f = s.func := by
  constructor
  · intro h
    have hentries : table.entries = entries := rfl
    obtain ⟨before, after, hsplit, _⟩ := List.lookup_eq_some_iff.mp h
    have hmem : (name, f) ∈ entries := by
      rw [← hentries, hsplit]
      simp
    simp only [entries, catalogue, List.map_cons, List.map_nil, List.mem_cons, List.not_mem_nil,
      or_false, Prod.mk.injEq] at hmem
    rcases hmem with h | h | h | h | h | h | h | h | h | h
    · exact ⟨exit, h⟩
    · exact ⟨clockTime, h⟩
    · exact ⟨clockResolution, h⟩
    · exact ⟨sizes .args, h⟩
    · exact ⟨get .args, h⟩
    · exact ⟨sizes .environ, h⟩
    · exact ⟨get .environ, h⟩
    · exact ⟨write, h⟩
    · exact ⟨random, h⟩
    · exact ⟨yield, h⟩
  · intro h
    obtain ⟨s, rfl, rfl⟩ := h
    cases s with
    | sizes l => exact l.table_get?_sizes
    | get l => exact l.table_get?_get
    | _ => rfl

/-- The time that a clock shows, as it is reported. -/
def time (context : Context) (host : Host) : ClockId → UInt64
  | .realtime => UInt64.ofNat (min host.clock.readRealtime.1.toNat maxNanos)
  | _ => UInt64.ofNat (min (host.clock.readMonotonic.1 - context.epoch) maxNanos)

/-- What a call of a function asks for. -/
def demand (context : Context) (host : Host) (params : List Value) : Service → Demand
  | exit => .ofWord params 0 fun code => .stop (.exit ⟨code.toInt32⟩)
  | clockTime =>
    .ofWord params 0 fun id => .ofLong params 1 fun _ => .ofWord params 2 fun out =>
      .ofClock id out (time context host)
  | clockResolution =>
    .ofWord params 0 fun id => .ofWord params 1 fun out => .ofClock id out fun _ => 1
  | sizes l =>
    .ofTexts (l.strings context) fun strings =>
      .ofWord params 0 fun countOut => .ofWord params 1 fun sizeOut =>
        if strings.length < UInt32.size ∧ totalSize strings < UInt32.size then
          .patch fun _ => .ok [⟨countOut.toNat, Bytes.ofUInt32 (UInt32.ofNat strings.length)⟩,
            ⟨sizeOut.toNat, Bytes.ofUInt32 (UInt32.ofNat (totalSize strings))⟩]
        else .answer .inval
  | get l =>
    .ofTexts (l.strings context) fun strings =>
      .ofWord params 0 fun list => .ofWord params 1 fun buf =>
        .patch fun _ => .ok (handOver list.toNat buf.toNat strings)
  | write =>
    .ofWord params 0 fun fd => .ofWord params 1 fun iovs => .ofWord params 2 fun count =>
      .ofWord params 3 fun out =>
      match context.output? fd with
      | none => .answer .badf
      | some sink => .patch (Demand.countOf host.streams sink fd iovs count out)
  | random =>
    .ofWord params 0 fun buf => .ofWord params 1 fun len =>
      .patch fun _ => .ok [⟨buf.toNat, (host.entropy.draw len.toNat).1⟩]
  | yield => .answer .success

end Service

section

variable {c : Call} {params : List Value}

theorem meets_withStrings {texts : List String} {next : List Bytes → HostM Errno}
    {d : List Bytes → Demand} (h : ∀ strings, Meets (next strings) c (d strings)) :
    Meets (withStrings texts next) c (.ofTexts texts d) := by
  rw [withStrings, Demand.ofTexts]
  cases allTerminated? texts with
  | none => exact .pure _ c
  | some strings => exact h strings

theorem meets_writeTime (c : Call) (out : UInt32) (nanos : UInt64) :
    Meets (writeTime out nanos) c (.patch fun _ => .ok [⟨out.toNat, Bytes.ofUInt64 nanos⟩]) :=
  .memory fun _ hm => .commit hm rfl

theorem meets_clockTimeGet (c : Call) (params : List Value) :
    Meets (clockTimeGet params) c (Service.clockTime.demand c.context c.host params) := by
  refine .int32 fun id => .int64 fun _ => .word fun out => ?_
  rw [Demand.ofClock]
  cases ClockId.ofInt32? id.toInt32 with
  | none => exact .pure _ c
  | some clock =>
    cases clock with
    | realtime => exact .of_host rfl (meets_writeTime _ out _)
    | monotonic => exact .of_host rfl (meets_writeTime _ out _)
    | processCpu | threadCpu => exact .pure _ c

theorem meets_clockResGet (c : Call) (params : List Value) :
    Meets (clockResGet params) c (Service.clockResolution.demand c.context c.host params) := by
  refine .int32 fun id => .word fun out => ?_
  rw [Demand.ofClock]
  cases ClockId.ofInt32? id.toInt32 with
  | none => exact .pure _ c
  | some clock =>
    cases clock with
    | realtime | monotonic => exact meets_writeTime c out 1
    | processCpu | threadCpu => exact .pure _ c

theorem meets_sizes (l : StringList) (c : Call) (params : List Value) :
    Meets (do withStrings (l.strings (← HostM.context)) (stringSizes params)) c
      ((Service.sizes l).demand c.context c.host params) := by
  refine .of_host (HostM.context_eq_ok c) (meets_withStrings fun strings => ?_)
  refine .word fun countOut => .word fun sizeOut => ?_
  split
  · refine .memory fun m hm => ?_
    rw [writeSizes_eq_settle]
    exact .commitPart hm rfl
  · exact .pure _ c

theorem meets_get (l : StringList) (c : Call) (params : List Value) :
    Meets (do withStrings (l.strings (← HostM.context)) (stringsGet params)) c
      ((Service.get l).demand c.context c.host params) := by
  refine .of_host (HostM.context_eq_ok c)
    (meets_withStrings fun strings => .word fun list => .word fun buf => ?_)
  refine .memory fun m hm => ?_
  rw [writeStrings_eq_settle]
  exact .commitPart hm rfl

theorem meets_emit {c : Call} {m : Memory} (hm : c.memory = some m) {sink : Sink}
    {fd iovs count : UInt32} {bytes : Bytes} (hg : gather m iovs count.toNat = .ok bytes)
    (out : UInt32) :
    Meets (emit m sink fd bytes out) c
      (.patch (Demand.countOf c.host.streams sink fd iovs count out)) := by
  refine .of_host (HostM.host_eq_ok c) ?_
  cases hw : c.host.streams.write sink fd bytes with
  | mk taken streams =>
    refine .of_host rfl ?_
    cases taken with
    | false =>
      apply Meets.refused
      · exact hm
      · simp [Demand.countOf, hg, hw]
    | true =>
      by_cases hlen : bytes.length < UInt32.size
      · simp only [hlen, if_true]
        apply Meets.commit
        · exact hm
        · simp [Demand.countOf, hg, hw, hlen]
      · simp only [hlen, if_true, if_false]
        apply Meets.refused
        · exact hm
        · simp [Demand.countOf, hg, hw, hlen]

theorem meets_fdWrite (c : Call) (params : List Value) :
    Meets (fdWrite params) c (Service.write.demand c.context c.host params) := by
  refine .word fun fd => .word fun iovs => .word fun count => .word fun out =>
    .of_host (HostM.context_eq_ok c) ?_
  cases c.context.output? fd with
  | none => exact .pure _ c
  | some sink =>
    refine .memory fun m hm => ?_
    cases hg : gather m iovs count.toNat with
    | error e => exact .refused hm (by rw [Demand.countOf, hg])
    | ok bytes => exact meets_emit hm hg out

theorem meets_randomGet (c : Call) (params : List Value) :
    Meets (randomGet params) c (Service.random.demand c.context c.host params) := by
  refine .word fun buf => .word fun len => .memory fun m hm => ?_
  cases hcheck : m.check buf len.toUInt64 with
  | error e =>
    refine .fault hm rfl ?_
    rw [Patch.Fits, Entropy.length_draw, ← Memory.check_toUInt64_eq_ok_iff, hcheck]
    simp
  | ok u =>
    refine .of_host rfl (.of_host rfl ?_)
    apply Meets.commit
    · exact hm
    · rfl

end

/-- How a call through the table ends when it does what a demand says. -/
def Demand.reply (d : Demand) (memory : Option Memory) (host : Host) : Reply Host :=
  ⟨(d.resolve memory).1.map fun errno => [.i32 errno.code], (d.resolve memory).2, host⟩

theorem Meets.exists_call {syscall : Syscall} {context : Context} {args : List Value}
    {memory : Option Memory} {host : Host} {d : Demand}
    (h : Meets (syscall args) ⟨context, memory, [.funcRef], host⟩ d) (params : List Kind) :
    ∃ host', (Syscall.toHostFunc params syscall).call context args memory host =
      d.reply memory host' := by
  obtain ⟨host', h⟩ := h
  refine ⟨host', ?_⟩
  rw [Demand.reply]
  cases hr : d.resolve memory with
  | mk result memory' =>
    simp only [hr] at h
    cases result with
    | ok errno => exact Syscall.call_eq_ok h
    | error stop =>
      have hrun : (Syscall.toHostFunc params syscall).run args ⟨context, memory, [.funcRef], host⟩ =
          .error stop ⟨context, memory', [.funcRef], host'⟩ := HostM.bind_of_error h
      have hslots : List.replicate
        (Syscall.toHostFunc params syscall).signature.results.length Value.funcRef =
          [.funcRef] := rfl
      rw [HostFunc.call, hslots, hrun]
      rfl

theorem exists_call_exit (context : Context) (args : List Value) (memory : Option Memory)
    (host : Host) :
    ∃ host', exitFunc.call context args memory host =
      (Service.exit.demand context host args).reply memory host' := by
  refine ⟨host, ?_⟩
  rw [Service.demand, Demand.ofWord]
  split
  · rename_i code hcode
    exact call_exitFunc hcode
  · rename_i hnone
    have hrun (c : Call) :
        exitFunc.run args c = .error (.failure (SlotError.expected .i32 0).message) c :=
      HostM.bind_of_error (HostM.int32_eq_error hnone c)
    rw [HostFunc.call, hrun]
    rfl

/-- Each function of the table does what its demand says, whatever it is called with. -/
theorem Service.exists_call (s : Service) (context : Context) (args : List Value)
    (memory : Option Memory) (host : Host) :
    ∃ host', s.func.call context args memory host =
      (s.demand context host args).reply memory host' := by
  cases s with
  | exit => exact exists_call_exit context args memory host
  | clockTime => exact (meets_clockTimeGet _ args).exists_call _
  | clockResolution => exact (meets_clockResGet _ args).exists_call _
  | sizes l => exact (meets_sizes l _ args).exists_call _
  | get l => exact (meets_get l _ args).exists_call _
  | write => exact (meets_fdWrite _ args).exists_call _
  | random => exact (meets_randomGet _ args).exists_call _
  | yield => exact (Meets.pure .success _).exists_call _

end Wasi

end WasmHost

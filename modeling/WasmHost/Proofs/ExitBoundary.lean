import WasmHost.Proofs.HostCalls
import WasmHost.Proofs.Runners

namespace WasmHost

namespace Wasi

def exitName : ImportName := ⟨importSpace, "proc_exit"⟩

def exitFunc : HostFunc := ⟨⟨[.i32], []⟩, procExit⟩

theorem call_exitFunc {context : Context} {args : List Value} {memory : Option Memory} {host : Host}
    {code : Int32} (h : args[0]? = some (.i32 code.toUInt32)) :
    exitFunc.call context args memory host = ⟨.error (.exit ⟨code⟩), memory, host⟩ := by
  have hrun (c : Call) : procExit args c = .error (.exit ⟨code⟩) c := by
    rw [procExit, HostM.bind_of_ok (HostM.int32_eq_ok h c), Int32.toInt32_toUInt32]
    rfl
  simp only [HostFunc.call, exitFunc, hrun]

end Wasi

namespace Config

/-- The next step is a call of the WASI function that ends the guest, with this code. -/
def AsksToExit (linker : Linker) (mod : Module) (c : Config Host) (code : Int32) : Prop :=
  ∃ offered slot args i, c.control = .host offered slot args ∧ mod.functionImports[slot]? = some i ∧
    linker.definitions.get? i.1 = some Wasi.exitFunc ∧ args[0]? = some (.i32 code.toUInt32)

variable {linker : Linker} {mod : Module} {context : Context} {c : Config Host} {code : Int32}

theorem AsksToExit.reply (context : Context) (h : c.AsksToExit linker mod code) :
    ∃ offered slot args, c.control = .host offered slot args ∧
      linker.imports mod context slot args (if offered then some c.machine.memory else none)
          c.machine.host =
        ⟨.error (.exit ⟨code⟩), if offered then some c.machine.memory else none,
          c.machine.host⟩ := by
  obtain ⟨offered, slot, args, i, hc, hi, hf, hargs⟩ := h
  refine ⟨offered, slot, args, hc, ?_⟩
  simp only [Linker.imports, hi, Option.bind_some, hf]
  exact Wasi.call_exitFunc hargs

/-- Nothing that is left to do is done, and the machine stays as it is. -/
theorem AsksToExit.step (h : c.AsksToExit linker mod code) :
    c.step mod (linker.imports mod context) = some (halt (.error (.exit ⟨code⟩)) c.machine) := by
  obtain ⟨offered, slot, args, hc, hr⟩ := h.reply context
  obtain ⟨control, konts, m⟩ := c
  obtain rfl : control = .host offered slot args := hc
  rw [step_host_error (congrArg Reply.result hr), hr]
  cases offered <;> rfl

end Config

namespace Instance

/-- What the run of an exported function passes through. -/
def Passes (inst : Instance) (host : Host) (f : ExportedFunction) (args : List Value) :
    Config Host → Prop :=
  Config.Reaches inst.mod inst.imports
    (Config.exported inst.mod f.index args ⟨inst.memory, inst.counter, host⟩)

/-- The failures of a typed call: a trap of the guest, a host function that failed, and results of
the wrong kinds. -/
inductive Faults (inst : Instance) (host : Host) (f : ExportedFunction) (args : List Value)
    (results : Shape) :
    Stop → Prop
  | trap {t : Trap} {m : Machine Host} (h : inst.Passes host f args (.halt (.error (.trap t)) m)) :
      Faults inst host f args results (.trap t)
  | host {c : Config Host} {reply : Reply Host} {stop : Stop} (h : inst.Passes host f args c)
      (hr : c.reply? inst.imports = some reply) (he : reply.result = .error stop)
      (hs : ∀ signal, stop.cause ≠ .exit signal) : Faults inst host f args results stop
  | results {values : List Value} {m : Machine Host}
      (h : inst.Passes host f args (.halt (.ok values) m))
      (hv : ∀ value, values ≠ results.toValues value) :
      Faults inst host f args results
        (.failure ("export " ++ f.name ++ " produced results of the wrong kind"))

variable {inst : Instance} {host : Host} {f : ExportedFunction} {args : List Value}
  {results : Shape}

theorem exists_halt (inst : Instance) (host : Host) (f : ExportedFunction) (args : List Value) :
    ∃ result m, inst.Passes host f args (.halt result m) ∧
      inst.run host f args = (result, inst.left m, m.host) := by
  let m₀ : Machine Host := ⟨inst.memory, inst.counter, host⟩
  have h : Config.Reaches inst.mod inst.imports (Config.exported inst.mod f.index args m₀)
      (Config.ending ((inst.mod.callExport inst.imports f.index args).run m₀)) :=
    Config.reaches_ending_callExport _ _ f.index args m₀
  rw [run, Runner.machine]
  cases hr : (inst.mod.callExport inst.imports f.index args).run m₀ with
  | ok values m =>
    rw [hr] at h
    exact ⟨.ok values, m, h, rfl⟩
  | error stop m =>
    rw [hr] at h
    exact ⟨.error stop, m, h, rfl⟩

theorem invoke_of_signature_eq (inst : Instance) (host : Host) (f : ExportedFunction)
    (args : Arguments) (results : Shape) (h : inst.signature f = .ok ⟨args.kinds, results.kinds⟩) :
    ∃ result m, inst.Passes host f args.toValues (.halt result m) ∧
      inst.invoke host f args results = (conclude f results result, inst.left m, m.host) := by
  obtain ⟨result, m, hp, hrun⟩ := exists_halt inst host f args.toValues
  refine ⟨result, m, hp, ?_⟩
  have heq : (inst.signature f).toOption = some ⟨args.kinds, results.kinds⟩ :=
    Signature.toOption_eq_some_iff.mpr h
  rw [invoke, if_pos heq, call_of_signature_eq h, hrun]

theorem faults_iff {result : Except Stop (List Value)} {m : Machine Host} {stop : Stop}
    (hh : inst.Passes host f args (.halt result m)) :
    inst.Faults host f args results stop ↔
      conclude f results result = .error (.executionFault stop) := by
  rw [conclude_eq_error_iff]
  simp only [InvokeError.executionFault.injEq]
  constructor
  · intro h
    cases h with
    | trap h =>
      obtain ⟨rfl, _⟩ := Config.halt_unique hh h
      exact .inl ⟨_, rfl, by simp [Stop.cause], rfl⟩
    | @host c reply stop h hr he hs =>
      have hstep : ∃ m, c.step inst.mod inst.imports = some (.halt (.error stop) m) :=
        Config.step_of_reply_error hr he
      obtain ⟨m', hm⟩ := hstep
      obtain ⟨rfl, _⟩ := Config.halt_unique hh (h.tail hm)
      exact .inl ⟨stop, rfl, hs, rfl⟩
    | results h hv =>
      obtain ⟨rfl, _⟩ := Config.halt_unique hh h
      exact .inr ⟨_, rfl, hv, rfl⟩
  · intro h
    obtain ⟨_, rfl, hs, rfl⟩ | ⟨values, rfl, hv, rfl⟩ := h
    · rcases Relation.ReflTransGen.cases_tail hh with he | ⟨c, hc, hstep⟩
      · exact absurd he.symm (Config.exported_ne_halt _ _ _ _ _)
      · rcases Config.stop_origin hstep with ⟨t, rfl⟩ | ⟨reply, hr, he⟩
        · exact .trap hh
        · exact .host hc hr he hs
    · exact .results hh hv

section

variable {args : Arguments}

theorem invoke_eq_exited_iff (h : inst.signature f = .ok ⟨args.kinds, results.kinds⟩)
    {signal : ExitSignal} :
    (inst.invoke host f args results).1 = .ok (.exited signal) ↔
      ∃ c, inst.Passes host f args.toValues c ∧ c.Raises inst.imports signal := by
  rw [(boundary_of_unwinds Runner.machine_unwinds inst host f args results).exited h signal]
  constructor
  · intro hreplied
    obtain ⟨reply, stop, ⟨c, hc, hr⟩, he, hs⟩ := hreplied
    exact ⟨c, hc, reply, stop, hr, he, hs⟩
  · intro hraised
    obtain ⟨c, hc, reply, stop, hr, he, hs⟩ := hraised
    exact ⟨reply, stop, ⟨c, hc, hr⟩, he, hs⟩

theorem invoke_eq_returned_iff (h : inst.signature f = .ok ⟨args.kinds, results.kinds⟩)
    {value : results.Carrier} :
    (inst.invoke host f args results).1 = .ok (.returned value) ↔
      ∃ m, inst.Passes host f args.toValues (.halt (.ok (results.toValues value)) m) := by
  obtain ⟨result, m, hh, hinvoke⟩ := invoke_of_signature_eq inst host f args results h
  rw [hinvoke, conclude_eq_returned_iff]
  constructor
  · intro hresult
    rw [hresult] at hh
    exact ⟨m, hh⟩
  · intro hend
    obtain ⟨m', hm⟩ := hend
    exact (Config.halt_unique hh hm).1

theorem invoke_eq_error_iff (h : inst.signature f = .ok ⟨args.kinds, results.kinds⟩)
    {e : InvokeError} :
    (inst.invoke host f args results).1 = .error e ↔
      ∃ stop, e = .executionFault stop ∧ inst.Faults host f args.toValues results stop := by
  obtain ⟨result, m, hh, hinvoke⟩ := invoke_of_signature_eq inst host f args results h
  rw [hinvoke]
  constructor
  · intro he
    have hstop : ∃ stop, e = .executionFault stop := by
      obtain ⟨stop, _, _, hs⟩ | ⟨_, _, _, hs⟩ := conclude_eq_error_iff.mp he
      · exact ⟨stop, hs⟩
      · exact ⟨_, hs⟩
    obtain ⟨stop, rfl⟩ := hstop
    exact ⟨stop, rfl, (faults_iff hh).mpr he⟩
  · intro hfault
    obtain ⟨stop, rfl, hs⟩ := hfault
    exact (faults_iff hh).mp hs

theorem invoke_of_asksToExit {c : Config Host} {code : Int32}
    (h : inst.signature f = .ok ⟨args.kinds, results.kinds⟩)
    (hc : inst.Passes host f args.toValues c) (hx : c.AsksToExit inst.linker inst.mod code) :
    inst.invoke host f args results =
      (.ok (.exited ⟨code⟩), inst.left c.machine, c.machine.host) := by
  obtain ⟨result, m, hh, hinvoke⟩ := invoke_of_signature_eq inst host f args results h
  have hstep : c.step inst.mod inst.imports = some (.halt (.error (.exit ⟨code⟩)) c.machine) :=
    hx.step
  obtain ⟨rfl, rfl⟩ := Config.halt_unique hh (hc.tail hstep)
  exact hinvoke

end

/-- A typed call whose kinds are not the declared ones is refused, and nothing happens. Any other
call ends: exactly a request of a host function to end makes it an exit, with the signal of the
request, exactly a normal end with values of the requested kinds makes it a return, and all else is
a fault. Of a runner this needs only that it unwinds. -/
theorem invoke_boundary (inst : Instance) (host : Host) (f : ExportedFunction) (args : Arguments)
    (results : Shape) :
    (inst.signature f ≠ .ok ⟨args.kinds, results.kinds⟩ →
      inst.invoke host f args results =
        (.error (.signatureMismatch f.name (Signature.textOf (inst.signature f))
          ⟨args.kinds, results.kinds⟩),
          inst, host)) ∧
    (inst.signature f = .ok ⟨args.kinds, results.kinds⟩ →
      (∃ result m, inst.Passes host f args.toValues (.halt result m) ∧
        (inst.invoke host f args results).2 = (inst.left m, m.host)) ∧
      (∀ signal, (inst.invoke host f args results).1 = .ok (.exited signal) ↔
        ∃ c, inst.Passes host f args.toValues c ∧ c.Raises inst.imports signal) ∧
      (∀ value, (inst.invoke host f args results).1 = .ok (.returned value) ↔
        ∃ m, inst.Passes host f args.toValues (.halt (.ok (results.toValues value)) m)) ∧
      (∀ e, (inst.invoke host f args results).1 = .error e ↔
        ∃ stop, e = .executionFault stop ∧ inst.Faults host f args.toValues results stop) ∧
      (∀ c signal, inst.Passes host f args.toValues c → c.Raises inst.imports signal →
        ∃ stop m, stop.cause = .exit signal ∧
          ∀ d, Config.Reaches inst.mod inst.imports c d → d = c ∨ d = .halt (.error stop) m) ∧
      (∀ c code, inst.Passes host f args.toValues c → c.AsksToExit inst.linker inst.mod code →
        inst.invoke host f args results =
          (.ok (.exited ⟨code⟩), inst.left c.machine, c.machine.host))) ∧
    (∀ (signal : ExitSignal) (value : results.Carrier), Outcome.exited signal ≠ .returned value) ∧
    ∀ (runner : Runner Host) (replied : Replied Host), runner.Unwinds replied →
      inst.Boundary host f args results runner replied := by
  refine ⟨invoke_of_signature_ne inst host f args results, ?_, ?_, ?_⟩
  · intro h
    obtain ⟨result, m, hh, hinvoke⟩ := invoke_of_signature_eq inst host f args results h
    refine ⟨⟨result, m, hh, by rw [hinvoke]⟩, ?_, ?_, ?_, ?_, ?_⟩
    · intro signal
      exact invoke_eq_exited_iff h
    · intro value
      exact invoke_eq_returned_iff h
    · intro e
      exact invoke_eq_error_iff h
    · intro c signal _ hs
      obtain ⟨stop, m, hcause, _, hd⟩ := hs.reaches
      exact ⟨stop, m, hcause, hd⟩
    · intro c code hc hx
      exact invoke_of_asksToExit h hc hx
  · intro signal value
    simp
  · intro runner replied hr
    exact boundary_of_unwinds hr inst host f args results

/-- A module whose function calls another one that asks to end with code -1 inside a condition. -/
def nestedExit : Module where
  imports := [⟨Wasi.exitName, .func ⟨[.number .i32], []⟩⟩]
  functions :=
    [⟨⟨[], []⟩, .op (.const (.i32 1))
      (.ifNonzero (.op (.const (.i32 0xffffffff)) (.call 0 .unreachable)) .done)⟩,
     ⟨⟨[], [.number .i32]⟩, .call 1 .spin⟩]
  exports := [("main", .func 2)]

def nestedInstance : Instance where
  mod := nestedExit
  linker := ⟨⟨[(Wasi.exitName, Wasi.exitFunc)], by decide⟩, [Wasi.exitName]⟩
  context := ContextDraft.build {} 0
  memory := .zeroed 0 0
  counter := 100

theorem invoke_boundary_nested :
    nestedInstance.signature ⟨"main", 2⟩ = .ok ⟨[], [.i32]⟩ ∧
    nestedInstance.invoke .still ⟨"main", 2⟩ ⟨.unit, ()⟩ (.scalar .i32) =
      (.ok (.exited ⟨-1⟩), { nestedInstance with counter := 93 }, .still) := by
  have hs : nestedInstance.signature ⟨"main", 2⟩ = .ok ⟨[], [.i32]⟩ := rfl
  have hc : ∃ c, nestedInstance.Passes Host.still ⟨"main", 2⟩ [] c ∧
      c.AsksToExit nestedInstance.linker nestedInstance.mod (-1) ∧
      c.machine = ⟨.zeroed 0 0, 93, .still⟩ := by
    refine ⟨_, .head rfl (.head rfl
      (.head rfl (.head rfl (.head rfl (.head rfl (.head rfl (.head rfl .refl))))))), ?_, rfl⟩
    refine ⟨_, _, _, _, rfl, rfl, ?_, rfl⟩
    simp [nestedInstance, HostTable.get?]
  obtain ⟨c, hp, hx, hm⟩ := hc
  obtain ⟨_, _, _, _, _, hexit⟩ :=
    (invoke_boundary nestedInstance .still ⟨"main", 2⟩ ⟨.unit, ()⟩ (.scalar .i32)).2.1 hs
  have h := hexit c (-1) hp hx
  rw [hm] at h
  exact ⟨hs, h⟩

end Instance

end WasmHost

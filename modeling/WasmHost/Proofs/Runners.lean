import WasmHost.Proofs.Execution
import WasmHost.Proofs.Path
import WasmHost.Proofs.TypedCalls

namespace WasmHost

/-- For each call of a function from outside, the replies that host functions give while it is
run. -/
abbrev Replied (σ : Type) := Module → Imports σ → Nat → List Value → Machine σ → Reply σ → Prop

namespace Runner

/-- What the boundary relies on: an error of a host function ends the call, however deep in it the
function was called, and the call ends with the same cause, though notes may be added. No call ends
with a request to end that no host function made. -/
structure Unwinds {σ : Type} (runner : Runner σ) (replied : Replied σ) : Prop where
  ends : ∀ {mod imports index args m reply stop},
    replied mod imports index args m reply → reply.result = .error stop →
    ∃ stop' m', (runner.call mod imports index args).run m = .error stop' m' ∧
      stop'.cause = stop.cause
  only : ∀ {mod imports index args m stop m' signal},
    (runner.call mod imports index args).run m = .error stop m' → stop.cause = .exit signal →
    ∃ reply stop', replied mod imports index args m reply ∧ reply.result = .error stop' ∧
      stop'.cause = .exit signal

/-- What the accounts rely on: whatever is run, the fuel counter never rises, and without a start
function it stays. -/
structure OnlyBurns {σ : Type} (runner : Runner σ) : Prop where
  call_le : ∀ mod imports index args m,
    (Config.leaves ((runner.call mod imports index args).run m)).fuel ≤ m.fuel
  instantiate_le : ∀ mod imports m,
    (Config.leaves ((runner.instantiate mod imports).run m)).fuel ≤ m.fuel
  instantiate_eq : ∀ {mod}, mod.start = none →
    ∀ imports m, (Config.leaves ((runner.instantiate mod imports).run m)).fuel = m.fuel

/-- The replies that a call on the machine of this library passes through. -/
def machineReplied {σ : Type} : Replied σ := fun mod imports index args m reply =>
  ∃ c, Config.Reaches mod imports (Config.exported mod index args m) c ∧
    c.reply? imports = some reply

theorem reaches_machine_error {σ : Type} {mod : Module} {imports : Imports σ} {index : Nat}
    {args : List Value} {m m' : Machine σ} {stop : Stop}
    (h : (machine.call mod imports index args).run m = .error stop m') :
    Config.Reaches mod imports (Config.exported mod index args m) (.halt (.error stop) m') := by
  have hend := Config.reaches_ending_callExport mod imports index args m
  have hcall : (mod.callExport imports index args).run m = .error stop m' := h
  rwa [hcall] at hend

/-- On the machine an error is passed on as it is. -/
theorem machine_unwinds {σ : Type} : Unwinds (σ := σ) machine machineReplied where
  ends {mod imports index args m reply stop} h he := by
    obtain ⟨c, hc, hr⟩ := h
    have hstep : ∃ m', c.step mod imports = some (.halt (.error stop) m') :=
      Config.step_of_reply_error hr he
    obtain ⟨m', hstep⟩ := hstep
    have hend := Config.reaches_ending_callExport mod imports index args m
    refine ⟨stop, m', ?_, rfl⟩
    change (mod.callExport imports index args).run m = .error stop m'
    cases hcall : (mod.callExport imports index args).run m with
    | ok values m'' =>
      rw [hcall] at hend
      cases (Config.halt_unique hend (hc.tail hstep)).1
    | error stop' m'' =>
      rw [hcall] at hend
      obtain ⟨hstop, rfl⟩ := Config.halt_unique hend (hc.tail hstep)
      rw [Except.error.inj hstop]
  only {mod imports index args m stop m' signal} h hs := by
    obtain ⟨c, hc, reply, stop', hr, he, hs'⟩ :=
      Config.exists_raises (reaches_machine_error h) (Config.exported_ne_halt _ _ _ _ _) hs
    exact ⟨reply, stop', ⟨c, hc, hr⟩, he, hs'⟩

end Runner

namespace Instance

/-- The instance that a run leaves behind. -/
def left (inst : Instance) (m : Machine Host) : Instance :=
  { inst with memory := m.memory, counter := m.fuel }

/-- How a typed call comes out on a runner. It is refused, with nothing done, unless it asks for
what is declared. Else it is an exit just when a host function requested one, a return just when the
run ended well with values of the requested kinds, and all else is a fault of which no request to
end is the cause. -/
structure Boundary (inst : Instance) (host : Host) (f : ExportedFunction) (args : Arguments)
    (results : Shape) (runner : Runner Host) (replied : Replied Host) : Prop where
  refused : inst.signature f ≠ .ok ⟨args.kinds, results.kinds⟩ →
    inst.invoke host f args results runner =
      (.error (.signatureMismatch f.name (Signature.textOf (inst.signature f))
        ⟨args.kinds, results.kinds⟩), inst, host)
  exited : inst.signature f = .ok ⟨args.kinds, results.kinds⟩ → ∀ signal,
    ((inst.invoke host f args results runner).1 = .ok (.exited signal) ↔
      ∃ reply stop, replied inst.mod inst.imports f.index args.toValues
          ⟨inst.memory, inst.counter, host⟩ reply ∧
        reply.result = .error stop ∧ stop.cause = .exit signal)
  returned : inst.signature f = .ok ⟨args.kinds, results.kinds⟩ → ∀ value,
    ((inst.invoke host f args results runner).1 = .ok (.returned value) ↔
      ∃ m, (runner.call inst.mod inst.imports f.index args.toValues).run
          ⟨inst.memory, inst.counter, host⟩ =
        .ok (results.toValues value) m)
  faulted : inst.signature f = .ok ⟨args.kinds, results.kinds⟩ → ∀ e,
    (inst.invoke host f args results runner).1 = .error e →
      ∃ stop, e = .executionFault stop ∧ ∀ signal, stop.cause ≠ .exit signal

variable {inst : Instance} {host : Host} {f : ExportedFunction} {args : Arguments} {results : Shape}

theorem conclude_eq_exited_iff {result : Except Stop (List Value)} {signal : ExitSignal} :
    conclude f results result = .ok (.exited signal) ↔
      ∃ stop, result = .error stop ∧ stop.cause = .exit signal := by
  simp only [← Stop.exitSignal?_eq_some_iff]
  cases result with
  | ok values =>
    simp only [conclude]
    cases results.ofValues? values <;> simp
  | error stop =>
    simp only [conclude]
    cases hs : stop.exitSignal? <;> simp [hs]

theorem conclude_eq_returned_iff {result : Except Stop (List Value)} {value : results.Carrier} :
    conclude f results result = .ok (.returned value) ↔ result = .ok (results.toValues value) := by
  cases result with
  | ok values =>
    simp only [conclude, Except.ok.injEq, ← Shape.ofValues?_eq_some_iff]
    cases results.ofValues? values <;> simp
  | error stop =>
    simp only [conclude]
    cases stop.exitSignal? <;> simp

theorem conclude_eq_error_iff {result : Except Stop (List Value)} {e : InvokeError} :
    conclude f results result = .error e ↔
      (∃ stop, result = .error stop ∧ (∀ signal, stop.cause ≠ .exit signal) ∧
        e = .executionFault stop) ∨
      (∃ values, result = .ok values ∧ (∀ value, values ≠ results.toValues value) ∧
        e = .executionFault (.failure
          ("export " ++ f.name ++ " produced results of the wrong kind"))) := by
  simp only [Ne, ← Stop.exitSignal?_eq_some_iff, ← Shape.ofValues?_eq_some_iff]
  cases result with
  | ok values =>
    simp only [conclude]
    cases hv : results.ofValues? values <;> simp [hv, eq_comm]
  | error stop =>
    simp only [conclude]
    cases hs : stop.exitSignal? <;> simp [hs, eq_comm]

theorem run_fst_eq_ok_iff {values args : List Value} {runner : Runner Host} :
    (inst.run host f args runner).1 = .ok values ↔
      ∃ m, (runner.call inst.mod inst.imports f.index args).run ⟨inst.memory, inst.counter, host⟩ =
        .ok values m := by
  rw [run]
  cases (runner.call inst.mod inst.imports f.index args).run ⟨inst.memory, inst.counter, host⟩ <;>
    simp

theorem run_fst_eq_error_iff {stop : Stop} {args : List Value} {runner : Runner Host} :
    (inst.run host f args runner).1 = .error stop ↔
      ∃ m, (runner.call inst.mod inst.imports f.index args).run ⟨inst.memory, inst.counter, host⟩ =
        .error stop m := by
  rw [run]
  cases (runner.call inst.mod inst.imports f.index args).run ⟨inst.memory, inst.counter, host⟩ <;>
    simp

theorem invoke_of_signature_ne (inst : Instance) (host : Host) (f : ExportedFunction)
    (args : Arguments) (results : Shape) (h : inst.signature f ≠ .ok ⟨args.kinds, results.kinds⟩)
    (runner : Runner Host := .machine) :
    inst.invoke host f args results runner =
      (.error (.signatureMismatch f.name (Signature.textOf (inst.signature f))
        ⟨args.kinds, results.kinds⟩), inst, host) := by
  have hne : ¬ (inst.signature f).toOption = some ⟨args.kinds, results.kinds⟩ := by
    rw [Signature.toOption_eq_some_iff]
    exact h
  rw [invoke, if_neg hne]

theorem invoke_eq_of_signature_eq (h : inst.signature f = .ok ⟨args.kinds, results.kinds⟩)
    (host : Host) (runner : Runner Host := .machine) :
    inst.invoke host f args results runner =
      (conclude f results (inst.run host f args.toValues runner).1,
        (inst.run host f args.toValues runner).2) := by
  have heq : (inst.signature f).toOption = some ⟨args.kinds, results.kinds⟩ :=
    Signature.toOption_eq_some_iff.mpr h
  rw [invoke, if_pos heq, call_of_signature_eq h host runner]

/-- All that the boundary promises comes from what is relied on. -/
theorem boundary_of_unwinds {runner : Runner Host} {replied : Replied Host}
    (hr : runner.Unwinds replied) (inst : Instance) (host : Host) (f : ExportedFunction)
    (args : Arguments) (results : Shape) :
    inst.Boundary host f args results runner replied where
  refused h := invoke_of_signature_ne inst host f args results h runner
  exited h signal := by
    rw [invoke_eq_of_signature_eq h host runner, conclude_eq_exited_iff]
    constructor
    · intro hstop
      obtain ⟨stop, hrun, hs⟩ := hstop
      obtain ⟨m, hrun⟩ := run_fst_eq_error_iff.mp hrun
      exact hr.only hrun hs
    · intro hreplied
      obtain ⟨reply, stop, hreply, he, hs⟩ := hreplied
      obtain ⟨stop', m, hrun, hcause⟩ := hr.ends hreply he
      exact ⟨stop', run_fst_eq_error_iff.mpr ⟨m, hrun⟩, hcause.trans hs⟩
  returned h value := by
    rw [invoke_eq_of_signature_eq h host runner, conclude_eq_returned_iff]
    exact run_fst_eq_ok_iff
  faulted h e he := by
    rw [invoke_eq_of_signature_eq h host runner, conclude_eq_error_iff] at he
    obtain ⟨stop, _, hs, rfl⟩ | ⟨values, _, _, rfl⟩ := he
    · exact ⟨stop, rfl, hs⟩
    · exact ⟨_, rfl, by simp [Stop.cause]⟩

end Instance

end WasmHost

import WasmHost.Proofs.Dispatch
import WasmHost.Proofs.ExitStatus
import WasmHost.Proofs.FuelBudget

namespace WasmHost

namespace Plan

/-- The host functions that guest code gets to call when a plan is carried out: in its start
function, and in all that is done with the instance. -/
inductive Serves (plan : Plan) (engine : Engine) (files : Files) (host : Host) :
    Module → Imports Host → Prop
  | start {mod : Module} {linker : Linker} (hp : plan.prepare engine files = .ok (mod, linker)) :
      Serves plan engine files host mod (linker.imports mod (plan.contextAt host))
  | built {inst : Instance} {host' : Host} (hb : plan.build engine files host = (.ok inst, host')) :
      Serves plan engine files host inst.mod inst.imports

/-- A context as it was prepared, set up when the host is like this. -/
def given (context : ContextDraft) (host : Host) : Context where
  args := context.args
  env := context.env
  stdout := context.stdout
  stderr := context.stderr
  epoch := host.clock.monotonic host.clock.readings

/-- What the budget comes to at the beginning: all of it is on the counter when the start function
is called, and on that of the instance when there is nothing to call. -/
structure Spends (plan : Plan) (units : Nat) (engine : Engine) (files : Files) (host : Host)
    (mod : Module) (linker : Linker) : Prop where
  unstarted : Config.starting? mod (plan.machineAt mod host) = none →
    ∀ inst, (plan.build engine files host).1 = .ok inst → inst.counter = units
  started : ∀ c, Config.starting? mod (plan.machineAt mod host) = some c → c.machine.fuel = units ∧
    ∃ result m, Config.Reaches mod (linker.imports mod (plan.contextAt host)) c (.halt result m) ∧
      ((∃ stop, result = .error stop ∧
        plan.build engine files host = (.error (.instantiate stop), m.host)) ∨
        ∃ values inst, result = .ok values ∧ plan.build engine files host = (.ok inst, m.host) ∧
          inst.counter = m.fuel)

/-- Whoever carries out the plan uses these bindings, this context, this budget and this gate: bytes
with another checksum than the one that is expected are turned down, and with none expected all
bytes are let through; each import runs the function that is bound to its name, in this context; an
instance keeps the context. -/
structure Uses (plan : Plan) (source : Source) (bindings : HostTable) (context : ContextDraft)
    (budget : Budget) (checksum : Option UInt32) : Prop where
  gate : ∀ engine files host expected actual,
    (plan.build engine files host).1 = .error (.checksumMismatch expected actual) ↔
      checksum = some expected ∧ ∃ bytes, source.contents files = .ok bytes ∧
        expected.toNat ≠ adler32 bytes ∧ actual.toNat = adler32 bytes
  bound : ∀ {engine files host mod imports}, plan.Serves engine files host mod imports →
    ∀ slot name type, mod.functionImports[slot]? = some (name, type) →
      ∃ f, bindings.get? name = some f ∧
        ∀ args memory h, f.Replies (given context host) args memory h (imports slot args memory h)
  kept : ∀ engine files host inst, (plan.build engine files host).1 = .ok inst →
    inst.context = given context host ∧ inst.context.output? 1 = some context.stdout ∧
      inst.context.output? 2 = some context.stderr
  spent : ∀ engine files host mod linker, plan.prepare engine files = .ok (mod, linker) →
    plan.Spends (budget.fuel.getD 0xffffffffffffffff).toNat engine files host mod linker

section

variable {plan : Plan} {engine : Engine} {files : Files} {host : Host} {mod : Module}
  {imports : Imports Host}

theorem Serves.exists_linker (h : plan.Serves engine files host mod imports) :
    ∃ linker, plan.link mod = .ok linker ∧ imports = linker.imports mod (plan.contextAt host) := by
  cases h with
  | start hp => exact ⟨_, prepare_eq_ok hp, rfl⟩
  | built hb => exact ⟨_, build_eq_ok hb, imports_of_build hb⟩

theorem contextAt_eq_given (plan : Plan) (host : Host) :
    plan.contextAt host = given plan.context host := rfl

theorem build_eq_mismatch_iff {expected actual : UInt32} :
    (plan.build engine files host).1 = .error (.checksumMismatch expected actual) ↔
      plan.checksum = some expected ∧ ∃ bytes, plan.source.contents files = .ok bytes ∧
        expected.toNat ≠ adler32 bytes ∧ actual.toNat = adler32 bytes := by
  constructor
  · intro h
    rcases plan.rejects_or_accepts engine files with ⟨e, he⟩ | ⟨mod, ha⟩
    · rw [he.build_eq] at h
      obtain rfl := Except.error.inj h
      cases he with
      | checksum hbytes hc hne hactual => exact ⟨hc, _, hbytes, hne, hactual⟩
      | imports _ _ _ _ _ hf => cases hf
    · by_cases hm : engine.metered = true
      · rcases ha.build_cases hm host with ⟨⟨inst, hb⟩, _⟩ | ⟨stop, hb, _⟩
        · rw [hb] at h
          cases h
        · rw [hb] at h
          cases h
      · rw [build, ha.prepare_of_not_metered hm] at h
        cases h
  · intro h
    obtain ⟨hc, bytes, hbytes, hne, hactual⟩ := h
    rw [Rejects.build_eq (.checksum hbytes hc hne hactual)]

theorem spends {linker : Linker} (hp : plan.prepare engine files = .ok (mod, linker))
    (host : Host) :
    plan.Spends plan.budget.units engine files host mod linker := by
  have hbuild : plan.build engine files host = plan.instantiate mod linker host := by
    rw [build, hp]
  constructor
  · intro hnone inst hb
    rw [hbuild] at hb
    exact counter_of_not_starting (Prod.ext hb rfl) hnone
  · intro c hc
    obtain ⟨result, m, hr, hrun⟩ :=
      Config.exists_halt_starting (linker.imports mod (plan.contextAt host)) hc
    refine ⟨Config.fuel_of_starting hc, result, m, hr, ?_⟩
    rw [hbuild, instantiate_eq, hrun]
    cases result with
    | ok values => exact .inr ⟨values, _, rfl, rfl, rfl⟩
    | error stop => exact .inl ⟨stop, rfl, rfl⟩

/-- What is written in a plan is what is used. -/
theorem uses (plan : Plan) :
    plan.Uses plan.source plan.bindings plan.context plan.budget plan.checksum where
  gate engine files host expected actual := build_eq_mismatch_iff
  bound {engine files host mod imports} h slot name type hi := by
    obtain ⟨linker, hl, rfl⟩ := h.exists_linker
    obtain ⟨f, hf, _, himports⟩ := exists_imports_eq hl hi
    refine ⟨f, hf, fun args memory h => ?_⟩
    rw [himports, contextAt_eq_given]
    exact f.call_replies _ args memory h
  kept engine files host inst hb := by
    obtain ⟨_, hi⟩ := prepare_and_instantiate_of_build (Prod.ext hb rfl)
    rw [instantiate_context hi]
    exact ⟨rfl, rfl, rfl⟩
  spent engine files host mod linker hp := spends hp host

end

end Plan

namespace Launch

/-- How it goes when the entry point of a plan's module is run on an engine: it comes to nothing
without an engine or an instance, or without a function of nothing as entry point; else it comes to
what the call of this function comes to. -/
inductive Conducts (engine : Except String Engine) (plan : Plan) (files : Files) (host : Host) :
    Except RunError Status × Host → Prop
  | engine {message : String} (he : engine = .error message) :
      Conducts engine plan files host (.error (.engine message), host)
  | build {e : Engine} {error : BuildError} {host' : Host} (he : engine = .ok e)
      (hb : plan.build e files host = (.error error, host')) :
      Conducts engine plan files host (.error (.build error), host')
  | noEntry {e : Engine} {inst : Instance} {host' : Host} {error : InvokeError}
      (he : engine = .ok e) (hb : plan.build e files host = (.ok inst, host'))
      (h : ∀ index, ¬ inst.IsEntry index) :
      Conducts engine plan files host (.error (.invoke error), host')
  | faulted {e : Engine} {inst inst' : Instance} {host' host'' : Host} {index : Nat}
      {error : InvokeError} (he : engine = .ok e) (hb : plan.build e files host = (.ok inst, host'))
      (hi : inst.IsEntry index)
      (h : inst.invoke host' (Instance.entryAt index) ⟨.unit, ()⟩ .unit =
          (.error error, inst', host'')) :
      Conducts engine plan files host (.error (.invoke error), host'')
  | ended {e : Engine} {inst inst' : Instance} {host' host'' : Host} {index : Nat}
      {outcome : Outcome Unit} (he : engine = .ok e)
      (hb : plan.build e files host = (.ok inst, host')) (hi : inst.IsEntry index)
      (h : inst.invoke host' (Instance.entryAt index) ⟨.unit, ()⟩ .unit =
          (.ok outcome, inst', host'')) :
      Conducts engine plan files host (.ok (entryStatus outcome), host'')

theorem conducts (l : Launch) (create : Except String Engine) (files : Files) (host : Host) :
    Conducts (l.engineOf create) l.plan files host (l.run create files host) := by
  cases he : l.engineOf create with
  | error message =>
    rw [run_of_engine_error he]
    exact .engine rfl
  | ok engine =>
    rw [run_eq l he]
    rcases hb : l.plan.build engine files host with ⟨error | inst, host'⟩
    · exact .build rfl hb
    · by_cases hentry : ∃ index, inst.IsEntry index
      · obtain ⟨index, hi⟩ := hentry
        simp only [enter, hi.find]
        rcases hinvoke : inst.invoke host' (Instance.entryAt index) ⟨.unit, ()⟩ .unit with
          ⟨error | outcome, inst', host''⟩
        · exact .faulted rfl hb hi hinvoke
        · exact .ended rfl hb hi hinvoke
      · obtain ⟨hanswers, hkept, _⟩ := enter_of_not_isEntry (not_exists.mp hentry) host'
        have hnone : ∃ error, enter inst host' = (.error (.invoke error), host') := by
          generalize hresult : (enter inst host').1 = result at hanswers
          cases hanswers with
          | notFound => exact ⟨_, Prod.ext hresult hkept⟩
          | mismatch expected => exact ⟨_, Prod.ext hresult hkept⟩
        obtain ⟨error, henter⟩ := hnone
        simp only [henter]
        exact .noEntry rfl hb (not_exists.mp hentry)

end Launch

end WasmHost

import WasmHost.Launch
import WasmHost.Proofs.ExitBoundary
import WasmHost.Proofs.Linking

namespace WasmHost

namespace Plan

def contextAt (plan : Plan) (host : Host) : Context := plan.context.build host.clock.readMonotonic.1

def machineAt (plan : Plan) (mod : Module) (host : Host) : Machine Host :=
  ⟨mod.blankMemory, plan.budget.units, { host with clock := host.clock.readMonotonic.2 }⟩

theorem instantiate_on_eq (plan : Plan) (mod : Module) (linker : Linker) (host : Host)
    (runner : Runner Host) :
    plan.instantiate mod linker host runner =
      match (runner.instantiate mod (linker.imports mod (plan.contextAt host))).run
          (plan.machineAt mod host) with
      | .ok () m =>
        (.ok { mod, linker, context := plan.contextAt host, memory := m.memory, counter := m.fuel },
          m.host)
      | .error stop m => (.error (.instantiate stop), m.host) := rfl

theorem instantiate_eq (plan : Plan) (mod : Module) (linker : Linker) (host : Host) :
    plan.instantiate mod linker host =
      match (mod.instantiate (linker.imports mod (plan.contextAt host))).run
          (plan.machineAt mod host) with
      | .ok () m =>
        (.ok { mod, linker, context := plan.contextAt host, memory := m.memory, counter := m.fuel },
          m.host)
      | .error stop m => (.error (.instantiate stop), m.host) :=
  plan.instantiate_on_eq mod linker host .machine

theorem prepare_eq_ok {plan : Plan} {engine : Engine} {files : Files} {mod : Module}
    {linker : Linker} (h : plan.prepare engine files = .ok (mod, linker)) :
    plan.link mod = .ok linker := by
  unfold prepare at h
  cases hl : plan.load files with
  | error e => simp [hl, bind, Except.bind] at h
  | ok loaded =>
    cases hc : compile engine loaded with
    | error e => simp [hl, hc, bind, Except.bind] at h
    | ok mod' =>
      cases hk : plan.link mod' with
      | error e => simp [hl, hc, hk, bind, Except.bind] at h
      | ok linker' =>
        cases hm : meter engine with
        | error e => simp [hl, hc, hk, hm, bind, Except.bind] at h
        | ok u =>
          simp only [hl, hc, hk, hm, bind, Except.bind, pure, Except.pure, Except.ok.injEq,
            Prod.mk.injEq] at h
          obtain ⟨rfl, rfl⟩ := h
          exact hk

theorem instantiate_of_asksToExit {plan : Plan} {mod : Module} {linker : Linker} {host : Host}
    {c₀ c : Config Host} {code : Int32}
    (h₀ : Config.starting? mod (plan.machineAt mod host) = some c₀)
    (hc : Config.Reaches mod (linker.imports mod (plan.contextAt host)) c₀ c)
    (hx : c.AsksToExit linker mod code) :
    plan.instantiate mod linker host = (.error (.instantiate (.exit ⟨code⟩)), c.machine.host) := by
  obtain ⟨result, m, hh, hrun⟩ :=
    Config.exists_halt_starting (linker.imports mod (plan.contextAt host)) h₀
  obtain ⟨rfl, rfl⟩ := Config.halt_unique hh (hc.tail hx.step)
  rw [instantiate_eq, hrun]

theorem instantiate_eq_ok {plan : Plan} {mod : Module} {linker : Linker} {host host' : Host}
    {inst : Instance} {runner : Runner Host}
    (h : plan.instantiate mod linker host runner = (.ok inst, host')) :
    inst.mod = mod ∧ inst.linker = linker := by
  rw [instantiate_on_eq] at h
  split at h
  · cases h
    exact ⟨rfl, rfl⟩
  · cases h

theorem build_eq_ok {plan : Plan} {engine : Engine} {files : Files} {host host' : Host}
    {inst : Instance} (h : plan.build engine files host = (.ok inst, host')) :
    plan.link inst.mod = .ok inst.linker := by
  unfold build at h
  split at h
  · cases h
  · rename_i mod linker hp
    obtain ⟨rfl, rfl⟩ := instantiate_eq_ok h
    exact prepare_eq_ok hp

end Plan

namespace Config

/-- The next step is a call of the function that is imported to end the guest, with this code. -/
def CallsExit (mod : Module) (c : Config Host) (code : Int32) : Prop :=
  ∃ offered slot args type, c.control = .host offered slot args ∧
    mod.functionImports[slot]? = some (Wasi.exitName, type) ∧ args[0]? = some (.i32 code.toUInt32)

end Config

theorem Module.name_mem_of_functionImports {mod : Module} {slot : Nat} {i : ImportName × FuncType}
    (h : mod.functionImports[slot]? = some i) : i.1 ∈ mod.imports.map Import.name := by
  obtain ⟨entry, hmem, he⟩ := List.mem_filterMap.mp (List.mem_of_getElem? h)
  refine List.mem_map.mpr ⟨entry, hmem, ?_⟩
  split at he
  · cases he
    rfl
  · cases he

namespace Launch

def engineOf (l : Launch) (create : Except String Engine) : Except String Engine :=
  l.engine.elim create .ok

/-- The two parts of a run in which guest code is active: the start function and the entry point. -/
inductive Stage
  | start
  | entry
deriving DecidableEq

/-- What the guest code of a run passes through. -/
inductive Passes (l : Launch) (create : Except String Engine) (files : Files) (host : Host) :
    Stage → Module → Config Host → Prop
  | start {engine : Engine} {mod : Module} {linker : Linker} {c₀ c : Config Host}
      (he : l.engineOf create = .ok engine) (hp : l.plan.prepare engine files = .ok (mod, linker))
      (h₀ : Config.starting? mod (l.plan.machineAt mod host) = some c₀)
      (h : Config.Reaches mod (linker.imports mod (l.plan.contextAt host)) c₀ c) :
      Passes l create files host .start mod c
  | entry {engine : Engine} {inst : Instance} {host' : Host} {f : ExportedFunction}
      {c : Config Host} (he : l.engineOf create = .ok engine)
      (hb : l.plan.build engine files host = (.ok inst, host')) (hf : inst.find entryPoint = .ok f)
      (hs : inst.signature f = .ok ⟨[], []⟩) (h : inst.Passes host' f [] c) :
      Passes l create files host .entry inst.mod c

/-- What is offered under the WASI name to end the guest is the WASI function, as in the table that
is the default. -/
def OffersExit (l : Launch) : Prop := l.plan.bindings.get? Wasi.exitName = some Wasi.exitFunc

theorem asksToExit {l : Launch} {mod : Module} {linker : Linker} {c : Config Host} {code : Int32}
    (ho : l.OffersExit) (hl : l.plan.link mod = .ok linker) (hx : c.CallsExit mod code) :
    c.AsksToExit linker mod code := by
  obtain ⟨offered, slot, args, type, hc, hi, hargs⟩ := hx
  obtain ⟨hsound, hnames⟩ := Plan.link_sound hl
  have hne : linker.definitions.get? Wasi.exitName ≠ none :=
    (hnames _).mpr (Module.name_mem_of_functionImports hi)
  exact ⟨offered, slot, args, _, hc, hi, (hsound.bound _ hne).trans ho, hargs⟩

theorem run_eq (l : Launch) {create : Except String Engine} {engine : Engine}
    (he : l.engineOf create = .ok engine) (files : Files) (host : Host) :
    l.run create files host =
      match l.plan.build engine files host with
      | (.error e, host) => (.error (.build e), host)
      | (.ok inst, host) => enter inst host := by
  unfold engineOf at he
  unfold run
  cases hl : l.engine with
  | none =>
    rw [hl] at he
    obtain rfl : create = .ok engine := he
    rfl
  | some engine' =>
    rw [hl] at he
    cases he
    rfl

theorem bindings_plan (l : Launch) :
    l.plan.bindings = HostTable.empty.insertAll (l.table.getD Wasi.table).toList := by
  simp only [plan, planSettings, Plan.setAll, List.foldl_append, List.foldl_cons, List.foldl_nil]
  cases l.checksum <;> rfl

theorem offersExit_of_wasi {l : Launch} (h : l.table.getD Wasi.table = Wasi.table) :
    l.OffersExit := by
  rw [OffersExit, bindings_plan, h]
  rfl

/-- What a run answers when its guest calls the function to end in a stage. -/
def Stage.answer (code : Int32) : Stage → Except RunError Status
  | .start => .error (.build (.instantiate (.exit ⟨code⟩)))
  | .entry => .ok (.exited code)

/-- A guest that calls the function to end is answered with its code only from its entry point. From
the start function the request comes back as a failure to build, and the status is that of such a
failure. -/
theorem run_of_callsExit {l : Launch} {create : Except String Engine} {files : Files} {host : Host}
    {stage : Stage} {mod : Module} {c : Config Host} {code : Int32} (ho : l.OffersExit)
    (h : l.Passes create files host stage mod c) (hx : c.CallsExit mod code) :
    l.run create files host = (stage.answer code, c.machine.host) ∧
    ((l.run create files host).1 = .ok (.exited code) ↔ stage = .entry) ∧
    (∀ e, (l.run create files host).1 = .error e → e.exitCode = RunError.buildFailed) := by
  have hrun : l.run create files host = (stage.answer code, c.machine.host) := by
    cases h with
    | start he hp h₀ h =>
      have hask : c.AsksToExit _ mod code := asksToExit ho (Plan.prepare_eq_ok hp) hx
      have hbuild := Plan.instantiate_of_asksToExit h₀ h hask
      rw [run_eq l he, Plan.build, hp]
      simp only [hbuild]
      rfl
    | @entry engine inst host' f c he hb hf hs h =>
      have hask : c.AsksToExit inst.linker inst.mod code := asksToExit ho (Plan.build_eq_ok hb) hx
      have hinvoke : inst.invoke host' f ⟨.unit, ()⟩ .unit =
        (.ok (.exited ⟨code⟩), inst.left c.machine, c.machine.host) :=
        Instance.invoke_of_asksToExit hs h hask
      rw [run_eq l he, hb]
      simp only [enter, hf, hinvoke]
      rfl
  rw [hrun]
  cases stage <;> simp [Stage.answer, RunError.exitCode]

/-- A module that asks to end with code 3, in its start function or only in its entry point. -/
def exitingModule (start : Option Nat) : Module where
  imports := [⟨Wasi.exitName, .func ⟨[.number .i32], []⟩⟩]
  functions := [⟨⟨[], []⟩, .op (.const (.i32 3)) (.call 0 .done)⟩]
  exports := [(entryPoint, .func 1)]
  start

def exiting (start : Option Nat) : Launch where
  source := .bytes []
  engine := some ⟨true, fun _ => .ok (exitingModule start)⟩

def noFiles : Files := fun _ => .error .notFound

theorem run_exiting :
    (exiting (some 1)).OffersExit ∧ (exiting none).OffersExit ∧
    ((exiting (some 1)).run (.error "") noFiles .still).1 =
      .error (.build (.instantiate (.exit ⟨3⟩))) ∧
    ((exiting none).run (.error "") noFiles .still).1 = .ok (.exited 3) := by
  have ho (start : Option Nat) : (exiting start).OffersExit := offersExit_of_wasi rfl
  have hs : ∃ c, (exiting (some 1)).Passes (.error "") noFiles .still .start
    (exitingModule (some 1)) c ∧
      c.CallsExit (exitingModule (some 1)) 3 := by
    refine ⟨_, .start rfl rfl rfl (.head rfl (.head rfl (.head rfl (.head rfl .refl)))), ?_⟩
    exact ⟨_, _, _, _, rfl, rfl, rfl⟩
  have he : ∃ mod c, (exiting none).Passes (.error "") noFiles .still .entry mod c ∧
    c.CallsExit mod 3 := by
    refine ⟨_, _, .entry rfl rfl rfl rfl (.head rfl (.head rfl (.head rfl (.head rfl .refl)))), ?_⟩
    exact ⟨_, _, _, _, rfl, rfl, rfl⟩
  obtain ⟨c, hp, hx⟩ := hs
  obtain ⟨_, d, hq, hy⟩ := he
  refine ⟨ho _, ho _, ?_, ?_⟩
  · rw [(run_of_callsExit (ho _) hp hx).1]
    rfl
  · rw [(run_of_callsExit (ho _) hq hy).1]
    rfl

end Launch

end WasmHost

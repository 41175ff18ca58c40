import WasmHost.Proofs.BuildOrder
import WasmHost.Proofs.CaptureLog

namespace WasmHost

namespace Config

section

variable {σ : Type} {mod : Module} {imports : Imports σ} {c d : Config σ}

theorem fuel_runOp_le (params : List Value) (o : Op) (frame : Frame) (m : Machine σ) :
    (leaves ((Exec.runOp params o frame).run m)).fuel ≤ m.fuel := by
  simp only [Exec.runOp, EStateM.run_bind, EStateM.run_get]
  split
  · exact le_refl _
  · split
    · change m.fuel - ((frame.owed + o.cost : Nat) : Int) ≤ m.fuel
      omega
    · exact le_refl _

theorem fuel_enter_le (m : Machine σ) : (leaves (Exec.enter.run m)).fuel ≤ m.fuel := by
  simp only [Exec.enter, EStateM.run_bind, EStateM.run_get]
  split
  · change m.fuel - 1 ≤ m.fuel
    omega
  · exact le_refl _

theorem fuel_callImport (offered : Bool) (slot : Nat) (args : List Value) (m : Machine σ) :
    (leaves ((Exec.callImport imports offered slot args).run m)).fuel = m.fuel := by
  simp only [Exec.callImport, EStateM.run_bind, EStateM.run_get, EStateM.run_set]
  split <;> rfl

theorem fuel_charge_le (owed : Nat) (m : Machine σ) : (charge owed m).fuel ≤ m.fuel := by
  change m.fuel - (owed : Int) ≤ m.fuel
  omega

theorem fuel_stepCode_le (params : List Value) (frame : Frame) (konts : List Kont) (m : Machine σ)
    (code : Code) :
    (stepCode mod params frame konts m code).machine.fuel ≤ m.fuel := by
  cases code with
  | op o next =>
    rw [stepCode, machine_after (fun _ _ => rfl)]
    exact fuel_runOp_le params o frame m
  | call f next =>
    rw [stepCode]
    split
    · exact fuel_charge_le _ m
    · exact fuel_charge_le _ m
  | ifNonzero body next =>
    rw [stepCode]
    split
    · split <;> exact le_refl _
    · exact le_refl _
  | unreachable => exact fuel_charge_le _ m
  | spin => exact min_le_left m.fuel 0
  | done | ret => exact le_refl _

/-- No step puts fuel back, whatever it does and however it ends a run. -/
theorem fuel_le_of_step (h : c.step mod imports = some d) : d.machine.fuel ≤ c.machine.fuel := by
  obtain ⟨control, konts, m⟩ := c
  cases control with
  | code code params frame =>
    cases h
    exact fuel_stepCode_le params frame konts m code
  | leave returned frame =>
    rcases konts with _ | ⟨_ | f | _, konts⟩
    · cases h
    · simp only [step, stepLeave] at h
      split at h <;> cases h <;> exact le_refl _
    · simp only [step, stepLeave] at h
      split at h <;> cases h <;> exact fuel_charge_le _ m
    · cases h
  | call index args =>
    simp only [step, stepCall, Option.some.injEq] at h
    subst h
    split
    · split
      · exact le_refl _
      · rw [machine_after (fun _ _ => rfl)]
        exact fuel_enter_le m
      · exact le_refl _
    · exact le_refl _
  | host offered slot args =>
    cases h
    rw [machine_after (fun _ _ => rfl), fuel_callImport]
  | back values =>
    rcases konts with _ | ⟨_ | _ | _, konts⟩ <;> cases h <;> exact le_refl _
  | halted result => cases h

theorem fuel_le_of_reaches (h : Reaches mod imports c d) : d.machine.fuel ≤ c.machine.fuel := by
  induction h with
  | refl => exact le_refl _
  | tail _ hs ih => exact (fuel_le_of_step hs).trans ih

theorem fuel_of_starting {m : Machine σ} (h : starting? mod m = some c) :
    c.machine.fuel = m.fuel := by
  unfold starting? at h
  split at h <;> cases h
  rfl

theorem starting?_of_start_eq_none (h : mod.start = none) (m : Machine σ) :
    starting? mod m = none := by
  unfold starting?
  rw [h]
  split <;> simp_all

theorem machine_ending {r : EStateM.Result Stop (Machine σ) (List Value)} :
    (ending r).machine = leaves r :=
  machine_after (fun _ _ => rfl) r

end

end Config

/-- The machine of this library never puts fuel back. -/
theorem Runner.machine_onlyBurns {σ : Type} : OnlyBurns (σ := σ) machine where
  call_le mod imports index args m := by
    have hend := Config.fuel_le_of_reaches
      (Config.reaches_ending_callExport mod imports index args m)
    rwa [Config.machine_exported, Config.machine_ending] at hend
  instantiate_le mod imports m := by
    change (Config.leaves ((mod.instantiate imports).run m)).fuel ≤ m.fuel
    cases hc : Config.starting? mod m with
    | none =>
      rw [Config.run_instantiate_of_none imports hc]
      split <;> exact le_refl _
    | some c =>
      obtain ⟨result, m', hr, hrun⟩ := Config.exists_halt_starting imports hc
      have hfuel := Config.fuel_le_of_reaches hr
      rw [Config.fuel_of_starting hc] at hfuel
      rw [hrun]
      cases result <;> exact hfuel
  instantiate_eq {mod} hstart imports m := by
    change (Config.leaves ((mod.instantiate imports).run m)).fuel = m.fuel
    rw [Config.run_instantiate_of_none imports (Config.starting?_of_start_eq_none hstart m)]
    split <;> rfl

/-- Readings of a counter between a first and a last one, none of them above the one before it. -/
inductive Falls : Int → List Int → Int → Prop
  | last {start finish : Int} (h : finish ≤ start) : Falls start [] finish
  | next {start reading finish : Int} {rest : List Int} (h : reading ≤ start)
      (hr : Falls reading rest finish) :
    Falls start (reading :: rest) finish

namespace Falls

variable {a b c : Int} {xs ys : List Int}

theorem of_le (h : Falls b xs c) (hab : b ≤ a) : Falls a xs c := by
  cases h with
  | last hc => exact .last (hc.trans hab)
  | next hx hr => exact .next (hx.trans hab) hr

theorem append (h : Falls a xs b) (h' : Falls b ys c) : Falls a (xs ++ ys) c := by
  induction h with
  | last hab => exact h'.of_le hab
  | next hx _ ih => exact .next hx (ih h')

theorem le (h : Falls a xs b) : b ≤ a := by
  induction h with
  | last hab => exact hab
  | next hx _ ih => exact ih.trans hx

/-- Of any two readings the later one is not above the earlier one. -/
theorem pairwise (h : Falls a xs b) : (a :: (xs ++ [b])).Pairwise (· ≥ ·) := by
  induction h with
  | last hab => simpa using hab
  | @next start reading finish rest hx hr ih =>
    refine List.pairwise_cons.mpr ⟨?_, ih⟩
    intro x hmem
    rcases List.mem_cons.mp hmem with rfl | hmem
    · exact hx
    · exact ((List.pairwise_cons.mp ih).1 x hmem).trans hx

end Falls

/-- What the fuel counter shows at these moments. -/
def Config.counters {σ : Type} (cs : List (Config σ)) : List Int := cs.map fun c => c.machine.fuel

theorem Config.counters_append {σ : Type} (cs ds : List (Config σ)) :
    counters (cs ++ ds) = counters cs ++ counters ds :=
  List.map_append

theorem Config.Path.falls {σ : Type} {mod : Module} {imports : Imports σ} {c d : Config σ}
    {cs : List (Config σ)} (h : Path mod imports c cs d) :
    Falls c.machine.fuel (counters cs) d.machine.fuel := by
  induction h with
  | nil c => exact .last (le_refl _)
  | cons hs _ ih => exact .next (le_refl _) (ih.of_le (fuel_le_of_step hs))

namespace Instance

variable {inst : Instance} {host : Host}

theorem Answers.falls {requests : List Request} {cs : List (Config Host)}
    (h : Answers inst host requests cs) :
    Falls inst.counter (Config.counters cs) (inst.answerAll host requests).1.counter := by
  induction h with
  | nil inst host => exact .last (le_refl _)
  | @refused inst host r rest cs h _ ih =>
    simp only [answerAll, invoke_of_signature_ne inst host r.func r.args r.results h]
    exact ih
  | @ran inst host r rest cs ds result m h hp _ ih =>
    -- Runs are determined, so the end of this path is what the call leaves.
    obtain ⟨result', m', hp', hinvoke⟩ := invoke_of_signature_eq inst host r.func r.args r.results h
    obtain ⟨rfl, rfl⟩ := Config.halt_unique hp.reaches hp'
    have hrun := hp.falls
    rw [Config.machine_exported] at hrun
    simp only [answerAll, hinvoke]
    rw [Config.counters_append]
    exact hrun.append ih

theorem Runs.falls {events : List Event} {cs : List (Config Host)} (h : Runs inst host events cs) :
    Falls inst.counter (Config.counters cs) (inst.after host events).1.counter := by
  induction h with
  | nil inst host => exact .last (le_refl _)
  | @operation inst host op rest cs ds h _ ih =>
    have hfirst := h.falls
    rw [← perform_snd] at hfirst
    rw [Config.counters_append]
    exact hfirst.append ih
  | elsewhere _ ih => exact ih

theorem counter_run (inst : Instance) (host : Host) (f : ExportedFunction) (args : List Value)
    (runner : Runner Host) :
    (inst.run host f args runner).2.1.counter = (Config.leaves
      ((runner.call inst.mod inst.imports f.index args).run
        ⟨inst.memory, inst.counter, host⟩)).fuel := by
  rw [run]
  cases (runner.call inst.mod inst.imports f.index args).run ⟨inst.memory, inst.counter, host⟩ <;>
    rfl

/-- A call that is not refused begins with what is on the counter, and leaves what is left of
that. -/
theorem counter_invoke {runner : Runner Host} {f : ExportedFunction} {args : Arguments}
    {results : Shape} (h : inst.signature f = .ok ⟨args.kinds, results.kinds⟩) (host : Host) :
    (inst.invoke host f args results runner).2.1.counter = (Config.leaves
      ((runner.call inst.mod inst.imports f.index args.toValues).run
        ⟨inst.memory, inst.counter, host⟩)).fuel := by
  rw [invoke_eq_of_signature_eq h host runner, counter_run]

section

variable {runner : Runner Host} (hr : runner.OnlyBurns)

include hr

theorem counter_invoke_le (inst : Instance) (host : Host) (f : ExportedFunction) (args : Arguments)
    (results : Shape) :
    (inst.invoke host f args results runner).2.1.counter ≤ inst.counter := by
  by_cases h : inst.signature f = .ok ⟨args.kinds, results.kinds⟩
  · rw [counter_invoke h]
    exact hr.call_le inst.mod inst.imports f.index args.toValues _
  · rw [invoke_of_signature_ne inst host f args results h runner]

theorem counter_answerAll_le (inst : Instance) (host : Host) (requests : List Request) :
    (inst.answerAll host requests runner).1.counter ≤ inst.counter := by
  induction requests generalizing inst host with
  | nil => exact le_refl _
  | cons r rest ih =>
    have hfirst := counter_invoke_le hr inst host r.func r.args r.results
    exact (ih _ _).trans hfirst

theorem counter_after_le (inst : Instance) (host : Host) (events : List Event) :
    (inst.after host events runner).1.counter ≤ inst.counter := by
  induction events generalizing inst host with
  | nil => exact le_refl _
  | cons event rest ih =>
    cases event with
    | operation op =>
      have hfirst := counter_answerAll_le hr inst host (op.requests inst)
      rw [← perform_snd] at hfirst
      exact (ih _ _).trans hfirst
    | elsewhere change => exact ih inst (change host)

end

/-- A call that runs begins with what is on the counter, and goes down from there to what it
leaves. -/
theorem exists_left_of_signature_eq (inst : Instance) (host : Host) (f : ExportedFunction)
    (args : Arguments) (results : Shape) (h : inst.signature f = .ok ⟨args.kinds, results.kinds⟩) :
    ∃ result m, inst.Passes host f args.toValues (.halt result m) ∧
      (inst.invoke host f args results).2 = (inst.left m, m.host) ∧
      ∀ c, inst.Passes host f args.toValues c →
        c.machine.fuel ≤ inst.counter ∧ m.fuel ≤ c.machine.fuel := by
  obtain ⟨result, m, hrun, hinvoke⟩ := invoke_of_signature_eq inst host f args results h
  refine ⟨result, m, hrun, congrArg Prod.snd hinvoke, ?_⟩
  intro c hc
  have hbegin := Config.fuel_le_of_reaches hc
  rw [Config.machine_exported] at hbegin
  have hend : Config.Reaches inst.mod inst.imports c (.halt result m) :=
    Config.reaches_halt_of_reaches hc hrun
  exact ⟨hbegin, Config.fuel_le_of_reaches hend⟩

end Instance

/-- An instance whose counter is within a budget shows its fuel as it is, for no budget is too large
to be shown. -/
theorem Engine.exists_fuel? {engine : Engine} {inst : Instance} {budget : Budget}
    (hm : engine.metered = true) (h : inst.counter ≤ budget.units) :
    ∃ v, engine.fuel? inst = some v ∧ v.toNat = inst.fuel ∧ v.toNat ≤ budget.units := by
  have hle : inst.fuel ≤ budget.units := by
    rw [Instance.fuel]
    omega
  have hlt : budget.units < UInt64.size := UInt64.toNat_lt _
  have hshown : (UInt64.ofNat inst.fuel).toNat = inst.fuel :=
    UInt64.toNat_ofNat_of_lt (hle.trans_lt hlt)
  refine ⟨UInt64.ofNat inst.fuel, ?_, hshown, ?_⟩
  · rw [fuel?, if_pos hm]
  · rw [hshown]
    exact hle

/-- What is shown later is not above what is shown now, and after 0 it is 0. -/
theorem Engine.exists_fuel?_after {engine : Engine} {inst : Instance} {budget : Budget}
    {runner : Runner Host} (hr : runner.OnlyBurns) (hm : engine.metered = true)
    (h : inst.counter ≤ budget.units) (host : Host) :
    ∃ v, engine.fuel? inst = some v ∧ (inst.perform host .fuel runner).1 = .fuel v.toNat ∧
      v.toNat ≤ budget.units ∧
      ∀ more, ∃ w, engine.fuel? (inst.after host more runner).1 = some w ∧ w ≤ v ∧
        (v = 0 → w = 0) := by
  obtain ⟨v, hv, hfuel, hbudget⟩ := exists_fuel? hm h
  refine ⟨v, hv, congrArg Answer.fuel hfuel.symm, hbudget, ?_⟩
  intro more
  have hmore : (inst.after host more runner).1.counter ≤ inst.counter :=
    inst.counter_after_le hr host more
  obtain ⟨w, hw, hfuel', _⟩ := exists_fuel? hm (hmore.trans h)
  have hwv : w ≤ v := by
    rw [UInt64.le_iff_toNat_le, hfuel, hfuel']
    exact Int.toNat_le_toNat hmore
  refine ⟨w, hw, hwv, ?_⟩
  rintro rfl
  exact UInt64.le_zero_iff.mp hwv

namespace Plan

variable {plan : Plan} {engine : Engine} {files : Files} {host host' : Host} {mod : Module}
  {linker : Linker} {inst : Instance}

theorem metered_of_prepare (h : plan.prepare engine files = .ok (mod, linker)) :
    engine.metered = true := by
  rcases plan.rejects_or_accepts engine files with ⟨e, he⟩ | ⟨mod', ha⟩
  · rw [he.prepare_eq] at h
    cases h
  · by_contra hne
    rw [ha.prepare_of_not_metered hne] at h
    cases h

/-- How the fuel goes of an instance that a plan has built on a runner. The whole budget is put on
the counter before anything is run, and what instantiation used is taken off. What is shown of it is
never above the budget and never rises, and is 0 for good when it is 0 once. A look at the instance
and a call that is refused leave it, and a call that runs begins with what is there. -/
structure Accounts (plan : Plan) (engine : Engine) (host : Host) (inst : Instance) (host' : Host)
    (runner : Runner Host) : Prop where
  whole : inst.mod.start = none →
    engine.fuel? inst = some (plan.budget.fuel.getD 0xffffffffffffffff)
  deducted : (plan.machineAt inst.mod host).fuel = plan.budget.units ∧ inst.counter = (Config.leaves
    ((runner.instantiate inst.mod inst.imports).run (plan.machineAt inst.mod host))).fuel
  shown : ∀ events i h, inst.after host' events runner = (i, h) →
    ∃ v, engine.fuel? i = some v ∧ (i.perform h .fuel runner).1 = .fuel v.toNat ∧
      v.toNat ≤ plan.budget.units ∧
      ∀ more, ∃ w, engine.fuel? (inst.after host' (events ++ more) runner).1 = some w ∧ w ≤ v ∧
        (v = 0 → w = 0)
  refused : ∀ events i h, inst.after host' events runner = (i, h) →
    ∀ op : Operation, (∀ r ∈ op.requests i, i.signature r.func ≠
      .ok ⟨r.args.kinds, r.results.kinds⟩) →
      inst.after host' (events ++ [.operation op]) runner = (i, h)
  chained : ∀ events i h, inst.after host' events runner = (i, h) →
    ∀ (op : Operation) before r later j h', op.requests i = before ++ r :: later →
      i.answerAll h before runner = (j, h') →
      let next := (j.invoke h' r.func r.args r.results runner).2
      inst.after host' (events ++ [.operation op]) runner = next.1.answerAll next.2 later runner ∧
      (j.signature r.func ≠ .ok ⟨r.args.kinds, r.results.kinds⟩ → next = (j, h')) ∧
      (j.signature r.func = .ok ⟨r.args.kinds, r.results.kinds⟩ → next.1.counter ≤ j.counter ∧
        next.1.counter = (Config.leaves
          ((runner.call j.mod j.imports r.func.index r.args.toValues).run
            ⟨j.memory, j.counter, h'⟩)).fuel)

theorem counter_of_instantiate {runner : Runner Host}
    (hi : plan.instantiate mod linker host runner = (.ok inst, host')) :
    inst.counter = (Config.leaves
      ((runner.instantiate mod (linker.imports mod (plan.contextAt host))).run
        (plan.machineAt mod host))).fuel := by
  rw [instantiate_on_eq] at hi
  split at hi
  · rename_i hrun
    cases hi
    rw [hrun]
    rfl
  · cases hi

theorem fuel?_eq_of_counter_eq (hm : engine.metered = true) (h : inst.counter = plan.budget.units) :
    engine.fuel? inst = some (plan.budget.fuel.getD 0xffffffffffffffff) := by
  have hfuel : inst.fuel = plan.budget.units := by
    rw [Instance.fuel, h]
    rfl
  rw [Engine.fuel?, if_pos hm, hfuel, Budget.units, UInt64.ofNat_toNat]

/-- Of a runner the accounts need only that it never puts fuel back. -/
theorem accounts_of_onlyBurns {runner : Runner Host} (hr : runner.OnlyBurns)
    (hb : plan.build engine files host runner = (.ok inst, host')) :
    plan.Accounts engine host inst host' runner := by
  obtain ⟨hp, hi⟩ := prepare_and_instantiate_of_build hb
  have hm : engine.metered = true := metered_of_prepare hp
  have hcounter := counter_of_instantiate hi
  have hbuilt : inst.counter ≤ plan.budget.units := by
    rw [hcounter]
    exact hr.instantiate_le inst.mod _ (plan.machineAt inst.mod host)
  constructor
  case whole =>
    intro hstart
    refine fuel?_eq_of_counter_eq hm ?_
    rw [hcounter]
    exact hr.instantiate_eq hstart _ (plan.machineAt inst.mod host)
  case deducted =>
    rw [imports_of_build hb]
    exact ⟨rfl, hcounter⟩
  case shown =>
    intro events i h hevents
    have hle : i.counter ≤ inst.counter := by
      have hafter := inst.counter_after_le hr host' events
      rwa [hevents] at hafter
    simp only [Instance.after_append, hevents]
    exact Engine.exists_fuel?_after hr hm (hle.trans hbuilt) h
  case refused =>
    intro events i h hevents op hrefused
    rw [Instance.after_operation hevents, Instance.answerAll_of_refused hrefused]
  case chained =>
    intro events i h hevents op before r later j h' hrequests hbefore
    refine ⟨?_, ?_, ?_⟩
    · rw [Instance.after_operation hevents, hrequests, Instance.answerAll_append, hbefore]
      rfl
    · intro hrefused
      rw [Instance.invoke_of_signature_ne j h' r.func r.args r.results hrefused runner]
    · intro hsignature
      exact ⟨j.counter_invoke_le hr h' r.func r.args r.results,
        Instance.counter_invoke hsignature h'⟩

/-- Without a start function the budget is still whole. -/
theorem counter_of_not_starting (hi : plan.instantiate mod linker host = (.ok inst, host'))
    (h : Config.starting? mod (plan.machineAt mod host) = none) :
    inst.counter = plan.budget.units := by
  have hrun := Config.run_instantiate_of_none (linker.imports mod (plan.contextAt host)) h
  rw [counter_of_instantiate hi, Runner.machine, hrun]
  split <;> rfl

/-- A start function begins with the whole budget, and the instance has what is left when it comes
back. -/
theorem exists_halt_of_starting {c : Config Host}
    (hi : plan.instantiate mod linker host = (.ok inst, host'))
    (h : Config.starting? mod (plan.machineAt mod host) = some c) :
    c.machine.fuel = plan.budget.units ∧ ∃ values m,
      Config.Reaches mod (linker.imports mod (plan.contextAt host)) c (.halt (.ok values) m) ∧
      inst.counter = m.fuel := by
  refine ⟨Config.fuel_of_starting h, ?_⟩
  obtain ⟨result, m, hr, hrun⟩ :=
    Config.exists_halt_starting (linker.imports mod (plan.contextAt host)) h
  have hcounter := counter_of_instantiate hi
  rw [Runner.machine, hrun] at hcounter
  cases result with
  | ok values => exact ⟨values, m, hr, hcounter⟩
  | error stop =>
    rw [instantiate_eq, hrun] at hi
    cases hi

theorem Starts.falls {cs : List (Config Host)} (h : plan.Starts mod linker host cs)
    (hi : plan.instantiate mod linker host = (.ok inst, host')) :
    Falls plan.budget.units (Config.counters cs) inst.counter := by
  cases h with
  | none h => exact .last (counter_of_not_starting hi h).le
  | @some c cs result m h hp =>
    obtain ⟨hstart, values, m', hr, hcounter⟩ := exists_halt_of_starting hi h
    obtain ⟨_, rfl⟩ := Config.halt_unique hp.reaches hr
    have hrun := hp.falls
    rw [hstart] at hrun
    rw [hcounter]
    exact hrun

/-- The budget is put on the counter once, before any guest code runs, and from then on the counter
only falls: at each moment of the start function and of all that is done with the instance, however
a call ends. What is shown of it is never above the budget and never rises, and is 0 for good when
it is 0 once. A look at the instance and a call that is refused leave it, and a call that runs
begins with what is there. What is shown goes so on each runner that never puts fuel back. -/
theorem fuel_only_falls (hb : plan.build engine files host = (.ok inst, host')) :
    (inst.mod.start = none → engine.fuel? inst = some (plan.budget.fuel.getD 0xffffffffffffffff)) ∧
    (∀ c, Config.starting? inst.mod (plan.machineAt inst.mod host) = some c →
      c.machine.fuel = plan.budget.units ∧
      ∃ values m, Config.Reaches inst.mod inst.imports c (.halt (.ok values) m) ∧
        inst.counter = m.fuel) ∧
    (∃ cs, plan.Starts inst.mod inst.linker host cs) ∧ (∀ events, ∃ ds, inst.Runs host' events ds) ∧
    (∀ cs, plan.Starts inst.mod inst.linker host cs → ∀ events ds, inst.Runs host' events ds →
      ((plan.budget.units : Int) ::
        (Config.counters (cs ++ ds) ++ [(inst.after host' events).1.counter])).Pairwise
        (· ≥ ·)) ∧
    (∀ events i h, inst.after host' events = (i, h) →
      (∃ v, engine.fuel? i = some v ∧ (i.perform h .fuel).1 = .fuel v.toNat ∧
        v.toNat ≤ plan.budget.units ∧
        ∀ more, ∃ w, engine.fuel? (inst.after host' (events ++ more)).1 = some w ∧ w ≤ v ∧
          (v = 0 → w = 0)) ∧
      (∀ op : Operation, (∀ r ∈ op.requests i, i.signature r.func ≠
        .ok ⟨r.args.kinds, r.results.kinds⟩) →
        inst.after host' (events ++ [.operation op]) = (i, h)) ∧
      ∀ (op : Operation) before r later j h', op.requests i = before ++ r :: later →
        i.answerAll h before = (j, h') →
        let next := (j.invoke h' r.func r.args r.results).2
        inst.after host' (events ++ [.operation op]) = next.1.answerAll next.2 later ∧
        (j.signature r.func ≠ .ok ⟨r.args.kinds, r.results.kinds⟩ → next = (j, h')) ∧
        (j.signature r.func = .ok ⟨r.args.kinds, r.results.kinds⟩ →
          ∃ result m, j.Passes h' r.func r.args.toValues (.halt result m) ∧
            next = (j.left m, m.host) ∧
            ∀ c, j.Passes h' r.func r.args.toValues c →
              c.machine.fuel ≤ j.counter ∧ next.1.counter ≤ c.machine.fuel)) ∧
    ∀ (runner : Runner Host) i h, runner.OnlyBurns →
      plan.build engine files host runner = (.ok i, h) →
      plan.Accounts engine host i h runner := by
  obtain ⟨_, hi⟩ := prepare_and_instantiate_of_build hb
  have haccounts := accounts_of_onlyBurns Runner.machine_onlyBurns hb
  refine ⟨haccounts.whole, ?_, plan.exists_starts inst.mod inst.linker host, inst.exists_runs host',
    ?_, ?_, ?_⟩
  · intro c hc
    rw [imports_of_build hb]
    exact exists_halt_of_starting hi hc
  · intro cs hcs events ds hds
    rw [Config.counters_append]
    exact ((hcs.falls hi).append hds.falls).pairwise
  · intro events i h hevents
    refine ⟨haccounts.shown events i h hevents, haccounts.refused events i h hevents, ?_⟩
    intro op before r later j h' hrequests hbefore
    obtain ⟨hafter, hrefused, _⟩ :=
      haccounts.chained events i h hevents op before r later j h' hrequests hbefore
    refine ⟨hafter, hrefused, ?_⟩
    intro hsignature
    obtain ⟨result, m, hrun, hnext, hfuel⟩ :=
      j.exists_left_of_signature_eq h' r.func r.args r.results hsignature
    rw [hnext]
    exact ⟨result, m, hrun, rfl, hfuel⟩
  · intro runner i h hr hbuild
    exact accounts_of_onlyBurns hr hbuild

/-- A module that runs the function that it exports also when it starts. -/
def burner : Module where
  functions := [⟨⟨[], []⟩, .op (.const (.i32 0)) (.op .drop .done)⟩]
  exports := [("main", .func 0)]
  start := some 0

def burning : Plan where
  source := .bytes []
  budget := .limited 8

theorem fuel_only_falls_burning :
    let engine : Engine := ⟨true, fun _ => .ok burner⟩
    let calls : List Event := List.replicate 3 (.operation (.invoke "main" ⟨.unit, ()⟩ .unit))
    ∃ inst host, burning.build engine Launch.noFiles .still = (.ok inst, host) ∧
      engine.fuel? inst = some 6 ∧
      ∀ more, engine.fuel? (inst.after host (calls ++ more)).1 = some 0 := by
  intro engine calls
  have hbuild : ∃ inst host i h, burning.build engine Launch.noFiles .still = (.ok inst, host) ∧
      engine.fuel? inst = some 6 ∧ inst.after host calls = (i, h) ∧ engine.fuel? i = some 0 :=
    ⟨_, _, _, _, rfl, rfl, rfl, rfl⟩
  obtain ⟨inst, host, i, h, hb, hfirst, hcalls, hlast⟩ := hbuild
  obtain ⟨_, _, _, _, _, hevents, _⟩ := fuel_only_falls hb
  obtain ⟨⟨v, hv, _, _, hmore⟩, _⟩ := hevents calls i h hcalls
  obtain rfl : v = 0 := Option.some.inj (hv.symm.trans hlast)
  refine ⟨inst, host, hb, hfirst, ?_⟩
  intro more
  obtain ⟨w, hw, _, hzero⟩ := hmore more
  rw [hw, hzero rfl]

end Plan

end WasmHost

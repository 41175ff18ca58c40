import WasmHost.Proofs.BuildOrder
import WasmHost.Proofs.CaptureLog
import WasmHost.Proofs.Offers

namespace WasmHost

theorem Module.callee?_eq_imported_iff {mod : Module} {index slot : Nat} {name : ImportName}
    {type : FuncType} :
    mod.callee? index = some (.imported slot name type) ↔
      mod.functionImports[index]? = some (name, type) ∧ slot = index := by
  rw [callee?]
  cases hi : mod.functionImports[index]? with
  | none => simp
  | some i => simp [Prod.ext_iff, and_comm, eq_comm]

namespace Config

variable {mod : Module} {imports : Imports Host} {c d : Config Host} {cs : List (Config Host)}

/-- If a host function is called next, it is one that the module imports. -/
def InSlots (mod : Module) (c : Config Host) : Prop :=
  ∀ offered slot args, c.control = .host offered slot args →
    ∃ i, mod.functionImports[slot]? = some i

/-- Where a call of a host function leads, by what the function answers. -/
def resume (offered : Bool) (reply : Reply Host) (c : Config Host) : Config Host :=
  match reply.result with
  | .ok values => ⟨.back values, c.konts, answered offered reply c.machine⟩
  | .error stop => halt (.error stop) (answered offered reply c.machine)

theorem step_host {offered : Bool} {slot : Nat} {args : List Value}
    (hc : c.control = .host offered slot args) :
    c.step mod imports =
      some (c.resume offered
        (imports slot args (if offered then some c.machine.memory else none) c.machine.host)) := by
  obtain ⟨control, konts, m⟩ := c
  obtain rfl : control = .host offered slot args := hc
  simp only [step, Exec.callImport, EStateM.run_bind, EStateM.run_get, EStateM.run_set, resume]
  cases (imports slot args (if offered then some m.memory else none) m.host).result <;> rfl

theorem control_after_ne_host {α : Type} {r : EStateM.Result Stop (Machine Host) α}
    {next : α → Machine Host → Config Host} {offered : Bool} {slot : Nat} {args : List Value}
    (hn : ∀ a m, (next a m).control ≠ .host offered slot args) :
    (after r next).control ≠ .host offered slot args := by
  cases r with
  | ok a m => exact hn a m
  | error stop m => simp [after, halt]

/-- A step leads to the call of a host function only from the call of an import, and with the same
arguments. -/
theorem exists_call_of_step (h : c.step mod imports = some d) {offered : Bool} {slot : Nat}
    {args : List Value} (hd : d.control = .host offered slot args) :
    ∃ index name type, c.control = .call index args ∧
      mod.callee? index = some (.imported slot name type) := by
  obtain ⟨control, konts, m⟩ := c
  cases control with
  | code code params frame =>
    exfalso
    cases h
    revert hd
    cases code with
    | op o next => exact control_after_ne_host (by simp)
    | call f next =>
      rw [stepCode]
      split <;> simp [halt]
    | ifNonzero body next =>
      rw [stepCode]
      split
      · split <;> simp
      · simp [halt]
    | done | ret | unreachable | spin => simp [stepCode, halt]
  | leave returned frame =>
    exfalso
    rcases konts with _ | ⟨_ | f | _, konts⟩
    · cases h
    · simp only [step, stepLeave] at h
      split at h <;> cases h <;> cases hd
    · simp only [step, stepLeave] at h
      split at h <;> cases h <;> cases hd
    · cases h
  | call index args' =>
    simp only [step, stepCall, Option.some.injEq] at h
    split at h
    · split at h
      · rename_i slot' name type hcallee
        subst h
        cases hd
        exact ⟨index, name, type, rfl, hcallee⟩
      · subst h
        exact absurd hd (control_after_ne_host (by simp))
      · subst h
        cases hd
    · subst h
      cases hd
  | host offered' slot' args' =>
    rw [step_host rfl, Option.some.injEq, resume] at h
    subst h
    split at hd <;> cases hd
  | back values => rcases konts with _ | ⟨_ | _ | _, konts⟩ <;> cases h <;> cases hd
  | halted result => cases h

theorem inSlots_of_step (h : c.step mod imports = some d) : d.InSlots mod := by
  intro offered slot args hd
  obtain ⟨index, name, type, _, hcallee⟩ := exists_call_of_step h hd
  obtain ⟨hi, rfl⟩ := Module.callee?_eq_imported_iff.mp hcallee
  exact ⟨_, hi⟩

theorem inSlots_of_reaches (hc : c.InSlots mod) (h : Reaches mod imports c d) : d.InSlots mod := by
  rcases Relation.ReflTransGen.cases_tail h with rfl | ⟨e, _, hs⟩
  · exact hc
  · exact inSlots_of_step hs

theorem Path.inSlots (h : Path mod imports c cs d) (hc : c.InSlots mod) :
    ∀ e ∈ cs, e.InSlots mod := by
  induction h with
  | nil => simp
  | cons hs _ ih => exact List.forall_mem_cons.mpr ⟨hc, ih (inSlots_of_step hs)⟩

theorem inSlots_exported (mod : Module) (index : Nat) (args : List Value) (m : Machine Host) :
    (exported mod index args m).InSlots mod := by
  intro offered slot args' hc
  unfold exported at hc
  split at hc
  · rename_i slot' name type hcallee
    cases hc
    obtain ⟨hi, rfl⟩ := Module.callee?_eq_imported_iff.mp hcallee
    exact ⟨_, hi⟩
  · cases hc

theorem inSlots_of_starting {m : Machine Host} (h : starting? mod m = some c) : c.InSlots mod := by
  intro offered slot args hc
  unfold starting? at h
  split at h <;> cases h
  cases hc

/-- The next instruction is a call of the function that is imported at a slot, with these arguments,
and there is room for one more call. -/
def CallsImport (mod : Module) (c : Config Host) (slot : Nat) (args : List Value) : Prop :=
  ∃ index next params frame name type, c.control = .code (.call index next) params frame ∧
    mod.callee? index = some (.imported slot name type) ∧
    args = (frame.stack.take type.params.length).reverse ∧
    depth c.konts < Module.maxDepth

/-- The arguments of a call get to the import as they lie on the stack, the topmost last. -/
theorem CallsImport.reaches {slot : Nat} {args : List Value} (h : c.CallsImport mod slot args) :
    ∃ d, Reaches mod imports c d ∧ d.control = .host mod.offersMemory slot args ∧
      d.machine.memory = c.machine.memory ∧ d.machine.host = c.machine.host := by
  obtain ⟨index, next, params, frame, name, type, hc, hcallee, rfl, hdepth⟩ := h
  obtain ⟨control, konts, m⟩ := c
  obtain rfl : control = .code (.call index next) params frame := hc
  have harity : mod.arity? index = some type.params.length := by
    rw [Module.arity?, hcallee]
    rfl
  let args := (frame.stack.take type.params.length).reverse
  let konts' := .call next params (frame.stack.drop type.params.length) :: konts
  let m' := charge (frame.owed + 1) m
  have hcall : step mod imports ⟨.code (.call index next) params frame, konts, m⟩ =
      some ⟨.call index args, konts', m'⟩ := by
    simp only [step, stepCode, harity, args, konts', m']
  have hroom : depth konts' < Module.maxDepth := hdepth
  have hhost : step mod imports ⟨.call index args, konts', m'⟩ =
      some ⟨.host mod.offersMemory slot args, konts', m'⟩ := by
    simp only [step, stepCall, hroom, if_true, hcallee]
  exact ⟨_, .head hcall (.single hhost), rfl, rfl, rfl⟩

end Config

namespace Instance

variable {inst : Instance} {host : Host}

theorem Answers.inSlots {requests : List Request} {cs : List (Config Host)}
    (h : Answers inst host requests cs) :
    ∀ c ∈ cs, c.InSlots inst.mod := by
  induction h with
  | nil => simp
  | refused _ _ ih => exact ih
  | ran _ hp _ ih =>
    intro c hc
    rcases List.mem_append.mp hc with hc | hc
    · exact hp.inSlots (Config.inSlots_exported _ _ _ _) c hc
    · exact ih c hc

theorem Runs.inSlots {events : List Event} {cs : List (Config Host)}
    (h : Runs inst host events cs) :
    ∀ c ∈ cs, c.InSlots inst.mod := by
  induction h with
  | nil => simp
  | @operation inst host op rest cs ds h _ ih =>
    -- Module, linker and context are those of before, whatever an operation does.
    obtain ⟨memory, counter, hkept⟩ := answerAll_fst inst host (op.requests inst)
    rw [← perform_snd] at hkept
    rw [hkept] at ih
    intro c hc
    rcases List.mem_append.mp hc with hc | hc
    · exact h.inSlots c hc
    · exact ih c hc
  | elsewhere _ ih => exact ih

end Instance

namespace Plan

/-- The functions behind the slots are those that names were bound to, and they have the types of
the slots. -/
theorem exists_imports_eq {plan : Plan} {mod : Module} {linker : Linker}
    (hl : plan.link mod = .ok linker) {slot : Nat} {name : ImportName} {type : FuncType}
    (hi : mod.functionImports[slot]? = some (name, type)) :
    ∃ f, plan.bindings.get? name = some f ∧ Signature.ofFuncType type = .ok f.signature ∧
      ∀ context, linker.imports mod context slot = f.call context := by
  obtain ⟨i, himport, he⟩ := List.mem_filterMap.mp (List.mem_of_getElem? hi)
  obtain ⟨rfl, htype⟩ : i.name = name ∧ i.type = .func type := by
    split at he
    · rename_i htype
      cases he
      exact ⟨rfl, htype⟩
    · cases he
  obtain ⟨type', f, htype', hb, hs⟩ := (link_eq_ok_iff_satisfied plan mod).mp ⟨linker, hl⟩ i himport
  cases htype.symm.trans htype'
  have hdefined : linker.definitions.get? i.name = some f := by
    rw [get?_of_link hl, if_pos (List.mem_map_of_mem himport), hb]
  refine ⟨f, hb, hs, fun context => ?_⟩
  funext args memory host
  simp only [Linker.imports, hi, Option.bind_some, hdefined]

/-- A moment in which code of an instance is run: in its start function when it is built, or in what
happens later. -/
inductive Moment (plan : Plan) (engine : Engine) (files : Files) (host host' : Host)
    (inst : Instance) :
    Config Host → Prop
  | start {c : Config Host} (h : plan.Passes engine files host c) :
      Moment plan engine files host host' inst c
  | later {events : List Event} {cs : List (Config Host)} {c : Config Host}
      (h : inst.Runs host' events cs) (hc : c ∈ cs) : Moment plan engine files host host' inst c

end Plan

/-- If a host function is called next, it is the one that was offered last under the name of the
slot, and of the type of the slot. It is run on just the arguments of the call, and the guest goes
on with what it replies. -/
def Config.Dispatched (settings : List PlanSetting) (inst : Instance) (c : Config Host) : Prop :=
  ∀ offered slot args, c.control = .host offered slot args →
    ∃ name type f reply, inst.mod.functionImports[slot]? = some (name, type) ∧
      lastOffer settings name = some f ∧
      Signature.ofFuncType type = .ok f.signature ∧
      f.Replies inst.context args
        (if offered then some c.machine.memory else none) c.machine.host reply ∧
      c.step inst.mod inst.imports = some (c.resume offered reply)

namespace Plan

section

variable {plan : Plan} {engine : Engine} {files : Files} {host host' : Host} {inst : Instance}
  {settings : List PlanSetting}

theorem source_setAll (plan : Plan) (settings : List PlanSetting) :
    (plan.setAll settings).source = plan.source := by
  induction settings generalizing plan with
  | nil => rfl
  | cons s rest ih =>
    have hstep : plan.setAll (s :: rest) = (plan.set s).setAll rest := rfl
    rw [hstep, ih]
    cases s <;> rfl

theorem exists_contents_of_load {loaded : Loaded} (h : plan.load files = .ok loaded) :
    ∃ bytes, plan.source.contents files = .ok bytes ∧ loaded = .ofBytes bytes := by
  rw [load, Source.load_eq] at h
  cases hc : plan.source.contents files with
  | error e =>
    rw [hc] at h
    cases h
  | ok bytes =>
    rw [hc] at h
    refine ⟨bytes, rfl, ?_⟩
    simp only [Except.map] at h
    split at h
    · exact (Except.ok.inj h).symm
    · split at h <;> cases h
      rfl

theorem Moment.inSlots (hb : plan.build engine files host = (.ok inst, host')) {c : Config Host}
    (h : plan.Moment engine files host host' inst c) : c.InSlots inst.mod := by
  cases h with
  | start h =>
    obtain ⟨hp, h₀, hr⟩ := h
    rw [build, hp] at hb
    obtain ⟨rfl, rfl⟩ := instantiate_eq_ok hb
    exact Config.inSlots_of_reaches (Config.inSlots_of_starting h₀) hr
  | later h hc => exact h.inSlots c hc

/-- In an instance of a plan the import slots are served by what was offered last under their
names. -/
theorem exists_offer_of_build {source : Source}
    (hb : ((start source).setAll settings).build engine files host = (.ok inst, host')) {slot : Nat}
    {name : ImportName} {type : FuncType}
    (hi : inst.mod.functionImports[slot]? = some (name, type)) :
    ∃ f, lastOffer settings name = some f ∧ Signature.ofFuncType type = .ok f.signature ∧
      inst.imports slot = f.call inst.context := by
  obtain ⟨f, hf, hs, himports⟩ := exists_imports_eq (build_eq_ok hb) hi
  exact ⟨f, (get?_bindings_setAll source settings name).symm.trans hf, hs, himports inst.context⟩

theorem dispatched_of_inSlots {source : Source}
    (hb : ((start source).setAll settings).build engine files host = (.ok inst, host'))
    {c : Config Host} (h : c.InSlots inst.mod) : c.Dispatched settings inst := by
  intro offered slot args hc
  obtain ⟨⟨name, type⟩, hi⟩ := h offered slot args hc
  obtain ⟨f, hf, hs, himports⟩ := exists_offer_of_build hb hi
  refine ⟨name, type, f, _, hi, hf, hs, f.call_replies inst.context args _ c.machine.host, ?_⟩
  rw [Config.step_host hc, himports]

/-- Settings come to the same when they agree on all but imports, and on what is offered under
imported names. -/
theorem build_setAll_congr {source : Source} {settings' : List PlanSetting}
    (hothers : settings.filter PlanSetting.isOther = settings'.filter PlanSetting.isOther)
    (hoffers : ∀ bytes mod, source.contents files = .ok bytes → engine.compile bytes = .ok mod →
      ∀ i ∈ mod.imports,
      ((offersOf settings).filter fun offer => offer.1 = i.name) =
        (offersOf settings').filter fun offer => offer.1 = i.name) (host : Host) :
    ((start source).setAll settings').build engine files host =
      ((start source).setAll settings).build engine files host := by
  have hunbound : ((start source).setAll settings).unbound =
    ((start source).setAll settings').unbound := by
    rw [unbound_setAll, hothers, ← unbound_setAll]
  rw [eq_of_unbound_eq hunbound]
  apply build_congr
  intro loaded mod hload hcompile i hi
  obtain ⟨bytes, hc, rfl⟩ := exists_contents_of_load hload
  rw [source_setAll] at hc
  have hm : engine.compile bytes = .ok mod := by
    rw [compile, Loaded.ofBytes] at hcompile
    cases hm : engine.compile bytes with
    | error message => simp [hm] at hcompile
    | ok mod' => simpa [hm] using hcompile
  rw [get?_bindings_setAll, get?_bindings_setAll]
  exact (lastOffer_congr (hoffers bytes mod hc hm i hi)).symm

end

/-- Which host functions a module gets to call. In an instance each import slot is served by the
function that was offered last under the name of the slot: a call runs that function, and no other,
on the operands from the stack, whenever it is made. What is offered under other names does not
matter to a name, nor do names that no import has. -/
theorem import_dispatch (source : Source) (settings : List PlanSetting) (engine : Engine)
    (files : Files) (host : Host) :
    let plan := (start source).setAll settings
    (∀ inst host', plan.build engine files host = (.ok inst, host') →
      (∀ slot name type, inst.mod.functionImports[slot]? = some (name, type) →
        ∃ f, lastOffer settings name = some f ∧ Signature.ofFuncType type = .ok f.signature ∧
          inst.imports slot = f.call inst.context ∧
          ∀ args memory host, f.Replies inst.context args memory host
            (inst.imports slot args memory host)) ∧
      (∀ slot slot' name type type', inst.mod.functionImports[slot]? = some (name, type) →
        inst.mod.functionImports[slot']? = some (name, type') →
          inst.imports slot = inst.imports slot') ∧
      (∀ c, plan.Moment engine files host host' inst c → c.Dispatched settings inst) ∧
      (∀ c slot args, c.CallsImport inst.mod slot args →
        ∃ d, Config.Reaches inst.mod inst.imports c d ∧
          d.control = .host inst.mod.offersMemory slot args ∧
          d.machine.memory = c.machine.memory ∧ d.machine.host = c.machine.host ∧
          d.Dispatched settings inst) ∧
      (∀ c d : Config Host, c.step inst.mod inst.imports = some d →
        d.machine.host = c.machine.host ∨
        ∃ offered slot args, c.control = .host offered slot args)) ∧
    (∀ before s after name f, settings = before ++ s :: after →
      s.offers.reverse.lookup name = some f →
      (∀ offer ∈ offersOf after, offer.1 ≠ name) → lastOffer settings name = some f) ∧
    (∀ settings', settings.filter PlanSetting.isOther = settings'.filter PlanSetting.isOther →
      (∀ bytes mod, source.contents files = .ok bytes → engine.compile bytes = .ok mod →
        ∀ i ∈ mod.imports,
        ((offersOf settings).filter fun offer => offer.1 = i.name) =
          (offersOf settings').filter fun offer => offer.1 = i.name) →
      ((start source).setAll settings').build engine files host =
        plan.build engine files host) := by
  intro plan
  refine ⟨fun inst host' hb => ⟨?_, ?_, ?_, ?_, ?_⟩, ?_,
    fun settings' hothers hoffers => build_setAll_congr hothers hoffers host⟩
  · intro slot name type hi
    obtain ⟨f, hf, hs, himports⟩ := exists_offer_of_build hb hi
    refine ⟨f, hf, hs, himports, fun args memory host => ?_⟩
    rw [himports]
    exact f.call_replies inst.context args memory host
  · intro slot slot' name type type' hi hi'
    obtain ⟨f, hf, _, himports⟩ := exists_offer_of_build hb hi
    obtain ⟨f', hf', _, himports'⟩ := exists_offer_of_build hb hi'
    rw [himports, himports', Option.some.inj (hf.symm.trans hf')]
  · intro c hc
    exact dispatched_of_inSlots hb (hc.inSlots hb)
  · intro c slot args hc
    obtain ⟨d, hd, hcontrol, hmemory, hhost⟩ := hc.reaches
    obtain ⟨index, next, params, frame, name, type, _, hcallee, _⟩ := hc
    obtain ⟨hi, rfl⟩ := Module.callee?_eq_imported_iff.mp hcallee
    refine ⟨d, hd, hcontrol, hmemory, hhost, dispatched_of_inSlots hb ?_⟩
    intro offered slot' args' hd'
    cases hcontrol.symm.trans hd'
    exact ⟨_, hi⟩
  · intro c d h
    cases hc : c.control with
    | host offered slot args => exact .inr ⟨offered, slot, args, rfl⟩
    | _ =>
      left
      rw [Config.host_of_step h, Config.reply?, hc]
      rfl
  · intro before s after name f hsettings hs hafter
    rw [hsettings]
    exact lastOffer_of_split hs hafter

/-- A function of the same signature as `takesInt32` that fails whenever it is called. -/
def refusesInt32 : HostFunc where
  signature := ⟨[.i32], []⟩
  run _ := HostM.fail "refused"

/-- A module with two imports of one name that calls both when it starts. -/
def twice : Module where
  imports := List.replicate 2 ⟨⟨"env", "f"⟩, .func ⟨[.number .i32], []⟩⟩
  functions := [⟨⟨[], []⟩, .op (.const (.i32 7)) (.call 0 (.op (.const (.i32 8)) (.call 1 .done)))⟩]
  start := some 2

theorem import_dispatch_twice :
    let engine : Engine := ⟨true, fun _ => .ok twice⟩
    let refusals : HostTable :=
      HostTable.empty.insertAll [(⟨"env", "f"⟩, refusesInt32), (⟨"env", "g"⟩, refusesInt32)]
    let settings : List PlanSetting := [.offerTable refusals, .offer ⟨"env", "f"⟩ takesInt32]
    let settings' : List PlanSetting :=
      [.offer ⟨"env", "f"⟩ refusesInt32, .offer ⟨"env", "f"⟩ takesInt32]
    ∃ inst host, ((start (.bytes [])).setAll settings).build engine Launch.noFiles .still =
      (.ok inst, host) ∧
      ((start (.bytes [])).setAll settings').build engine Launch.noFiles .still = (.ok inst, host) ∧
      inst.imports 0 = takesInt32.call inst.context ∧ inst.imports 1 = inst.imports 0 ∧
      ∀ args memory host, takesInt32.Replies inst.context args memory host
        (inst.imports 1 args memory host) := by
  intro engine refusals settings settings'
  have hbuild : ∃ inst host,
      ((start (.bytes [])).setAll settings).build engine Launch.noFiles .still = (.ok inst, host) ∧
      inst.mod = twice :=
    ⟨_, _, rfl, rfl⟩
  obtain ⟨inst, host, hb, hmod⟩ := hbuild
  obtain ⟨hinst, _, hsame⟩ := import_dispatch (.bytes []) settings engine Launch.noFiles .still
  obtain ⟨hoffer, hslots, _⟩ := hinst inst host hb
  have hfirst : inst.mod.functionImports[0]? = some (⟨"env", "f"⟩, ⟨[.number .i32], []⟩) := by
    rw [hmod]
    rfl
  have hsecond : inst.mod.functionImports[1]? = some (⟨"env", "f"⟩, ⟨[.number .i32], []⟩) := by
    rw [hmod]
    rfl
  obtain ⟨f, hf, _, himports, hreplies⟩ := hoffer 0 _ _ hfirst
  have hboth : inst.imports 1 = inst.imports 0 := hslots 1 0 _ _ _ hsecond hfirst
  have hlast : lastOffer settings ⟨"env", "f"⟩ = some takesInt32 := rfl
  obtain rfl : f = takesInt32 := Option.some.inj (hf.symm.trans hlast)
  refine ⟨inst, host, hb, ?_, himports, hboth, hboth ▸ hreplies⟩
  rw [hsame settings' rfl, hb]
  intro bytes mod _ hm i hi
  obtain rfl : twice = mod := Except.ok.inj hm
  obtain rfl := List.eq_of_mem_replicate hi
  rfl

end Plan

end WasmHost

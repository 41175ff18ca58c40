import WasmHost.Proofs.Sending
import WasmHost.Session

namespace WasmHost

/-- One typed call that is asked of an instance. -/
structure Request where
  func : ExportedFunction
  args : Arguments
  results : Shape

/-- The calls that an operation asks for, once it has found its function. -/
def Operation.requests (inst : Instance) : Operation → List Request
  | .invoke name args results =>
    match inst.find name with
    | .ok f => [⟨f, args, results⟩]
    | .error _ => []
  | .invokeAll name calls =>
    match inst.find name with
    | .ok f => calls.map fun call => ⟨f, call.1, call.2⟩
    | .error _ => []
  | _ => []

/-- What can happen to an instance and its host: an operation on it, or something that others do to
the host. -/
inductive Event
  | operation (op : Operation)
  | elsewhere (change : Host → Host)

/-- What others do leaves the buffer of a name as it is. -/
def Event.Spares (name : String) : Event → Prop
  | .operation _ => True
  | .elsewhere change => ∀ host, (change host).streams.contents name = host.streams.contents name

namespace Instance

/-- The instance and the host after requests were answered one after the other. -/
def answerAll (inst : Instance) (host : Host) (requests : List Request)
    (runner : Runner Host := .machine) :
    Instance × Host :=
  match requests with
  | [] => (inst, host)
  | r :: rest =>
    let (_, inst, host) := inst.invoke host r.func r.args r.results runner
    inst.answerAll host rest runner

/-- What the guest's code passes through while requests are answered; a refused one runs none of
it. -/
inductive Answers : Instance → Host → List Request → List (Config Host) → Prop
  | nil (inst : Instance) (host : Host) : Answers inst host [] []
  | refused {inst : Instance} {host : Host} {r : Request} {rest : List Request}
      {cs : List (Config Host)} (h : inst.signature r.func ≠ .ok ⟨r.args.kinds, r.results.kinds⟩)
      (hr : Answers inst host rest cs) :
    Answers inst host (r :: rest) cs
  | ran {inst : Instance} {host : Host} {r : Request} {rest : List Request}
    {cs ds : List (Config Host)} {result : Except Stop (List Value)} {m : Machine Host}
    (h : inst.signature r.func = .ok ⟨r.args.kinds, r.results.kinds⟩)
    (hp : Config.Path inst.mod inst.imports
      (Config.exported inst.mod r.func.index r.args.toValues ⟨inst.memory, inst.counter, host⟩) cs
      (.halt result m))
    (hr : Answers (inst.left m) m.host rest ds) : Answers inst host (r :: rest) (cs ++ ds)

/-- The instance and the host after all that happened. -/
def after (inst : Instance) (host : Host) (events : List Event) (runner : Runner Host := .machine) :
    Instance × Host :=
  match events with
  | [] => (inst, host)
  | .operation op :: rest =>
    let (_, inst, host) := inst.perform host op runner
    inst.after host rest runner
  | .elsewhere change :: rest => inst.after (change host) rest runner

/-- What the guest's code passes through in all that happens. -/
inductive Runs : Instance → Host → List Event → List (Config Host) → Prop
  | nil (inst : Instance) (host : Host) : Runs inst host [] []
  | operation {inst : Instance} {host : Host} {op : Operation} {rest : List Event}
      {cs ds : List (Config Host)} (h : Answers inst host (op.requests inst) cs)
      (hr : Runs (inst.perform host op).2.1 (inst.perform host op).2.2 rest ds) :
    Runs inst host (.operation op :: rest) (cs ++ ds)
  | elsewhere {inst : Instance} {host : Host} {change : Host → Host} {rest : List Event}
      {cs : List (Config Host)} (hr : Runs inst (change host) rest cs) :
      Runs inst host (.elsewhere change :: rest) cs

variable {inst : Instance} {host : Host}

theorem exists_answers (inst : Instance) (host : Host) (requests : List Request) :
    ∃ cs, Answers inst host requests cs := by
  induction requests generalizing inst host with
  | nil => exact ⟨[], .nil inst host⟩
  | cons r rest ih =>
    by_cases h : inst.signature r.func = .ok ⟨r.args.kinds, r.results.kinds⟩
    · obtain ⟨result, m, hp, _⟩ := exists_halt inst host r.func r.args.toValues
      have hpath : ∃ cs, Config.Path inst.mod inst.imports
          (Config.exported inst.mod r.func.index r.args.toValues ⟨inst.memory, inst.counter, host⟩)
          cs (.halt result m) := Config.exists_path_of_reaches hp
      obtain ⟨cs, hpath⟩ := hpath
      obtain ⟨ds, hds⟩ := ih (inst.left m) m.host
      exact ⟨cs ++ ds, .ran h hpath hds⟩
    · obtain ⟨cs, hcs⟩ := ih inst host
      exact ⟨cs, .refused h hcs⟩

/-- A request leaves an instance as it was but for memory and fuel. -/
theorem answerAll_fst (inst : Instance) (host : Host) (requests : List Request) :
    ∃ memory counter, (inst.answerAll host requests).1 = { inst with memory, counter } := by
  induction requests generalizing inst host with
  | nil => exact ⟨inst.memory, inst.counter, rfl⟩
  | cons r rest ih =>
    by_cases h : inst.signature r.func = .ok ⟨r.args.kinds, r.results.kinds⟩
    · obtain ⟨result, m, _, hinvoke⟩ := invoke_of_signature_eq inst host r.func r.args r.results h
      simp only [answerAll, hinvoke]
      exact ih (inst.left m) m.host
    · simp only [answerAll, invoke_of_signature_ne inst host r.func r.args r.results h]
      exact ih inst host

theorem invokeAll_snd (f : ExportedFunction) (inst : Instance) (host : Host)
    (calls : List (Arguments × Shape)) (runner : Runner Host) :
    (invokeAll f inst host calls runner).2 =
      inst.answerAll host (calls.map fun call => ⟨f, call.1, call.2⟩) runner := by
  induction calls generalizing inst host with
  | nil => rfl
  | cons call rest ih => exact ih _ _

/-- An operation does to an instance and its host what the calls do that it asks for. -/
theorem perform_snd (inst : Instance) (host : Host) (op : Operation) (runner : Runner Host) :
    (inst.perform host op runner).2 = inst.answerAll host (op.requests inst) runner := by
  cases op with
  | invoke name args results =>
    simp only [perform, Operation.requests]
    cases inst.find name <;> rfl
  | invokeAll name calls =>
    simp only [perform, Operation.requests]
    cases inst.find name with
    | error e => rfl
    | ok f => exact invokeAll_snd f inst host calls runner
  | signature name =>
    simp only [perform, Operation.requests]
    cases inst.find name <;> rfl
  | _ => rfl

theorem answerAll_append (inst : Instance) (host : Host) (requests more : List Request)
    (runner : Runner Host) :
    inst.answerAll host (requests ++ more) runner =
      (inst.answerAll host requests runner).1.answerAll
        (inst.answerAll host requests runner).2 more runner := by
  induction requests generalizing inst host with
  | nil => rfl
  | cons r rest ih => exact ih _ _

/-- Requests that are all refused leave everything as it was. -/
theorem answerAll_of_refused {requests : List Request} {runner : Runner Host}
    (h : ∀ r ∈ requests, inst.signature r.func ≠ .ok ⟨r.args.kinds, r.results.kinds⟩) :
    inst.answerAll host requests runner = (inst, host) := by
  induction requests with
  | nil => rfl
  | cons r rest ih =>
    rw [List.forall_mem_cons] at h
    simp only [answerAll, invoke_of_signature_ne inst host r.func r.args r.results h.1 runner]
    exact ih h.2

theorem after_append (inst : Instance) (host : Host) (events more : List Event)
    (runner : Runner Host) :
    inst.after host (events ++ more) runner =
      (inst.after host events runner).1.after (inst.after host events runner).2 more runner := by
  induction events generalizing inst host with
  | nil => rfl
  | cons event rest ih =>
    cases event with
    | operation op => exact ih _ _
    | elsewhere change => exact ih inst (change host)

/-- An operation that comes next does what its requests do to what there is. -/
theorem after_operation {i : Instance} {h : Host} {events : List Event} {runner : Runner Host}
    (hevents : inst.after host events runner = (i, h)) (op : Operation) :
    inst.after host (events ++ [.operation op]) runner = i.answerAll h (op.requests i) runner := by
  rw [after_append, hevents]
  exact perform_snd i h op runner

theorem exists_runs (inst : Instance) (host : Host) (events : List Event) :
    ∃ cs, Runs inst host events cs := by
  induction events generalizing inst host with
  | nil => exact ⟨[], .nil inst host⟩
  | cons event rest ih =>
    cases event with
    | operation op =>
      obtain ⟨cs, hcs⟩ := exists_answers inst host (op.requests inst)
      obtain ⟨ds, hds⟩ := ih (inst.perform host op).2.1 (inst.perform host op).2.2
      exact ⟨cs ++ ds, .operation hcs hds⟩
    | elsewhere change =>
      obtain ⟨cs, hcs⟩ := ih inst (change host)
      exact ⟨cs, .elsewhere hcs⟩

theorem Answers.logged {requests : List Request} {cs : List (Config Host)}
    (h : Answers inst host requests cs) (hl : inst.linker.Wired inst.mod) (name : String) :
    Config.Logged inst.mod inst.context name (host.streams.contents name) cs
      ((inst.answerAll host requests).2.streams.contents name) := by
  induction h with
  | nil inst host => exact .nil inst.mod inst.context name _
  | @refused inst host r rest cs h _ ih =>
    simp only [answerAll, invoke_of_signature_ne inst host r.func r.args r.results h]
    exact ih hl
  | @ran inst host r rest cs ds result m h hp _ ih =>
    -- Runs are determined, so the end of this path is the one that the call reports.
    obtain ⟨result', m', hp', hinvoke⟩ := invoke_of_signature_eq inst host r.func r.args r.results h
    obtain ⟨rfl, rfl⟩ := Config.halt_unique hp.reaches hp'
    simp only [answerAll, hinvoke]
    have hlogged := hp.logged hl name
    rw [Config.machine_exported] at hlogged
    exact hlogged.append (ih hl)

theorem Runs.logged {events : List Event} {cs : List (Config Host)} (h : Runs inst host events cs)
    (hl : inst.linker.Wired inst.mod) {name : String} (hs : ∀ event ∈ events, event.Spares name) :
    Config.Logged inst.mod inst.context name (host.streams.contents name) cs
      ((inst.after host events).2.streams.contents name) := by
  induction h with
  | nil inst host => exact .nil inst.mod inst.context name _
  | @operation inst host op rest cs ds h _ ih =>
    have hfirst := h.logged hl name
    -- Module, linker and context are those of before, so what was linked is still linked.
    obtain ⟨memory, counter, hkept⟩ := answerAll_fst inst host (op.requests inst)
    rw [List.forall_mem_cons] at hs
    rw [← perform_snd] at hfirst hkept
    rw [hkept] at ih
    have hrest := ih hl hs.2
    simp only [after]
    rw [hkept]
    exact hfirst.append hrest
  | @elsewhere inst host change rest cs _ ih =>
    rw [List.forall_mem_cons] at hs
    have hrest := ih hl hs.2
    have hspared : (change host).streams.contents name = host.streams.contents name := hs.1 host
    rw [hspared] at hrest
    exact hrest

end Instance

namespace Plan

/-- What the start function passes through when a plan is carried out. Without one, or with segments
that do not fit, no code is run. -/
inductive Starts (plan : Plan) (mod : Module) (linker : Linker) (host : Host) :
    List (Config Host) → Prop
  | none (h : Config.starting? mod (plan.machineAt mod host) = none) :
      Starts plan mod linker host []
  | some {c : Config Host} {cs : List (Config Host)} {result : Except Stop (List Value)}
      {m : Machine Host} (h : Config.starting? mod (plan.machineAt mod host) = some c)
      (hp : Config.Path mod (linker.imports mod (plan.contextAt host)) c cs (.halt result m)) :
    Starts plan mod linker host cs

variable {plan : Plan} {mod : Module} {linker : Linker} {host : Host}

theorem exists_starts (plan : Plan) (mod : Module) (linker : Linker) (host : Host) :
    ∃ cs, plan.Starts mod linker host cs := by
  cases h : Config.starting? mod (plan.machineAt mod host) with
  | none => exact ⟨[], .none h⟩
  | some c =>
    obtain ⟨result, m, hr, _⟩ :=
      Config.exists_halt_starting (linker.imports mod (plan.contextAt host)) h
    have hpath : ∃ cs, Config.Path mod (linker.imports mod (plan.contextAt host)) c cs
      (.halt result m) :=
      Config.exists_path_of_reaches hr
    obtain ⟨cs, hcs⟩ := hpath
    exact ⟨cs, .some h hcs⟩

theorem instantiate_snd (plan : Plan) (mod : Module) (linker : Linker) (host : Host) :
    (plan.instantiate mod linker host).2 =
      (Config.leaves ((mod.instantiate (linker.imports mod (plan.contextAt host))).run
        (plan.machineAt mod host))).host := by
  rw [instantiate_eq]
  cases (mod.instantiate (linker.imports mod (plan.contextAt host))).run
    (plan.machineAt mod host) <;> rfl

theorem instantiate_context {host' : Host} {inst : Instance} {runner : Runner Host}
    (h : plan.instantiate mod linker host runner = (.ok inst, host')) :
    inst.context = plan.contextAt host := by
  rw [instantiate_on_eq] at h
  split at h
  · cases h
    rfl
  · cases h

/-- An instance that was built came out of the preparation of its module and the instantiation of
it. -/
theorem prepare_and_instantiate_of_build {engine : Engine} {files : Files} {host' : Host}
    {inst : Instance} {runner : Runner Host}
    (hb : plan.build engine files host runner = (.ok inst, host')) :
    plan.prepare engine files = .ok (inst.mod, inst.linker) ∧
      plan.instantiate inst.mod inst.linker host runner = (.ok inst, host') := by
  unfold build at hb
  split at hb
  · cases hb
  · rename_i mod linker hp
    obtain ⟨rfl, rfl⟩ := instantiate_eq_ok hb
    exact ⟨hp, hb⟩

theorem imports_of_build {engine : Engine} {files : Files} {host' : Host} {inst : Instance}
    {runner : Runner Host} (hb : plan.build engine files host runner = (.ok inst, host')) :
    inst.imports = inst.linker.imports inst.mod (plan.contextAt host) := by
  obtain ⟨_, hi⟩ := prepare_and_instantiate_of_build hb
  rw [Instance.imports, instantiate_context hi]

theorem Starts.logged {cs : List (Config Host)} (h : plan.Starts mod linker host cs)
    (hl : linker.Wired mod) (name : String) :
    Config.Logged mod (plan.contextAt host) name (host.streams.contents name) cs
      ((plan.instantiate mod linker host).2.streams.contents name) := by
  cases h with
  | none h =>
    have hhost := Config.host_instantiate (linker.imports mod (plan.contextAt host)) h
    rw [instantiate_snd, hhost]
    exact .nil mod _ name _
  | @some c cs result m h hp =>
    obtain ⟨result', m', hr, hrun⟩ :=
      Config.exists_halt_starting (linker.imports mod (plan.contextAt host)) h
    obtain ⟨rfl, rfl⟩ := Config.halt_unique hp.reaches hr
    have hend : (plan.instantiate mod linker host).2 = m.host := by
      rw [instantiate_snd, hrun]
      cases result <;> rfl
    have hlogged := hp.logged hl name
    rw [Config.host_of_starting h] at hlogged
    rw [hend]
    exact hlogged

/-- The buffer of a name holds what it held before, and behind it the gathered bytes of just those
calls that write output to a descriptor routed to it and find all that their records name, in the
order of the calls. That is so at each moment of the start function and of all that is done with the
instance afterwards, however a call ends, and at the end. -/
theorem capture_log {plan : Plan} {engine : Engine} {files : Files} {host : Host} {mod : Module}
    {linker : Linker} (hp : plan.prepare engine files = .ok (mod, linker))
    (hb : plan.bindings.SendsAsWasi) (name : String) :
    let context := plan.contextAt host
    let before := host.streams.contents name
    (∃ cs, plan.Starts mod linker host cs) ∧ ∀ cs, plan.Starts mod linker host cs →
      Config.Logged mod context name before cs
        ((plan.build engine files host).2.streams.contents name) ∧
      ∀ inst host', plan.build engine files host = (.ok inst, host') →
        ∀ events : List Event, (∀ event ∈ events, event.Spares name) →
          (∃ ds, inst.Runs host' events ds) ∧ ∀ ds, inst.Runs host' events ds →
            Config.Logged mod context name before (cs ++ ds)
              ((inst.after host' events).2.streams.contents name) ∧
            ∀ i j (_ : i ≤ j) (_ : j < (cs ++ ds).length),
              (cs ++ ds)[i].machine.host.streams.contents name <+:
                (cs ++ ds)[j].machine.host.streams.contents name := by
  intro context before
  have hl : linker.Wired mod := wired hb (prepare_eq_ok hp)
  have hbuild : plan.build engine files host = plan.instantiate mod linker host := by
    rw [build, hp]
  rw [hbuild]
  refine ⟨exists_starts plan mod linker host, ?_⟩
  intro cs hcs
  have hstart := hcs.logged hl name
  refine ⟨hstart, ?_⟩
  intro inst host' hinst events hs
  obtain ⟨rfl, rfl⟩ := instantiate_eq_ok hinst
  refine ⟨Instance.exists_runs inst host' events, ?_⟩
  intro ds hds
  have hrest := hds.logged hl hs
  rw [instantiate_context hinst] at hrest
  rw [hinst] at hstart
  have hall := hstart.append hrest
  exact ⟨hall, fun i j hij hj => hall.grows hij hj⟩

/-- A function without parameters that writes what the record at 0 names to a descriptor. -/
def greet (fd : UInt32) (rest : Code) : Function where
  type := ⟨[], []⟩
  body :=
    .op (.const (.i32 fd)) (.op (.const (.i32 0))
      (.op (.const (.i32 1)) (.op (.const (.i32 0xffffffff)) (.call 0 rest))))

/-- A module that writes a greeting when it starts, and another before it traps. The count has no
place in memory. -/
def greeter : Module where
  imports := [⟨Wasi.writeName,
    .func ⟨[.number .i32, .number .i32, .number .i32, .number .i32], [.number .i32]⟩⟩]
  functions := [greet 1 (.op .drop .done), greet 2 .unreachable]
  exports := [("memory", .memory), ("main", .func 2)]
  memory := some { pages := 1 }
  segments := [⟨0, [16, 0, 0, 0, 2, 0, 0, 0]⟩, ⟨16, [104, 105]⟩]
  start := some 1

/-- What the greeter is linked to. -/
def greetingLinker : Linker := ⟨⟨[(Wasi.writeName, Wasi.writeFunc)], by decide⟩, [Wasi.writeName]⟩

/-- Both output streams go to one buffer. -/
def greeting : Plan where
  source := .bytes []
  bindings := Wasi.table
  context := { stdout := .capture "log", stderr := .capture "log" }

theorem capture_log_greeting :
    ∃ inst host, greeting.build ⟨true, fun _ => .ok greeter⟩ Launch.noFiles .still =
      (.ok inst, host) ∧
      (inst.after host [.operation (.invoke "main" ⟨.unit, ()⟩ .unit)]).2.streams.contents "log" =
        [104, 105, 104, 105] := by
  have hp : greeting.prepare ⟨true, fun _ => .ok greeter⟩ Launch.noFiles =
    .ok (greeter, greetingLinker) := rfl
  have hb : greeting.bindings.SendsAsWasi := fun _ _ h => .inl h
  have hstart : ∃ cs, greeting.Starts greeter greetingLinker .still cs ∧
      Config.log greeter (greeting.contextAt .still) "log" cs = [104, 105] := by
    refine ⟨_, .some rfl (.cons rfl
      (.cons rfl (.cons rfl (.cons rfl (.cons rfl (.cons rfl (.cons rfl (.cons rfl
      (.cons rfl (.cons rfl (.cons rfl (.cons rfl (.cons rfl (.nil _)))))))))))))), ?_⟩
    rfl
  have hmain : ∃ inst host ds,
      greeting.build ⟨true, fun _ => .ok greeter⟩ Launch.noFiles .still = (.ok inst, host) ∧
      inst.Runs host [.operation (.invoke "main" ⟨.unit, ()⟩ .unit)] ds ∧
      Config.log greeter (greeting.contextAt .still) "log" ds = [104, 105] := by
    refine ⟨_, _, _, rfl,
      .operation (.ran rfl (.cons rfl (.cons rfl (.cons rfl (.cons rfl (.cons rfl (.cons rfl
      (.cons rfl (.cons rfl (.cons rfl (.cons rfl (.nil _))))))))))) (.nil _ _)) (.nil _ _), ?_⟩
    rfl
  obtain ⟨cs, hcs, hfirst⟩ := hstart
  obtain ⟨inst, host, ds, hbuild, hds, hsecond⟩ := hmain
  obtain ⟨_, hall⟩ := capture_log hp hb "log"
  obtain ⟨_, hops⟩ := hall cs hcs
  obtain ⟨_, hruns⟩ :=
    hops inst host hbuild [.operation (.invoke "main" ⟨.unit, ()⟩ .unit)] (by simp [Event.Spares])
  obtain ⟨hlogged, _⟩ := hruns ds hds
  have h := hlogged.final
  rw [Config.log_append, hfirst, hsecond] at h
  exact ⟨inst, host, hbuild, h⟩

end Plan

end WasmHost

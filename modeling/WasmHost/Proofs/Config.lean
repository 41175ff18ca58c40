import Mathlib.Logic.Relation
import WasmHost.Machine

namespace WasmHost

/-- What is left to do around a piece of code: the code after a condition, the end of the function
it stands in, or the code after a call with the operands that the call left. -/
inductive Kont
  | body (next : Code) (params : List Value)
  | function (f : Function)
  | call (next : Code) (params stack : List Value)

/-- What a run is about to do. -/
inductive Control
  | code (code : Code) (params : List Value) (frame : Frame)
  | leave (returned : Bool) (frame : Frame)
  | call (index : Nat) (args : List Value)
  | host (offered : Bool) (slot : Nat) (args : List Value)
  | back (values : List Value)
  | halted (result : Except Stop (List Value))

/-- A moment of a run: what comes next, what is left to do after it, and the machine. -/
structure Config (σ : Type) where
  control : Control
  konts : List Kont
  machine : Machine σ

namespace Config

variable {σ : Type}

/-- The end of a run. Whatever was left to do is given up. -/
def halt (result : Except Stop (List Value)) (m : Machine σ) : Config σ := ⟨.halted result, [], m⟩

/-- Goes on after a part that did not stop. -/
def after {α : Type} (r : EStateM.Result Stop (Machine σ) α) (next : α → Machine σ → Config σ) :
    Config σ :=
  match r with
  | .ok a m => next a m
  | .error stop m => halt (.error stop) m

/-- How many functions are being run. -/
def depth : List Kont → Nat
  | [] => 0
  | .function _ :: konts => depth konts + 1
  | _ :: konts => depth konts

/-- The machine after owed fuel was taken off. -/
def charge (owed : Nat) (m : Machine σ) : Machine σ := { m with fuel := m.fuel - owed }

/-- The machine after a host function has answered. One that did not see the memory did not change
it. -/
def answered (offered : Bool) (reply : Reply σ) (m : Machine σ) : Machine σ :=
  { m with memory := if offered then reply.memory.getD m.memory else m.memory, host := reply.host }

def stepCode (mod : Module) (params : List Value) (frame : Frame) (konts : List Kont)
    (m : Machine σ) :
    Code → Config σ
  | .done => ⟨.leave false frame, konts, m⟩
  | .op o next => after ((Exec.runOp params o frame).run m) fun frame m =>
    ⟨.code next params frame, konts, m⟩
  | .call f next =>
    match mod.arity? f with
    | none => halt (.error (.trap .illTyped)) (charge (frame.owed + 1) m)
    | some count =>
      ⟨.call f (frame.stack.take count).reverse,
        .call next params (frame.stack.drop count) :: konts,
        charge (frame.owed + 1) m⟩
  | .ifNonzero body next =>
    match frame.stack with
    | .i32 condition :: stack =>
      if condition = 0 then ⟨.code next params ⟨stack, frame.owed + 1⟩, konts, m⟩
      else ⟨.code body params ⟨stack, frame.owed + 1⟩, .body next params :: konts, m⟩
    | _ => halt (.error (.trap .illTyped)) m
  | .ret => ⟨.leave true frame, konts, m⟩
  | .unreachable => halt (.error (.trap .unreachable)) (charge frame.owed m)
  | .spin => halt (.error (.trap .outOfFuel)) { m with fuel := min m.fuel 0 }

/-- A return skips what is left of the bodies around it, up to the end of the function. -/
def stepLeave (returned : Bool) (frame : Frame) (m : Machine σ) : List Kont → Option (Config σ)
  | .body next params :: konts =>
    if returned then some ⟨.leave true frame, konts, m⟩
    else some ⟨.code next params frame, konts, m⟩
  | .function f :: konts =>
    match f.results? frame.stack with
    | some values => some ⟨.back values, konts, charge frame.owed m⟩
    | none => some (halt (.error (.trap .illTyped)) (charge frame.owed m))
  | _ => none

def stepCall (mod : Module) (index : Nat) (args : List Value) (konts : List Kont) (m : Machine σ) :
    Config σ :=
  if depth konts < Module.maxDepth then
    match mod.callee? index with
    | some (.imported slot _ _) => ⟨.host mod.offersMemory slot args, konts, m⟩
    | some (.defined f) =>
      after (Exec.enter.run m) fun _ m => ⟨.code f.body args ⟨[], 1⟩, .function f :: konts, m⟩
    | none => halt (.error (.trap .illTyped)) m
  else halt (.error (.trap .stackOverflow)) m

def stepBack (values : List Value) (m : Machine σ) : List Kont → Option (Config σ)
  | [] => some (halt (.ok values) m)
  | .call next params stack :: konts =>
    some ⟨.code next params ⟨values.reverse ++ stack, 0⟩, konts, m⟩
  | _ => none

/-- The next moment of a run. After the end there is none. -/
def step (mod : Module) (imports : Imports σ) : Config σ → Option (Config σ)
  | ⟨.code code params frame, konts, m⟩ => some (stepCode mod params frame konts m code)
  | ⟨.leave returned frame, konts, m⟩ => stepLeave returned frame m konts
  | ⟨.call index args, konts, m⟩ => some (stepCall mod index args konts m)
  | ⟨.host offered slot args, konts, m⟩ =>
    some (after ((Exec.callImport imports offered slot args).run m) fun values m =>
      ⟨.back values, konts, m⟩)
  | ⟨.back values, konts, m⟩ => stepBack values m konts
  | ⟨.halted _, _, _⟩ => none

/-- A run passes from one configuration to another in any number of steps. -/
abbrev Reaches (mod : Module) (imports : Imports σ) : Config σ → Config σ → Prop :=
  Relation.ReflTransGen fun c d => c.step mod imports = some d

/-- Where a call from outside begins. A function that is only passed on from an import sees no
memory then. -/
def exported (mod : Module) (index : Nat) (args : List Value) (m : Machine σ) : Config σ :=
  match mod.callee? index with
  | some (.imported slot _ _) => ⟨.host false slot args, [], m⟩
  | _ => ⟨.call index args, [], m⟩

/-- Where the start function begins, once tables and memory are filled. Without one, or with a
segment that does not fit, nothing is run. -/
def starting? (mod : Module) (m : Machine σ) : Option (Config σ) :=
  match mod.place m.memory, mod.start with
  | .ok memory, some index => some ⟨.call index [], [], { m with memory }⟩
  | _, _ => none

/-- The answer of the host function that is called next, if one is. -/
def reply? (imports : Imports σ) (c : Config σ) : Option (Reply σ) :=
  match c.control with
  | .host offered slot args =>
    some (imports slot args (if offered then some c.machine.memory else none) c.machine.host)
  | _ => none

/-- The next step is a call of a host function that answers with a request to end. -/
def Raises (imports : Imports σ) (c : Config σ) (signal : ExitSignal) : Prop :=
  ∃ reply stop, c.reply? imports = some reply ∧ reply.result = .error stop ∧
    stop.cause = .exit signal

section

variable {mod : Module} {imports : Imports σ}

@[simp] theorem halt_inj {r r' : Except Stop (List Value)} {m m' : Machine σ} :
    halt r m = halt r' m' ↔ r = r' ∧ m = m' := by
  simp [halt]

theorem eq_halt_of_reaches {result : Except Stop (List Value)} {m : Machine σ} {d : Config σ}
    (h : Reaches mod imports (halt result m) d) : d = halt result m := by
  rcases Relation.ReflTransGen.cases_head h with h | ⟨c, hc, _⟩
  · exact h.symm
  · cases hc

/-- A run that ends passes through all that it reaches on its way to the end. -/
theorem reaches_halt_of_reaches {c d : Config σ} {result : Except Stop (List Value)} {m : Machine σ}
    (hd : Reaches mod imports c d) (hh : Reaches mod imports c (halt result m)) :
    Reaches mod imports d (halt result m) := by
  have hu : Relator.RightUnique fun c d : Config σ => c.step mod imports = some d :=
    fun _ _ _ hb hc => Option.some.inj (hb.symm.trans hc)
  rcases Relation.ReflTransGen.total_of_right_unique hu hd hh with h | h
  · exact h
  · rw [eq_halt_of_reaches h]

theorem halt_unique {c : Config σ} {r r' : Except Stop (List Value)} {m m' : Machine σ}
    (h : Reaches mod imports c (halt r m)) (h' : Reaches mod imports c (halt r' m')) :
    r = r' ∧ m = m' :=
  halt_inj.mp (eq_halt_of_reaches (reaches_halt_of_reaches h' h))

theorem after_eq_halt {α : Type} {r : EStateM.Result Stop (Machine σ) α}
    {next : α → Machine σ → Config σ} {stop : Stop} {m : Machine σ}
    (h : after r next = halt (.error stop) m) (hn : ∀ a m', next a m' ≠ halt (.error stop) m) :
    r = .error stop m := by
  cases r with
  | ok a m' => exact absurd h (hn a m')
  | error stop' m' =>
    obtain ⟨he, rfl⟩ := halt_inj.mp h
    rw [Except.error.inj he]

private theorem runOp_error {params : List Value} {o : Op} {frame : Frame} {m m' : Machine σ}
    {stop : Stop} (h : (Exec.runOp params o frame).run m = .error stop m') :
    ∃ t, stop = .trap t := by
  simp only [Exec.runOp, EStateM.run_bind, EStateM.run_get] at h
  split at h
  · cases h
  · rename_i t _
    refine ⟨t, ?_⟩
    split at h <;> cases h <;> rfl

private theorem enter_error {m m' : Machine σ} {stop : Stop}
    (h : Exec.enter.run m = .error stop m') :
    ∃ t, stop = .trap t := by
  simp only [Exec.enter, EStateM.run_bind, EStateM.run_get] at h
  split at h <;> cases h
  exact ⟨_, rfl⟩

private theorem callImport_error {offered : Bool} {slot : Nat} {args : List Value}
    {m m' : Machine σ} {stop : Stop}
    (h : (Exec.callImport imports offered slot args).run m = .error stop m') :
    (imports slot args (if offered then some m.memory else none) m.host).result = .error stop := by
  simp only [Exec.callImport, EStateM.run_bind, EStateM.run_get, EStateM.run_set] at h
  split at h
  · cases h
  · rename_i he
    cases h
    exact he

private theorem stepCode_origin {params : List Value} {frame : Frame} {konts : List Kont}
    {m m' : Machine σ} {code : Code} {stop : Stop}
    (h : stepCode mod params frame konts m code = halt (.error stop) m') :
    ∃ t, stop = .trap t := by
  cases code with
  | op o next => exact runOp_error (after_eq_halt h fun _ _ => by simp [halt])
  | call f next =>
    simp only [stepCode] at h
    split at h
    · exact ⟨_, (Except.error.inj (halt_inj.mp h).1).symm⟩
    · simp [halt] at h
  | ifNonzero body next =>
    simp only [stepCode] at h
    split at h
    · split at h <;> simp [halt] at h
    · exact ⟨_, (Except.error.inj (halt_inj.mp h).1).symm⟩
  | unreachable => exact ⟨_, (Except.error.inj (halt_inj.mp h).1).symm⟩
  | spin => exact ⟨_, (Except.error.inj (halt_inj.mp h).1).symm⟩
  | done => simp [stepCode, halt] at h
  | ret => simp [stepCode, halt] at h

/-- Only the guest's own code and host functions stop a run; nothing on the way up adds a cause or
hides one. -/
theorem stop_origin {c : Config σ} {stop : Stop} {m : Machine σ}
    (h : c.step mod imports = some (halt (.error stop) m)) :
    (∃ t, stop = .trap t) ∨
      ∃ reply, c.reply? imports = some reply ∧ reply.result = .error stop := by
  obtain ⟨control, konts, m'⟩ := c
  cases control with
  | code code params frame =>
    left
    exact stepCode_origin (Option.some.inj h)
  | leave returned frame =>
    left
    rcases konts with _ | ⟨_ | f | _, konts⟩
    · cases h
    · simp only [step, stepLeave] at h
      split at h <;> simp [halt] at h
    · simp only [step, stepLeave] at h
      split at h
      · simp [halt] at h
      · exact ⟨_, (Except.error.inj (halt_inj.mp (Option.some.inj h)).1).symm⟩
    · cases h
  | call index args =>
    left
    simp only [step, stepCall, Option.some.injEq] at h
    split at h
    · split at h
      · simp [halt] at h
      · exact enter_error (after_eq_halt h fun _ _ => by simp [halt])
      · exact ⟨_, (Except.error.inj (halt_inj.mp h).1).symm⟩
    · exact ⟨_, (Except.error.inj (halt_inj.mp h).1).symm⟩
  | host offered slot args =>
    right
    exact ⟨_, rfl, callImport_error (after_eq_halt (Option.some.inj h) fun _ _ => by simp [halt])⟩
  | back values =>
    rcases konts with _ | ⟨_ | _ | _, konts⟩ <;> simp [step, stepBack, halt] at h
  | halted result => cases h

/-- A host function that fails ends the run at once, however much is left to do around the call. -/
theorem step_host_error {offered : Bool} {slot : Nat} {args : List Value} {konts : List Kont}
    {m : Machine σ} {stop : Stop}
    (h : (imports slot args (if offered then some m.memory else none) m.host).result =
        .error stop) :
    step mod imports ⟨.host offered slot args, konts, m⟩ =
      some (halt (.error stop)
        (answered offered (imports slot args (if offered then some m.memory else none) m.host)
          m)) := by
  simp only [step, Exec.callImport, EStateM.run_bind, EStateM.run_get, EStateM.run_set, h]
  rfl

theorem step_of_reply_error {c : Config σ} {reply : Reply σ} {stop : Stop}
    (hr : c.reply? imports = some reply) (he : reply.result = .error stop) :
    ∃ m, c.step mod imports = some (halt (.error stop) m) := by
  obtain ⟨control, konts, m⟩ := c
  cases control with
  | host offered slot args =>
    cases hr
    exact ⟨_, step_host_error he⟩
  | _ => cases hr

/-- A request to end is followed by the end, and by nothing else. -/
theorem Raises.reaches {c : Config σ} {signal : ExitSignal} (h : c.Raises imports signal) :
    ∃ stop m, stop.cause = .exit signal ∧ c.step mod imports = some (halt (.error stop) m) ∧
      ∀ d, Reaches mod imports c d → d = c ∨ d = halt (.error stop) m := by
  obtain ⟨reply, stop, hr, he, hs⟩ := h
  have hstep : ∃ m, c.step mod imports = some (halt (.error stop) m) := step_of_reply_error hr he
  obtain ⟨m, hm⟩ := hstep
  refine ⟨stop, m, hs, hm, ?_⟩
  intro d hd
  rcases Relation.ReflTransGen.cases_head hd with hd | ⟨e, he, hd⟩
  · exact .inl hd.symm
  · obtain rfl := Option.some.inj (hm.symm.trans he)
    exact .inr (eq_halt_of_reaches hd)

/-- A run that ended with a signal passed through a host function that raised it. -/
theorem exists_raises {c : Config σ} {stop : Stop} {m : Machine σ} {signal : ExitSignal}
    (h : Reaches mod imports c (halt (.error stop) m)) (hc : c ≠ halt (.error stop) m)
    (hs : stop.cause = .exit signal) :
    ∃ d, Reaches mod imports c d ∧ d.Raises imports signal := by
  rcases Relation.ReflTransGen.cases_tail h with he | ⟨d, hd, hstep⟩
  · exact absurd he.symm hc
  · rcases stop_origin hstep with ⟨t, rfl⟩ | ⟨reply, hr, he⟩
    · cases hs
    · exact ⟨d, hd, reply, stop, hr, he, hs⟩

end

end Config

end WasmHost

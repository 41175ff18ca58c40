import WasmHost.Proofs.Execution

namespace WasmHost.Config

variable {σ : Type} {mod : Module} {imports : Imports σ} {c d e : Config σ}
  {cs ds : List (Config σ)}

/-- What a run passes through from one moment on until it comes to another, which is left out. -/
inductive Path (mod : Module) (imports : Imports σ) : Config σ → List (Config σ) → Config σ → Prop
  | nil (c : Config σ) : Path mod imports c [] c
  | cons {c d e : Config σ} {cs : List (Config σ)} (h : c.step mod imports = some d)
      (hp : Path mod imports d cs e) :
    Path mod imports c (c :: cs) e

theorem exists_path_of_reaches (h : Reaches mod imports c d) : ∃ cs, Path mod imports c cs d := by
  induction h using Relation.ReflTransGen.head_induction_on with
  | refl => exact ⟨[], .nil d⟩
  | @head c c' hs _ ih =>
    obtain ⟨cs, hp⟩ := ih
    exact ⟨c :: cs, .cons hs hp⟩

theorem Path.reaches (h : Path mod imports c cs d) : Reaches mod imports c d := by
  induction h with
  | nil => exact .refl
  | cons hs _ ih => exact .head hs ih

/-- The machine as a part of a run leaves it, whether it stopped or not. -/
def leaves {α : Type} : EStateM.Result Stop (Machine σ) α → Machine σ
  | .ok _ m => m
  | .error _ m => m

theorem machine_after {α : Type} {next : α → Machine σ → Config σ}
    (hn : ∀ a m, (next a m).machine = m) (r : EStateM.Result Stop (Machine σ) α) :
    (after r next).machine = leaves r := by
  cases r with
  | ok a m => exact hn a m
  | error stop m => rfl

theorem host_runOp (params : List Value) (o : Op) (frame : Frame) (m : Machine σ) :
    (leaves ((Exec.runOp params o frame).run m)).host = m.host := by
  simp only [Exec.runOp, EStateM.run_bind, EStateM.run_get]
  split
  · rfl
  · split <;> rfl

theorem host_enter (m : Machine σ) : (leaves (Exec.enter.run m)).host = m.host := by
  simp only [Exec.enter, EStateM.run_bind, EStateM.run_get]
  split <;> rfl

theorem host_callImport (offered : Bool) (slot : Nat) (args : List Value) (m : Machine σ) :
    (leaves ((Exec.callImport imports offered slot args).run m)).host =
      (imports slot args (if offered then some m.memory else none) m.host).host := by
  simp only [Exec.callImport, EStateM.run_bind, EStateM.run_get, EStateM.run_set]
  split <;> rfl

theorem host_stepCode (params : List Value) (frame : Frame) (konts : List Kont) (m : Machine σ)
    (code : Code) :
    (stepCode mod params frame konts m code).machine.host = m.host := by
  cases code with
  | op o next => rw [stepCode, machine_after (fun _ _ => rfl), host_runOp]
  | call f next =>
    rw [stepCode]
    split <;> rfl
  | ifNonzero body next =>
    rw [stepCode]
    split
    · split <;> rfl
    · rfl
  | done | ret | unreachable | spin => rfl

/-- Only the answer of a host function changes what only host functions know. -/
theorem host_of_step (h : c.step mod imports = some d) :
    d.machine.host = ((c.reply? imports).map Reply.host).getD c.machine.host := by
  obtain ⟨control, konts, m⟩ := c
  cases control with
  | code code params frame =>
    cases h
    exact host_stepCode params frame konts m code
  | leave returned frame =>
    rcases konts with _ | ⟨_ | f | _, konts⟩
    · cases h
    · simp only [step, stepLeave] at h
      split at h <;> cases h <;> rfl
    · simp only [step, stepLeave] at h
      split at h <;> cases h <;> rfl
    · cases h
  | call index args =>
    simp only [step, stepCall, Option.some.injEq] at h
    subst h
    split
    · split
      · rfl
      · rw [machine_after (fun _ _ => rfl), host_enter]
        rfl
      · rfl
    · rfl
  | host offered slot args =>
    cases h
    rw [machine_after (fun _ _ => rfl), host_callImport]
    rfl
  | back values =>
    rcases konts with _ | ⟨_ | _ | _, konts⟩ <;> cases h <;> rfl
  | halted result => cases h

theorem machine_exported (mod : Module) (index : Nat) (args : List Value) (m : Machine σ) :
    (exported mod index args m).machine = m := by
  unfold exported
  split <;> rfl

theorem host_of_starting {m : Machine σ} (h : starting? mod m = some c) :
    c.machine.host = m.host := by
  unfold starting? at h
  split at h <;> cases h
  rfl

/-- When no start function is run, nothing happens that host functions could tell. -/
theorem host_instantiate (imports : Imports σ) {m : Machine σ} (h : starting? mod m = none) :
    (leaves ((mod.instantiate imports).run m)).host = m.host := by
  simp only [Module.instantiate, EStateM.run_bind, EStateM.run_get]
  cases hw : mod.place m.memory with
  | error t => rfl
  | ok memory =>
    cases hs : mod.start with
    | none => rfl
    | some index => simp [starting?, hw, hs] at h

end WasmHost.Config

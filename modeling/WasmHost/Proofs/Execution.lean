import WasmHost.Proofs.Config

namespace WasmHost.Config

variable {σ : Type} {mod : Module} {imports : Imports σ}

theorem after_bind {α β : Type} (x : Exec σ α) (f : α → Exec σ β) (m : Machine σ)
    (next : β → Machine σ → Config σ) :
    after ((x >>= f).run m) next = after (x.run m) fun a m => after ((f a).run m) next := by
  rw [EStateM.run_bind]
  cases x.run m <;> rfl

theorem reaches_after {α : Type} {c : Config σ} {r : EStateM.Result Stop (Machine σ) α}
    {next next' : α → Machine σ → Config σ} (h : Reaches mod imports c (after r next))
    (hn : ∀ a m, Reaches mod imports (next a m) (next' a m)) :
    Reaches mod imports c (after r next') := by
  cases r with
  | ok a m => exact h.trans (hn a m)
  | error stop m => exact h

/-- Code is left as the executor says, whatever is left to do around it. Calls are taken to come
back as `call` says; only as many functions as are run around the code matter to them. -/
theorem reaches_exec {n : Nat} {call : Nat → List Value → Exec σ (List Value)}
    (hcall : ∀ f args konts m, depth konts = n → Reaches mod imports ⟨.call f args, konts, m⟩
      (after ((call f args).run m) fun values m => ⟨.back values, konts, m⟩))
    (code : Code) (params : List Value) (frame : Frame) (konts : List Kont) (m : Machine σ)
    (hk : depth konts = n) :
    Reaches mod imports ⟨.code code params frame, konts, m⟩
      (after ((code.exec call mod.arity? params frame).run m) fun r m =>
        ⟨.leave r.1 r.2, konts, m⟩) := by
  induction code generalizing frame konts m with
  | done => exact .single rfl
  | op o next ih =>
    rw [Code.exec, after_bind]
    exact reaches_after (.single rfl) fun frame m => ih frame konts m hk
  | call f next ih =>
    rw [Code.exec, after_bind]
    change Reaches mod imports _ (after (.ok () (charge (frame.owed + 1) m)) _)
    cases ha : mod.arity? f with
    | none =>
      refine .single ?_
      simp only [step, stepCode, ha]
      rfl
    | some count =>
      have hs : step mod imports ⟨.code (.call f next) params frame, konts, m⟩ =
          some ⟨.call f (frame.stack.take count).reverse,
            .call next params (frame.stack.drop count) :: konts,
            charge (frame.owed + 1) m⟩ := by
        simp only [step, stepCode, ha]
      rw [after, after_bind]
      refine .head hs (reaches_after (hcall f _ _ _ hk) fun values m => ?_)
      exact .head rfl (ih _ konts m hk)
  | ifNonzero body next ihb ihn =>
    obtain ⟨stack, owed⟩ := frame
    rcases stack with _ | ⟨v, stack⟩
    · exact .single rfl
    · cases v with
      | i32 condition =>
        by_cases hc : condition = 0
        · subst hc
          exact .head rfl (ihn ⟨stack, owed + 1⟩ konts m hk)
        · have hs : step mod imports
            ⟨.code (.ifNonzero body next) params ⟨.i32 condition :: stack, owed⟩, konts, m⟩ =
              some ⟨.code body params ⟨stack, owed + 1⟩, .body next params :: konts, m⟩ := by
            simp only [step, stepCode, hc, if_false]
          simp only [Code.exec, hc, if_false]
          rw [after_bind]
          refine .head hs (reaches_after (ihb _ (.body next params :: konts) m hk) fun r m => ?_)
          obtain ⟨left, frame⟩ := r
          -- A body that was left by a return is passed on; one that came to its end goes on behind
          -- the condition.
          cases left with
          | true => exact .single rfl
          | false => exact .head rfl (ihn frame konts m hk)
      | _ => exact .single rfl
  | ret => exact .single rfl
  | unreachable => exact .single rfl
  | spin => exact .single rfl

theorem reaches_run {call : Nat → List Value → Exec σ (List Value)} {konts : List Kont}
    (hcall : ∀ f args konts' m, depth konts' = depth konts + 1 →
      Reaches mod imports ⟨.call f args, konts', m⟩
      (after ((call f args).run m) fun values m => ⟨.back values, konts', m⟩))
    (f : Function) (args : List Value) (m : Machine σ) :
    Reaches mod imports (after (Exec.enter.run m) fun _ m =>
      ⟨.code f.body args ⟨[], 1⟩, .function f :: konts, m⟩)
      (after ((f.run call mod.arity? args).run m) fun values m => ⟨.back values, konts, m⟩) := by
  rw [Function.run, after_bind]
  refine reaches_after .refl fun _ m => ?_
  rw [after_bind]
  refine reaches_after (reaches_exec hcall f.body args _ _ m rfl) fun r m => .single ?_
  obtain ⟨left, frame⟩ := r
  simp only [step, stepLeave]
  cases f.results? frame.stack with
  | some values => rfl
  | none => rfl

/-- A call comes back as the executor says, or the run ends with the stop that the executor
gives. -/
theorem reaches_callAt (remaining index : Nat) (args : List Value) (konts : List Kont)
    (m : Machine σ) (hk : depth konts + remaining = Module.maxDepth) :
    Reaches mod imports ⟨.call index args, konts, m⟩
      (after ((mod.callAt imports remaining index args).run m) fun values m =>
        ⟨.back values, konts, m⟩) := by
  induction remaining generalizing index args konts m with
  | zero =>
    have hd : ¬ depth konts < Module.maxDepth := by omega
    refine .single ?_
    simp only [step, stepCall, hd, if_false]
    rfl
  | succ remaining ih =>
    have hd : depth konts < Module.maxDepth := by omega
    rw [Module.callAt]
    cases hc : mod.callee? index with
    | none =>
      refine .single ?_
      simp only [step, stepCall, hd, if_true, hc]
      rfl
    | some callee =>
      cases callee with
      | imported slot name type =>
        have hs : step mod imports ⟨.call index args, konts, m⟩ =
          some ⟨.host mod.offersMemory slot args, konts, m⟩ := by
          simp only [step, stepCall, hd, if_true, hc]
        exact .head hs (.single rfl)
      | defined f =>
        have hs : step mod imports ⟨.call index args, konts, m⟩ =
            some (after (Exec.enter.run m) fun _ m =>
              ⟨.code f.body args ⟨[], 1⟩, .function f :: konts, m⟩) := by
          simp only [step, stepCall, hd, if_true, hc]
        exact .head hs (reaches_run
          (fun g args konts' m hk' => ih g args konts' m (by omega)) f args m)

/-- The end of a run that has this result. -/
def ending (r : EStateM.Result Stop (Machine σ) (List Value)) : Config σ :=
  after r fun values m => halt (.ok values) m

theorem reaches_ending_callAt (index : Nat) (args : List Value) (m : Machine σ) :
    Reaches mod imports ⟨.call index args, [], m⟩
      (ending ((mod.callAt imports Module.maxDepth index args).run m)) :=
  reaches_after (reaches_callAt Module.maxDepth index args [] m (Nat.zero_add _)) fun _ _ =>
    .single rfl

/-- A call from outside ends, and as the executor says. -/
theorem reaches_ending_callExport (mod : Module) (imports : Imports σ) (index : Nat)
    (args : List Value) (m : Machine σ) :
    Reaches mod imports (exported mod index args m)
      (ending ((mod.callExport imports index args).run m)) := by
  cases hc : mod.callee? index with
  | none =>
    simp only [exported, Module.callExport, hc]
    exact reaches_ending_callAt index args m
  | some callee =>
    simp only [exported, Module.callExport, hc]
    cases callee with
    | imported slot name type => exact reaches_after (.single rfl) fun _ _ => .single rfl
    | defined f => exact reaches_ending_callAt index args m

/-- The start function ends, and instantiation says how. -/
theorem exists_halt_starting (imports : Imports σ) {m : Machine σ} {c : Config σ}
    (hc : starting? mod m = some c) :
    ∃ result m', Reaches mod imports c (halt result m') ∧
      (mod.instantiate imports).run m = match result with
        | .ok _ => .ok () m'
        | .error stop => .error stop m' := by
  cases hw : mod.place m.memory with
  | error t => simp [starting?, hw] at hc
  | ok memory =>
    cases hs : mod.start with
    | none => simp [starting?, hs] at hc
    | some index =>
      simp only [starting?, hw, hs, Option.some.injEq] at hc
      subst hc
      have h : Reaches mod imports _ _ := reaches_ending_callAt index [] { m with memory }
      simp only [Module.instantiate, EStateM.run_bind, EStateM.run_get, hw, EStateM.run_set, hs]
      cases hr : (mod.callAt imports Module.maxDepth index []).run { m with memory } with
      | ok values m' =>
        rw [hr] at h
        exact ⟨.ok values, m', h, rfl⟩
      | error stop m' =>
        rw [hr] at h
        exact ⟨.error stop, m', h, rfl⟩

theorem exported_ne_halt (index : Nat) (args : List Value) (m m' : Machine σ)
    (result : Except Stop (List Value)) :
    exported mod index args m ≠ halt result m' := by
  unfold exported halt
  split <;> simp

end WasmHost.Config

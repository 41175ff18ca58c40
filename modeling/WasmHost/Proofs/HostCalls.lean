import WasmHost.Linker
import WasmHost.Wasi

namespace WasmHost

/-- A host whose clocks stand still. -/
def Host.still : Host where
  clock := { realtime := fun _ => 0, monotonic := fun _ => 0 }
  entropy := { source := fun _ => 0 }

/-- Slots are let through as they are, and only if they hold values of the declared kinds. -/
theorem checkSlots_eq_ok_iff {kinds : List Kind} {slots values : List Value} :
    checkSlots kinds slots = .ok values ↔
      values = slots ∧ slots.map Value.kind? = kinds.map some := by
  induction kinds generalizing slots values with
  | nil =>
    cases slots with
    | nil => simp [checkSlots, eq_comm]
    | cons v slots => simp [checkSlots]
  | cons kind kinds ih =>
    cases slots with
    | nil => simp [checkSlots]
    | cons v slots =>
      rw [checkSlots]
      by_cases hv : v.kind? = some kind
      · rw [if_pos hv]
        cases hrest : checkSlots kinds slots with
        | error stop =>
          have hkinds : ¬ slots.map Value.kind? = kinds.map some := by
            intro hkinds
            rw [ih.mpr ⟨rfl, hkinds⟩] at hrest
            cases hrest
          simp [Except.map, hkinds]
        | ok rest =>
          obtain ⟨rfl, hkinds⟩ := ih.mp hrest
          simp [Except.map, hv, hkinds, eq_comm]
      · rw [if_neg hv]
        simp [hv]

theorem checkSlots_eq_error {kinds : List Kind} {slots : List Value} {stop : Stop}
    (h : checkSlots kinds slots = .error stop) : ∃ message, stop = .failure message := by
  induction kinds generalizing slots with
  | nil =>
    cases slots with
    | nil => cases h
    | cons v slots => exact ⟨_, (Except.error.inj h).symm⟩
  | cons kind kinds ih =>
    cases slots with
    | nil => exact ⟨_, (Except.error.inj h).symm⟩
    | cons v slots =>
      rw [checkSlots] at h
      split at h
      · cases hrest : checkSlots kinds slots with
        | ok rest =>
          rw [hrest] at h
          cases h
        | error stop' =>
          rw [hrest] at h
          cases h
          exact ih hrest
      · exact ⟨_, (Except.error.inj h).symm⟩

namespace HostFunc

/-- A call that has just begun: no result slot is set. -/
def begun (f : HostFunc) (context : Context) (memory : Option Memory) (host : Host) : Call :=
  { context, memory, results := List.replicate f.signature.results.length .funcRef, host }

/-- What comes of running a host function on these arguments, once. Its result slots are what it
returns, if they hold values of the declared kinds. What it has done to memory and host stays,
however it ends. -/
inductive Replies (f : HostFunc) (context : Context) (args : List Value) (memory : Option Memory)
    (host : Host) :
    Reply Host → Prop
  | returned {c : Call} (h : f.run args (f.begun context memory host) = .ok () c)
      (hk : c.results.map Value.kind? = f.signature.results.map some) :
      Replies f context args memory host ⟨.ok c.results, c.memory, c.host⟩
  | misfit {c : Call} {message : String} (h : f.run args (f.begun context memory host) = .ok () c)
      (hk : c.results.map Value.kind? ≠ f.signature.results.map some) :
      Replies f context args memory host ⟨.error (.failure message), c.memory, c.host⟩
  | stopped {c : Call} {stop : Stop}
      (h : f.run args (f.begun context memory host) = .error stop c) :
      Replies f context args memory host ⟨.error stop, c.memory, c.host⟩

variable {f : HostFunc} {context : Context} {args : List Value} {memory : Option Memory}
  {host : Host}

theorem call_of_run_eq_ok {c : Call} (h : f.run args (f.begun context memory host) = .ok () c) :
    f.call context args memory host =
      ⟨checkSlots f.signature.results c.results, c.memory, c.host⟩ := by
  rw [begun] at h
  rw [call, h]

theorem call_of_run_eq_error {c : Call} {stop : Stop}
    (h : f.run args (f.begun context memory host) = .error stop c) :
    f.call context args memory host = ⟨.error stop, c.memory, c.host⟩ := by
  rw [begun] at h
  rw [call, h]

theorem call_replies (f : HostFunc) (context : Context) (args : List Value) (memory : Option Memory)
    (host : Host) :
    f.Replies context args memory host (f.call context args memory host) := by
  cases hrun : f.run args (f.begun context memory host) with
  | error stop c =>
    rw [call_of_run_eq_error hrun]
    exact .stopped hrun
  | ok u c =>
    rw [call_of_run_eq_ok hrun]
    cases hslots : checkSlots f.signature.results c.results with
    | ok values =>
      obtain ⟨rfl, hk⟩ := checkSlots_eq_ok_iff.mp hslots
      exact .returned hrun hk
    | error stop =>
      obtain ⟨message, rfl⟩ := checkSlots_eq_error hslots
      refine .misfit hrun fun hk => ?_
      rw [checkSlots_eq_ok_iff.mpr ⟨rfl, hk⟩] at hslots
      cases hslots

theorem map_kind?_of_call {values : List Value}
    (h : (f.call context args memory host).result = .ok values) :
    values.map Value.kind? = f.signature.results.map some := by
  have hreplies := f.call_replies context args memory host
  generalize f.call context args memory host = reply at h hreplies
  cases hreplies with
  | returned _ hk =>
    cases h
    exact hk
  | misfit => cases h
  | stopped => cases h

end HostFunc

namespace HostM

variable {α β : Type} {x : HostM α} {f : α → HostM β} {c c' : Call}

theorem bind_of_ok {a : α} (h : x c = .ok a c') : (x >>= f) c = f a c' := by
  simp only [bind, EStateM.bind, h]

theorem get_eq_ok (c : Call) : (get : HostM Call) c = .ok c c := rfl

theorem context_eq_ok (c : Call) : context c = .ok c.context c := rfl

theorem host_eq_ok (c : Call) : host c = .ok c.host c := rfl

theorem memory_eq_ok {m : Memory} (h : c.memory = some m) : memory c = .ok m c := by
  rw [memory, bind_of_ok (get_eq_ok c), h]
  rfl

theorem memory_eq_error (h : c.memory = none) :
    memory c = .error (.failure "module does not export its memory") c := by
  rw [memory, bind_of_ok (get_eq_ok c), h]
  rfl

theorem int32_eq_ok {params : List Value} {index : Nat} {w : UInt32}
    (h : params[index]? = some (.i32 w)) (c : Call) :
    int32 params index c = .ok w.toInt32 c := by
  have hp : paramInt32 params index = .ok w.toInt32 := by
    simp [paramInt32, h, Value.int32?]
  rw [int32, hp]
  rfl

theorem word_eq_ok {params : List Value} {index : Nat} {w : UInt32}
    (h : params[index]? = some (.i32 w)) (c : Call) :
    word params index c = .ok w c := by
  rw [word, bind_of_ok (int32_eq_ok h c)]
  rfl

theorem int64_eq_ok {params : List Value} {index : Nat} {w : UInt64}
    (h : params[index]? = some (.i64 w)) (c : Call) :
    int64 params index c = .ok w.toInt64 c := by
  have hp : paramInt64 params index = .ok w.toInt64 := by
    simp [paramInt64, h, Value.int64?]
  rw [int64, hp]
  rfl

theorem bind_of_error {stop : Stop} (h : x c = .error stop c') : (x >>= f) c = .error stop c' := by
  simp only [bind, EStateM.bind, h]

theorem int32_eq_error {params : List Value} {index : Nat} (h : ∀ w, params[index]? ≠ some (.i32 w))
    (c : Call) :
    int32 params index c = .error (.failure (SlotError.expected .i32 index).message) c := by
  have hnone : params[index]?.bind Value.int32? = none := by
    cases hp : params[index]? with
    | none => rfl
    | some v =>
      cases v with
      | i32 w => exact absurd hp (h w)
      | _ => rfl
  rw [int32, paramInt32, hnone]
  rfl

theorem word_eq_error {params : List Value} {index : Nat} (h : ∀ w, params[index]? ≠ some (.i32 w))
    (c : Call) :
    word params index c = .error (.failure (SlotError.expected .i32 index).message) c := by
  rw [word, bind_of_error (int32_eq_error h c)]

theorem int64_eq_error {params : List Value} {index : Nat} (h : ∀ w, params[index]? ≠ some (.i64 w))
    (c : Call) :
    int64 params index c = .error (.failure (SlotError.expected .i64 index).message) c := by
  have hnone : params[index]?.bind Value.int64? = none := by
    cases hp : params[index]? with
    | none => rfl
    | some v =>
      cases v with
      | i64 w => exact absurd hp (h w)
      | _ => rfl
  rw [int64, paramInt64, hnone]
  rfl

end HostM

namespace Wasi

theorem commitPart_eq_ok (r : Errno × Memory) (c : Call) :
    commitPart r c = .ok r.1 { c with memory := some r.2 } := rfl

theorem commit_eq_ok (m : Memory) (c : Call) :
    commit (.ok m) c = .ok .success { c with memory := some m } := rfl

theorem commit_error (e : OutOfBounds) (c : Call) : commit (.error e) c = .ok .fault c := rfl

/-- A function that answered with an error number has put it into its one result slot. -/
theorem Syscall.call_eq_ok {params : List Kind} {syscall : Syscall} {context context' : Context}
    {args : List Value} {memory memory' : Option Memory} {host host' : Host} {errno : Errno}
    (h : syscall args ⟨context, memory, [.funcRef], host⟩ =
        .ok errno ⟨context', memory', [.funcRef], host'⟩) :
    (Syscall.toHostFunc params syscall).call context args memory host =
      ⟨.ok [.i32 errno.code], memory', host'⟩ := by
  have hslots : List.replicate
    (Syscall.toHostFunc params syscall).signature.results.length Value.funcRef = [.funcRef] :=
    rfl
  have hrun : (Syscall.toHostFunc params syscall).run args ⟨context, memory, [.funcRef], host⟩ =
      .ok () ⟨context', memory', [.i32 errno.code], host'⟩ := HostM.bind_of_ok h
  rw [HostFunc.call, hslots, hrun]
  rfl

end Wasi

end WasmHost

import WasmHost.Proofs.Dispatch

namespace WasmHost

namespace Exec

variable {σ : Type} {m m' : Machine σ}

theorem exists_of_bind_eq_ok {α β : Type} {x : Exec σ α} {f : α → Exec σ β} {b : β}
    (h : (x >>= f).run m = .ok b m') : ∃ a m₁, x.run m = .ok a m₁ ∧ (f a).run m₁ = .ok b m' := by
  rw [EStateM.run_bind] at h
  cases hx : x.run m with
  | ok a m₁ =>
    rw [hx] at h
    exact ⟨a, m₁, rfl, h⟩
  | error stop m₁ =>
    rw [hx] at h
    cases h

theorem result_of_callImport {imports : Imports σ} {offered : Bool} {slot : Nat}
    {args values : List Value} (h : (callImport imports offered slot args).run m = .ok values m') :
    (imports slot args (if offered then some m.memory else none) m.host).result = .ok values := by
  simp only [callImport, EStateM.run_bind, EStateM.run_get, EStateM.run_set] at h
  cases hr : (imports slot args (if offered then some m.memory else none) m.host).result with
  | ok values' =>
    rw [hr] at h
    cases h
    rfl
  | error stop =>
    rw [hr] at h
    cases h

end Exec

/-- A function of the guest ends well only with values of its declared types on its stack. -/
theorem Function.map_type_of_run {σ : Type} {f : Function}
    {call : Nat → List Value → Exec σ (List Value)} {arity? : Nat → Option Nat}
    {args values : List Value} {m m' : Machine σ}
    (h : (f.run call arity? args).run m = .ok values m') :
    values.map Value.type = f.type.results := by
  rw [Function.run] at h
  obtain ⟨_, _, _, h⟩ := Exec.exists_of_bind_eq_ok h
  obtain ⟨r, _, _, h⟩ := Exec.exists_of_bind_eq_ok h
  obtain ⟨_, _, _, h⟩ := Exec.exists_of_bind_eq_ok h
  cases hr : f.results? r.2.stack with
  | none =>
    rw [hr] at h
    cases h
  | some values' =>
    rw [hr] at h
    cases h
    rw [Function.results?] at hr
    split at hr
    · rename_i htypes
      cases hr
      exact htypes
    · cases hr

/-- What is called with success is there, and if it is a function of the guest then it gives values
of its types. -/
theorem Module.exists_callee_of_callAt {σ : Type} {mod : Module} {imports : Imports σ}
    {depth index : Nat} {args values : List Value} {m m' : Machine σ}
    (h : (mod.callAt imports depth index args).run m = .ok values m') :
    ∃ callee, mod.callee? index = some callee ∧
      ∀ function, callee = .defined function → values.map Value.type = function.type.results := by
  cases depth with
  | zero => cases h
  | succ depth =>
    rw [Module.callAt] at h
    cases hc : mod.callee? index with
    | none =>
      rw [hc] at h
      cases h
    | some callee =>
      refine ⟨callee, rfl, ?_⟩
      intro function hf
      subst hf
      rw [hc] at h
      exact Function.map_type_of_run h

namespace Instance

/-- Calls of a function from outside that succeed give values of the types which the function
declares. -/
def ReturnsDeclared (inst : Instance) (f : ExportedFunction) (runner : Runner Host := .machine) :
    Prop :=
  ∀ host args values, (inst.run host f args runner).1 = .ok values →
    values.map Value.type = (inst.type f).results

/-- The function behind each import slot gives values of the types that the import declares. -/
def ImportsReturn (inst : Instance) : Prop :=
  ∀ slot name type args memory host values, inst.mod.functionImports[slot]? = some (name, type) →
    (inst.imports slot args memory host).result = .ok values → values.map Value.type = type.results

variable {inst : Instance} {f : ExportedFunction}

theorem ImportsReturn.returnsDeclared (h : inst.ImportsReturn) (f : ExportedFunction) :
    inst.ReturnsDeclared f := by
  intro host args values hrun
  have hexport : ∃ m',
    (inst.mod.callExport inst.imports f.index args).run ⟨inst.memory, inst.counter, host⟩ =
      .ok values m' := by
    unfold run at hrun
    split at hrun
    · rename_i values' m' hcall
      cases hrun
      exact ⟨m', hcall⟩
    · cases hrun
  obtain ⟨m', hexport⟩ := hexport
  unfold Module.callExport at hexport
  unfold type
  cases hc : inst.mod.callee? f.index with
  | none =>
    rw [hc] at hexport
    obtain ⟨callee, hcallee, _⟩ := Module.exists_callee_of_callAt hexport
    rw [hc] at hcallee
    cases hcallee
  | some callee =>
    rw [hc] at hexport
    cases callee with
    | imported slot name type =>
      obtain ⟨hi, rfl⟩ := Module.callee?_eq_imported_iff.mp hc
      exact h _ name type args _ host values hi (Exec.result_of_callImport hexport)
    | defined function =>
      obtain ⟨_, hcallee, htypes⟩ := Module.exists_callee_of_callAt hexport
      exact htypes function (Option.some.inj (hcallee.symm.trans hc))

/-- Whatever is done with an instance, its memory and its fuel are all that it may change. -/
theorem after_fst (inst : Instance) (host : Host) (events : List Event) :
    ∃ memory counter, (inst.after host events).1 = { inst with memory, counter } := by
  induction events generalizing inst host with
  | nil => exact ⟨inst.memory, inst.counter, rfl⟩
  | cons event rest ih =>
    cases event with
    | operation op =>
      obtain ⟨memory, counter, hkept⟩ := answerAll_fst inst host (op.requests inst)
      rw [← perform_snd] at hkept
      obtain ⟨memory', counter', hafter⟩ := ih (inst.perform host op).2.1 (inst.perform host op).2.2
      refine ⟨memory', counter', hafter.trans ?_⟩
      rw [hkept]
    | elsewhere change => exact ih inst (change host)

section

variable {runner : Runner Host} {host : Host} {args : Arguments} {results : Shape}

/-- With the declared types come values of the requested kinds, and the shape takes those. -/
theorem exists_returned (hd : inst.ReturnsDeclared f runner)
    (h : inst.signature f = .ok ⟨args.kinds, results.kinds⟩) {values : List Value}
    (hr : (inst.run host f args.toValues runner).1 = .ok values) :
    ∃ value, values = results.toValues value ∧
      (inst.invoke host f args results runner).1 = .ok (.returned value) := by
  have htypes : values.map Value.type = results.kinds.map .number := by
    rw [hd host args.toValues values hr, type_of_signature_eq h]
  have hvalue : ∃ value, values = results.toValues value :=
    Shape.exists_eq_toValues_iff.mpr (Value.map_kind?_eq_iff.mpr htypes)
  obtain ⟨value, rfl⟩ := hvalue
  refine ⟨value, rfl, ?_⟩
  rw [invoke_eq_of_signature_eq h host runner, conclude_eq_returned_iff]
  exact hr

/-- A fault is a stop of the run itself. -/
theorem run_of_executionFault (hd : inst.ReturnsDeclared f runner) {stop : Stop}
    (he : (inst.invoke host f args results runner).1 = .error (.executionFault stop)) :
    inst.signature f = .ok ⟨args.kinds, results.kinds⟩ ∧
    (inst.run host f args.toValues runner).1 = .error stop := by
  by_cases h : inst.signature f = .ok ⟨args.kinds, results.kinds⟩
  · refine ⟨h, ?_⟩
    cases hr : (inst.run host f args.toValues runner).1 with
    | ok values =>
      obtain ⟨value, _, hreturned⟩ := exists_returned hd h hr
      rw [hreturned] at he
      cases he
    | error stop' =>
      rw [invoke_eq_of_signature_eq h host runner, hr, conclude_eq_error_iff] at he
      obtain ⟨_, hstop, _, hfault⟩ | ⟨_, hvalues, _⟩ := he
      · cases hstop
        cases hfault
        rfl
      · cases hvalues
  · rw [invoke_of_signature_ne inst host f args results h runner] at he
    cases he

end

end Instance

namespace Plan

variable {plan : Plan} {engine : Engine} {files : Files} {host host' : Host} {inst : Instance}

theorem importsReturn_of_build (hb : plan.build engine files host = (.ok inst, host')) :
    inst.ImportsReturn := by
  intro slot name type args memory host values hi hvalues
  obtain ⟨f, _, hs, himports⟩ := exists_imports_eq (build_eq_ok hb) hi
  have hcall : (f.call inst.context args memory host).result = .ok values := by
    rw [← himports]
    exact hvalues
  have hkinds : values.map Value.kind? = f.signature.results.map some :=
    HostFunc.map_kind?_of_call hcall
  rw [Signature.ofFuncType_eq_ok_iff.mp hs]
  exact Value.map_kind?_eq_iff.mp hkinds

/-- The functions of an instance that a plan has built return what they declare, whatever was done
with it before. -/
theorem returnsDeclared_of_build (hb : plan.build engine files host = (.ok inst, host'))
    (host'' : Host) (events : List Event) (f : ExportedFunction) :
    (inst.after host'' events).1.ReturnsDeclared f := by
  obtain ⟨memory, counter, hafter⟩ := inst.after_fst host'' events
  have himports : inst.ImportsReturn := importsReturn_of_build hb
  have hkept : Instance.ImportsReturn { inst with memory, counter } := himports
  rw [hafter]
  exact hkept.returnsDeclared f

end Plan

namespace Instance

/-- How typed values cross. Written values have the kinds of their shape. A shape takes just the
values of its kinds, with the bits that they have, and so takes what it wrote; a bare value and a
tuple of one value do the same. On a runner whose calls return what is declared, a call that was let
through and succeeds is therefore always a return: every fault is a stop of the call itself, never
one for results of the wrong kind. -/
theorem marshalling_exact :
    (∀ args : Arguments, args.toValues.map Value.kind? = args.kinds.map some ∧
      args.toValues.map Value.bits = args.shape.bits args.values) ∧
    (∀ (results : Shape) (vs : List Value),
      ((∃ x, results.ofValues? vs = some x) ↔ vs.map Value.kind? = results.kinds.map some) ∧
      (∀ v ∈ vs, ((∃ x, v = .v128 x) ∨ v = .funcRef ∨ v = .externRef) →
        results.ofValues? vs = none) ∧
      (∀ x, results.ofValues? vs = some x →
        vs = results.toValues x ∧ vs.map Value.bits = results.bits x)) ∧
    (∀ (shape : Shape) (x : shape.Carrier), shape.ofValues? (shape.toValues x) = some x) ∧
    (∀ kind : Kind, (Shape.tuple [kind]).kinds = (Shape.scalar kind).kinds ∧
      (∀ x : kind.Carrier, (Shape.tuple [kind]).toValues (x, ()) = (Shape.scalar kind).toValues x) ∧
      ∀ vs, (Shape.tuple [kind]).ofValues? vs = ((Shape.scalar kind).ofValues? vs).map fun x =>
        (x, ())) ∧
    ∀ (runner : Runner Host) (inst : Instance) (f : ExportedFunction),
      inst.ReturnsDeclared f runner →
      ∀ (host : Host) (args : Arguments) (results : Shape),
      (inst.signature f = .ok ⟨args.kinds, results.kinds⟩ →
        (inst.slots f).map Value.kind? = results.kinds.map some ∧
        inst.call host f args.toValues (inst.slots f) runner =
          inst.run host f args.toValues runner ∧
        ∀ values, (inst.call host f args.toValues (inst.slots f) runner).1 = .ok values →
          ∃ value, values = results.toValues value ∧
            (inst.invoke host f args results runner).1 = .ok (.returned value)) ∧
      ∀ stop, (inst.invoke host f args results runner).1 = .error (.executionFault stop) →
        (inst.call host f args.toValues (inst.slots f) runner).1 = .error stop := by
  refine ⟨?_, ?_, Shape.ofValues?_toValues, ?_, ?_⟩
  · intro args
    exact ⟨args.map_kind?_toValues, args.shape.map_bits_toValues args.values⟩
  · intro results vs
    refine ⟨Shape.exists_ofValues?_iff, ?_, ?_⟩
    · intro v hv hforeign
      exact Shape.ofValues?_eq_none_of_mem hv (Value.kind?_eq_none_iff.mpr hforeign) results
    · intro x hx
      obtain rfl := Shape.ofValues?_eq_some_iff.mp hx
      exact ⟨rfl, results.map_bits_toValues x⟩
  · intro kind
    exact ⟨rfl, fun _ => rfl, Shape.ofValues?_tuple_singleton kind⟩
  · intro runner inst f hd host args results
    constructor
    · intro h
      refine ⟨map_kind?_slots h, call_of_signature_eq h host runner, ?_⟩
      intro values hvalues
      rw [call_of_signature_eq h host runner] at hvalues
      exact exists_returned hd h hvalues
    · intro stop he
      obtain ⟨h, hstop⟩ := run_of_executionFault hd he
      rw [call_of_signature_eq h host runner]
      exact hstop

/-- A module whose one function returns its two arguments as they are. -/
def echoing : Module where
  functions := [⟨⟨[.number .f32, .number .i64], [.number .f32, .number .i64]⟩,
    .op (.get 0) (.op (.get 1) .done)⟩]
  exports := [("echo", .func 0)]

/-- A signalling NaN comes back with all its bits. -/
theorem marshalling_exact_echoing :
    ∃ inst host, (Plan.start (.bytes [])).build ⟨true, fun _ => .ok echoing⟩ Launch.noFiles .still =
      (.ok inst, host) ∧
      (inst.invoke host ⟨"echo", 0⟩ ⟨.tuple [.f32, .i64], (0x7fa00001, 5, ())⟩
        (.tuple [.f32, .i64])).1 =
        .ok (.returned (0x7fa00001, 5, ())) := by
  have hbuild : ∃ inst host,
      (Plan.start (.bytes [])).build ⟨true, fun _ => .ok echoing⟩ Launch.noFiles .still =
        (.ok inst, host) ∧
      inst.signature ⟨"echo", 0⟩ = .ok ⟨[.f32, .i64], [.f32, .i64]⟩ ∧
      (inst.call host ⟨"echo", 0⟩ [.f32 0x7fa00001, .i64 5] (inst.slots ⟨"echo", 0⟩)).1 =
        .ok [.f32 0x7fa00001, .i64 5] := ⟨_, _, rfl, rfl, rfl⟩
  obtain ⟨inst, host, hb, hs, hcall⟩ := hbuild
  have hd : inst.ReturnsDeclared ⟨"echo", 0⟩ := Plan.returnsDeclared_of_build hb host [] _
  obtain ⟨_, _, hround, _, hinvoke⟩ := marshalling_exact
  obtain ⟨hreturn, _⟩ :=
    hinvoke .machine inst _ hd host ⟨.tuple [.f32, .i64], (0x7fa00001, 5, ())⟩ (.tuple [.f32, .i64])
  obtain ⟨_, _, hreturn⟩ := hreturn hs
  obtain ⟨value, hvalue, hreturned⟩ := hreturn _ hcall
  have hsame : value = (0x7fa00001, 5, ()) := by
    have hx := hround (.tuple [.f32, .i64]) value
    rw [← hvalue] at hx
    exact (Option.some.inj hx).symm
  rw [hsame] at hreturned
  exact ⟨inst, host, hb, hreturned⟩

end Instance

end WasmHost

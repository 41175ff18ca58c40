import WasmHost.Proofs.LaunchExit

namespace WasmHost

namespace ValueType

/-- The types that have a kind. -/
def supported : List ValueType := [.number .i32, .number .i64, .number .f32, .number .f64]

theorem number_mem_supported (kind : Kind) : .number kind ∈ supported := by
  cases kind <;> decide

theorem kind?_eq_none_iff_not_mem {t : ValueType} : t.kind? = none ↔ t ∉ supported := by
  cases t with
  | number kind => simp [kind?, number_mem_supported]
  | _ => simp [kind?, supported]

theorem eq_map_number_iff {ts : List ValueType} {kinds : List Kind} :
    ts = kinds.map .number ↔
      kinds.length = ts.length ∧ ∀ (k : Nat) (kind : Kind), kinds[k]? = some kind →
        ts[k]? = some (.number kind) := by
  constructor
  · intro h
    subst h
    refine ⟨List.length_map _ |>.symm, ?_⟩
    intro k kind hk
    rw [List.getElem?_map, hk, Option.map_some]
  · intro h
    obtain ⟨hlen, hget⟩ := h
    apply List.ext_getElem
    · rw [List.length_map, hlen]
    · intro k hk hk'
      have hkind : k < kinds.length := hlen ▸ hk
      have ht : ts[k]? = some (.number kinds[k]) := hget k kinds[k] (List.getElem?_eq_getElem hkind)
      rw [List.getElem?_eq_getElem hk, Option.some.injEq] at ht
      rw [ht, List.getElem_map]

end ValueType

namespace FuncType

/-- The types at all positions. Every parameter comes before the first result. -/
def types (type : FuncType) : List ValueType := type.params ++ type.results

/-- The smallest position with a type that has no kind. -/
structure FirstUnsupported (type : FuncType) (k : Nat) (t : ValueType) : Prop where
  here : type.types[k]? = some t
  unsupported : t ∉ ValueType.supported
  before : ∀ j < k, ∀ u, type.types[j]? = some u → u ∈ ValueType.supported

theorem exists_firstUnsupported_iff {type : FuncType} {t : ValueType} :
    (∃ k, type.FirstUnsupported k t) ↔ type.types.find? (fun t => t.kind? = none) = some t := by
  rw [List.find?_eq_some_iff_getElem, decide_eq_true_iff, ValueType.kind?_eq_none_iff_not_mem]
  constructor
  · intro h
    obtain ⟨k, hfirst⟩ := h
    obtain ⟨hk, hget⟩ := List.getElem?_eq_some_iff.mp hfirst.here
    refine ⟨hfirst.unsupported, k, hk, hget, ?_⟩
    intro j hj
    have hmem := hfirst.before j hj _ (List.getElem?_eq_getElem (Nat.lt_trans hj hk))
    simp [ValueType.kind?_eq_none_iff_not_mem, hmem]
  · intro h
    obtain ⟨hun, k, hk, hget, hbefore⟩ := h
    refine ⟨k, List.getElem?_eq_some_iff.mpr ⟨hk, hget⟩, hun, ?_⟩
    intro j hj u hu
    obtain ⟨_, rfl⟩ := List.getElem?_eq_some_iff.mp hu
    simpa [ValueType.kind?_eq_none_iff_not_mem] using hbefore j hj

end FuncType

namespace Signature

/-- A signature with as many parameters and results as a function type, and with the kind of each of
them in its place. -/
structure Describes (s : Signature) (type : FuncType) : Prop where
  length_params : s.params.length = type.params.length
  length_results : s.results.length = type.results.length
  params : ∀ (k : Nat) (kind : Kind), s.params[k]? = some kind →
    type.params[k]? = some (.number kind)
  results : ∀ (k : Nat) (kind : Kind), s.results[k]? = some kind →
    type.results[k]? = some (.number kind)

variable {type type' : FuncType} {s : Signature}

theorem describes_iff : s.Describes type ↔ type = s.toFuncType := by
  obtain ⟨params, results⟩ := type
  simp only [toFuncType, FuncType.mk.injEq, ValueType.eq_map_number_iff]
  exact ⟨fun h => ⟨⟨h.length_params, h.params⟩, ⟨h.length_results, h.results⟩⟩,
    fun h => ⟨h.1.1, h.2.1, h.1.2, h.2.2⟩⟩

theorem ofFuncType_eq_ok_iff_describes : ofFuncType type = .ok s ↔ s.Describes type := by
  rw [ofFuncType_eq_ok_iff, describes_iff]

theorem ofFuncType_eq_error_iff_first {e : UnsupportedType} :
    ofFuncType type = .error e ↔ ∃ k, type.FirstUnsupported k e.type := by
  rw [ofFuncType_eq_error_iff, FuncType.exists_firstUnsupported_iff, FuncType.types]

theorem mem_supported_of_mem_types {t : ValueType} (h : t ∈ s.toFuncType.types) :
    t ∈ ValueType.supported := by
  rw [FuncType.types, toFuncType, ← List.map_append] at h
  obtain ⟨kind, _, rfl⟩ := List.mem_map.mp h
  exact ValueType.number_mem_supported kind

theorem exists_ofFuncType_eq_ok_iff :
    (∃ s, ofFuncType type = .ok s) ↔ ∀ t ∈ type.types, t ∈ ValueType.supported := by
  constructor
  · intro h t ht
    obtain ⟨s, hs⟩ := h
    rw [ofFuncType_eq_ok_iff.mp hs] at ht
    exact mem_supported_of_mem_types ht
  · intro h
    cases hd : ofFuncType type with
    | ok s => exact ⟨s, rfl⟩
    | error e =>
      -- What would be reported is one of the types, but has no kind.
      obtain ⟨k, hfirst⟩ := ofFuncType_eq_error_iff_first.mp hd
      exact absurd (h e.type (List.mem_of_getElem? hfirst.here)) hfirst.unsupported

/-- A type can be told from its signature. -/
theorem eq_of_ofFuncType_eq_ok (h : ofFuncType type = .ok s) (h' : ofFuncType type' = .ok s) :
    type = type' := by
  rw [ofFuncType_eq_ok_iff.mp h, ofFuncType_eq_ok_iff.mp h']

theorem ofFuncType_of_firstUnsupported {k : Nat} {t : ValueType} (h : type.FirstUnsupported k t) :
    ofFuncType type = .error ⟨t⟩ :=
  ofFuncType_eq_error_iff_first.mpr ⟨k, h⟩

end Signature

namespace Linker

variable {bindings : HostTable} {i : Import} {type : FuncType} {func : HostFunc}

/-- An import takes a binding exactly when it is declared with the very type of the binding. -/
theorem resolve_eq_ok_iff :
    resolve bindings i = .ok func ↔
      bindings.get? i.name = some func ∧ i.type = .func func.signature.toFuncType := by
  constructor
  · intro h
    rcases satisfiedBy_or_failsWith bindings i with ⟨type, func', hi, hb, hs⟩ | ⟨e, hi⟩
    · rw [resolve_of_eq hi hb hs, Except.ok.injEq] at h
      subst h
      exact ⟨hb, by rw [hi, Signature.ofFuncType_eq_ok_iff.mp hs]⟩
    · obtain ⟨e', hr, _⟩ := resolve_of_failsWith hi
      rw [hr] at h
      cases h
  · intro h
    obtain ⟨hb, hi⟩ := h
    exact resolve_of_eq hi hb (Signature.ofFuncType_eq_ok_iff.mpr rfl)

theorem resolve_of_firstUnsupported {k : Nat} {t : ValueType} (hi : i.type = .func type)
    (hb : bindings.get? i.name = some func) (h : type.FirstUnsupported k t) :
    resolve bindings i =
      .error (.mismatch i.name ("unsupported value type: " ++ t.name) func.signature) := by
  have hd : Signature.ofFuncType type = .error ⟨t⟩ := Signature.ofFuncType_of_firstUnsupported h
  rw [resolve_of_ne hi hb (by simp [hd]), hd]
  rfl

end Linker

/-- After linking, every import stands for a function of exactly the type that it was declared
with. -/
theorem Plan.type_of_link {plan : Plan} {mod : Module} {linker : Linker}
    (h : plan.link mod = .ok linker) {i : Import} (hi : i ∈ mod.imports) :
    ∃ func, linker.definitions.get? i.name = some func ∧
      i.type = .func func.signature.toFuncType := by
  obtain ⟨type, func, hf, hb, hs⟩ := (link_eq_ok_iff_satisfied plan mod).mp ⟨linker, h⟩ i hi
  refine ⟨func, ?_, ?_⟩
  · rw [get?_of_link h, if_pos (List.mem_map_of_mem hi), hb]
  · rw [hf, Signature.ofFuncType_eq_ok_iff.mp hs]

namespace Instance

variable {inst : Instance} {host : Host} {f : ExportedFunction} {args : Arguments} {results : Shape}

/-- A call is refused exactly when the function has another type than the arguments and the results
that are asked for. -/
theorem exists_signatureMismatch_iff :
    (∃ name expected found, (inst.invoke host f args results).1 =
      .error (.signatureMismatch name expected found)) ↔
      inst.type f ≠ (⟨args.kinds, results.kinds⟩ : Signature).toFuncType := by
  rw [Ne, ← Signature.ofFuncType_eq_ok_iff, ← signature_eq]
  constructor
  · intro h hs
    obtain ⟨name, expected, found, he⟩ := h
    obtain ⟨stop, hstop, _⟩ := (invoke_eq_error_iff hs).mp he
    cases hstop
  · intro hs
    rw [invoke_of_signature_ne inst host f args results hs]
    exact ⟨_, _, _, rfl⟩

theorem invoke_of_firstUnsupported {k : Nat} {t : ValueType}
    (h : (inst.type f).FirstUnsupported k t) :
    inst.invoke host f args results =
      (.error (.signatureMismatch f.name ("unsupported value type: " ++ t.name)
        ⟨args.kinds, results.kinds⟩), inst, host) := by
  have hd : inst.signature f = .error ⟨t⟩ := by
    rw [signature_eq]
    exact Signature.ofFuncType_of_firstUnsupported h
  rw [invoke_of_signature_ne inst host f args results (by simp [hd]), hd]
  rfl

end Instance

namespace Signature

/-- A type has a signature exactly when all its types are supported, and the signature has the kind
of each of them in its place. Else the smallest unsupported position is reported, and the parameters
come first. So types that differ anywhere never have one signature: imports are given only functions
of their very type, and calls that ask for any other type are refused. -/
theorem conversion_exact :
    (∀ type : FuncType,
      ((∃ s, ofFuncType type = .ok s) ↔ ∀ t ∈ type.types, t ∈ ValueType.supported) ∧
      (∀ s, ofFuncType type = .ok s ↔ s.Describes type) ∧
      (∀ e, ofFuncType type = .error e ↔ ∃ k, type.FirstUnsupported k e.type)) ∧
    (∀ (type type' : FuncType) (s : Signature), ofFuncType type = .ok s → ofFuncType type' = .ok s →
      type = type') ∧
    (∀ (bindings : HostTable) (i : Import) (func : HostFunc), Linker.resolve bindings i = .ok func ↔
      bindings.get? i.name = some func ∧ i.type = .func func.signature.toFuncType) ∧
    (∀ (bindings : HostTable) (i : Import) (type : FuncType) (func : HostFunc) (k : Nat)
      (t : ValueType),
      i.type = .func type → bindings.get? i.name = some func → type.FirstUnsupported k t →
        Linker.resolve bindings i =
          .error (.mismatch i.name ("unsupported value type: " ++ t.name) func.signature)) ∧
    (∀ (plan : Plan) (mod : Module) (linker : Linker), plan.link mod = .ok linker →
      ∀ i ∈ mod.imports,
      ∃ func, linker.definitions.get? i.name = some func ∧
        i.type = .func func.signature.toFuncType) ∧
    (∀ (inst : Instance) (host : Host) (f : ExportedFunction) (args : Arguments) (results : Shape),
      ((∃ name expected found,
        (inst.invoke host f args results).1 = .error (.signatureMismatch name expected found)) ↔
          inst.type f ≠ (⟨args.kinds, results.kinds⟩ : Signature).toFuncType) ∧
      (∀ k t, (inst.type f).FirstUnsupported k t → inst.invoke host f args results =
        (.error (.signatureMismatch f.name ("unsupported value type: " ++ t.name)
          ⟨args.kinds, results.kinds⟩), inst, host))) := by
  refine ⟨?_, fun type type' s => eq_of_ofFuncType_eq_ok,
    fun bindings i func => Linker.resolve_eq_ok_iff, ?_, ?_, ?_⟩
  · intro type
    exact ⟨exists_ofFuncType_eq_ok_iff, fun s => ofFuncType_eq_ok_iff_describes,
      fun e => ofFuncType_eq_error_iff_first⟩
  · intro bindings i type func k t hi hb hfirst
    exact Linker.resolve_of_firstUnsupported hi hb hfirst
  · intro plan mod linker hl i hi
    exact Plan.type_of_link hl hi
  · intro inst host f args results
    exact ⟨Instance.exists_signatureMismatch_iff, fun k t => Instance.invoke_of_firstUnsupported⟩

/-- A parameter and the result have no kind; the parameter comes first. -/
def mixed : FuncType := ⟨[.number .i64, .reference "(ref func)"], [.v128]⟩

def exportingMixed : Module where
  functions := [⟨mixed, .unreachable⟩]
  exports := [("f", .func 0)]

theorem conversion_exact_mixed :
    (∃ s, ofFuncType ⟨[.number .i32], []⟩ = .ok s ∧ ofFuncType ⟨[], [.number .i32]⟩ ≠ .ok s) ∧
    ofFuncType mixed = .error ⟨.reference "(ref func)"⟩ ∧
    Linker.resolve Plan.single.bindings ⟨⟨"env", "f"⟩, .func mixed⟩ =
      .error (.mismatch ⟨"env", "f"⟩ "unsupported value type: (ref func)" ⟨[.i32], []⟩) ∧
    (∃ linker func, Plan.single.link (Plan.importing [⟨[.number .i32], []⟩]) = .ok linker ∧
      linker.definitions.get? ⟨"env", "f"⟩ = some func ∧
        func.signature.toFuncType = ⟨[.number .i32], []⟩) ∧
    (∃ inst host,
      (Plan.start (.bytes [])).build ⟨true, fun _ => .ok exportingMixed⟩ Launch.noFiles .still =
        (.ok inst, host) ∧
      inst.invoke host ⟨"f", 0⟩ ⟨.scalar .i64, 7⟩ .unit =
        (.error (.signatureMismatch "f" "unsupported value type: (ref func)" ⟨[.i64], []⟩), inst,
          host)) := by
  obtain ⟨hconvert, hinj, _, hunsupported, hlink, hinvoke⟩ := conversion_exact
  have hfirst : mixed.FirstUnsupported 1 (.reference "(ref func)") := by
    refine ⟨rfl, by decide, ?_⟩
    intro j hj u hu
    obtain rfl : j = 0 := Nat.lt_one_iff.mp hj
    cases hu
    decide
  refine ⟨?_, ?_, ?_, ?_, ?_⟩
  · obtain ⟨s, hs⟩ := (hconvert ⟨[.number .i32], []⟩).1.mpr (by decide)
    exact ⟨s, hs, fun h => absurd (hinj _ _ s hs h) (by decide)⟩
  · exact ((hconvert mixed).2.2 _).mpr ⟨1, hfirst⟩
  · exact hunsupported _ _ mixed Plan.takesInt32 1 _ rfl rfl hfirst
  · have hl : ∃ linker, Plan.single.link (Plan.importing [⟨[.number .i32], []⟩]) = .ok linker :=
      ⟨_, rfl⟩
    obtain ⟨linker, hl⟩ := hl
    obtain ⟨func, hf, htype⟩ := hlink _ _ linker hl _ List.mem_cons_self
    exact ⟨linker, func, hl, hf, (ImportType.func.inj htype).symm⟩
  · have hbuild : ∃ inst host,
      (Plan.start (.bytes [])).build ⟨true, fun _ => .ok exportingMixed⟩ Launch.noFiles .still =
        (.ok inst, host) ∧ inst.type ⟨"f", 0⟩ = mixed := ⟨_, _, rfl, rfl⟩
    obtain ⟨inst, host, hb, htype⟩ := hbuild
    rw [← htype] at hfirst
    exact ⟨inst, host, hb, (hinvoke inst host ⟨"f", 0⟩ ⟨.scalar .i64, 7⟩ .unit).2 1 _ hfirst⟩

end Signature

end WasmHost

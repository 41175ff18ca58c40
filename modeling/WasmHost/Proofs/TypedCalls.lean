import WasmHost.Instance
import WasmHost.Proofs.Conversion
import WasmHost.Proofs.Marshalling

namespace WasmHost

theorem ValueType.kind?_blank_of_kind? {t : ValueType} {kind : Kind} (h : t.kind? = some kind) :
    t.blank.kind? = some kind := by
  obtain rfl := ValueType.kind?_eq_some_iff.mp h
  cases kind <;> rfl

theorem checkArgs_eq_ok {ts : List ValueType} {vs : List Value} (h : vs.map Value.type = ts) :
    checkArgs ts vs = .ok () := by
  induction vs generalizing ts with
  | nil =>
    subst h
    rfl
  | cons v vs ih =>
    subst h
    rw [List.map_cons, checkArgs, if_pos rfl]
    exact ih rfl

/-- Arguments of the declared types, with as many slots as there are results, are let through. -/
theorem FuncType.checkCall_eq_ok {type : FuncType} {args slots : List Value}
    (ha : args.map Value.type = type.params) (hs : slots.length = type.results.length) :
    type.checkCall args slots = .ok () := by
  have hlen : args.length = type.params.length := by rw [← ha, List.length_map]
  rw [checkCall, if_neg (not_not_intro hlen), if_neg (not_not_intro hs)]
  exact checkArgs_eq_ok ha

theorem Arguments.map_kind?_toValues (args : Arguments) :
    args.toValues.map Value.kind? = args.kinds.map some :=
  args.shape.map_kind?_toValues args.values

namespace Instance

variable {inst : Instance} {f : ExportedFunction} {args : Arguments} {results : Shape}

theorem signature_eq (inst : Instance) (f : ExportedFunction) :
    inst.signature f = Signature.ofFuncType (inst.type f) := by
  rw [signature, type]
  cases inst.mod.callee? f.index <;> rfl

/-- What the comparison of signatures has seen to: types of numbers, those of the arguments and
those asked for. -/
theorem type_of_signature_eq (h : inst.signature f = .ok ⟨args.kinds, results.kinds⟩) :
    inst.type f = ⟨args.kinds.map .number, results.kinds.map .number⟩ := by
  rw [signature_eq] at h
  exact Signature.ofFuncType_eq_ok_iff.mp h

theorem map_kind?_slots (h : inst.signature f = .ok ⟨args.kinds, results.kinds⟩) :
    (inst.slots f).map Value.kind? = results.kinds.map some := by
  rw [slots, type_of_signature_eq h, List.map_map, List.map_map, List.map_inj_left]
  intro kind _
  exact ValueType.kind?_blank_of_kind? rfl

/-- A call with the requested signature has the arguments and the slots that the function declares,
so it is run. -/
theorem call_of_signature_eq (h : inst.signature f = .ok ⟨args.kinds, results.kinds⟩) (host : Host)
    (runner : Runner Host := .machine) :
    inst.call host f args.toValues (inst.slots f) runner =
      inst.run host f args.toValues runner := by
  have htype := type_of_signature_eq h
  have hargs : args.toValues.map Value.type = (inst.type f).params := by
    rw [htype]
    exact Value.map_kind?_eq_iff.mp args.map_kind?_toValues
  have hslots : (inst.slots f).length = (inst.type f).results.length := List.length_map _
  rw [call, FuncType.checkCall_eq_ok hargs hslots]

end Instance

end WasmHost

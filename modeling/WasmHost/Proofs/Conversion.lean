import WasmHost.Signature

namespace WasmHost

theorem Kind.ofValueTypes_eq_ok_iff {ts : List ValueType} {ks : List Kind} :
    Kind.ofValueTypes ts = .ok ks ↔ ts = ks.map .number := by
  induction ts generalizing ks with
  | nil => cases ks <;> simp
  | cons t ts ih =>
    cases ht : t.kind? with
    | none =>
      rw [Kind.ofValueTypes_unsupported ht]
      cases ks with
      | nil => simp
      | cons k ks =>
        simp only [reduceCtorEq, List.map_cons, List.cons.injEq, false_iff, not_and]
        intro he
        rw [he] at ht
        cases ht
    | some k =>
      rw [ValueType.kind?_eq_some_iff] at ht
      subst ht
      rw [Kind.ofValueTypes_number]
      cases ks with
      | nil => cases Kind.ofValueTypes ts <;> simp [Except.map]
      | cons k' ks =>
        have h := @ih ks
        cases hr : Kind.ofValueTypes ts <;> rw [hr] at h <;> simp [Except.map, ← h]

/-- The type that is reported is the first one without a kind. -/
theorem Kind.ofValueTypes_eq_error_iff {ts : List ValueType} {e : UnsupportedType} :
    Kind.ofValueTypes ts = .error e ↔ ts.find? (fun t => t.kind? = none) = some e.type := by
  induction ts with
  | nil => simp
  | cons t ts ih =>
    cases ht : t.kind? with
    | none =>
      rw [Kind.ofValueTypes_unsupported ht, List.find?_cons_of_pos (by simp [ht])]
      obtain ⟨u⟩ := e
      simp
    | some k =>
      rw [List.find?_cons_of_neg (by simp [ht]), ← ih]
      rw [ValueType.kind?_eq_some_iff] at ht
      subst ht
      rw [Kind.ofValueTypes_number]
      cases Kind.ofValueTypes ts <;> simp [Except.map]

namespace Signature

theorem toOption_eq_some_iff {declared : Except UnsupportedType Signature} {s : Signature} :
    declared.toOption = some s ↔ declared = .ok s := by
  cases declared <;> simp [Except.toOption]

theorem ofFuncType_eq_ok_iff {type : FuncType} {s : Signature} :
    ofFuncType type = .ok s ↔ type = s.toFuncType := by
  obtain ⟨params, results⟩ := type
  obtain ⟨ps, rs⟩ := s
  have hp : Kind.ofValueTypes params = .ok ps ↔ params = ps.map .number :=
    Kind.ofValueTypes_eq_ok_iff
  have hr : Kind.ofValueTypes results = .ok rs ↔ results = rs.map .number :=
    Kind.ofValueTypes_eq_ok_iff
  simp only [toFuncType, FuncType.mk.injEq, ← hp, ← hr, ofFuncType]
  cases Kind.ofValueTypes params <;> cases Kind.ofValueTypes results <;>
    simp [bind, Except.bind, pure, Except.pure]

/-- All parameters are looked at before any result. -/
theorem ofFuncType_eq_error_iff {type : FuncType} {e : UnsupportedType} :
    ofFuncType type = .error e ↔
      (type.params ++ type.results).find? (fun t => t.kind? = none) = some e.type := by
  rw [List.find?_append, ofFuncType]
  cases hp : Kind.ofValueTypes type.params with
  | error e' =>
    rw [Kind.ofValueTypes_eq_error_iff.mp hp]
    obtain ⟨t⟩ := e
    obtain ⟨t'⟩ := e'
    simp [bind, Except.bind]
  | ok ps =>
    have hnone : type.params.find? (fun t => t.kind? = none) = none := by
      rw [Kind.ofValueTypes_eq_ok_iff.mp hp, List.find?_eq_none]
      intro t ht
      obtain ⟨k, _, rfl⟩ := List.mem_map.mp ht
      simp [ValueType.kind?]
    rw [hnone, Option.none_or, ← Kind.ofValueTypes_eq_error_iff]
    cases Kind.ofValueTypes type.results <;> simp [bind, Except.bind, pure, Except.pure]

end Signature

end WasmHost

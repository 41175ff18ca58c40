import WasmHost.Shape

namespace WasmHost

namespace Value

/-- The bits of a value, read as one number; a null reference has none. -/
def bits : Value → Nat
  | i32 x | f32 x => x.toNat
  | i64 x | f64 x => x.toNat
  | v128 x => x.toNat
  | funcRef | externRef => 0

theorem kind?_eq_none_iff {v : Value} :
    v.kind? = none ↔ (∃ x, v = .v128 x) ∨ v = .funcRef ∨ v = .externRef := by
  cases v <;> simp [kind?, type, ValueType.kind?]

/-- Values have just the kinds of a list when their types are the numeric types of these kinds. -/
theorem map_kind?_eq_iff {vs : List Value} {kinds : List Kind} :
    vs.map kind? = kinds.map some ↔ vs.map type = kinds.map .number := by
  induction vs generalizing kinds with
  | nil => cases kinds <;> simp
  | cons v vs ih =>
    cases kinds with
    | nil => simp
    | cons kind kinds =>
      have hhead : v.kind? = some kind ↔ v.type = .number kind := ValueType.kind?_eq_some_iff
      simp only [List.map_cons, List.cons.injEq, hhead, ih]

end Value

/-- The bits that the host holds for a value, read as one number. -/
def Kind.bits : (kind : Kind) → kind.Carrier → Nat
  | .i32, x | .f32, x => UInt32.toNat x
  | .i64, x | .f64, x => UInt64.toNat x

@[simp] theorem Kind.kind?_toValue (kind : Kind) (x : kind.Carrier) :
    (kind.toValue x).kind? = some kind := by
  cases kind <;> rfl

@[simp] theorem Kind.bits_toValue (kind : Kind) (x : kind.Carrier) :
    (kind.toValue x).bits = kind.bits x := by
  cases kind <;> rfl

theorem Kind.exists_eq_toValue_iff {kind : Kind} {v : Value} :
    (∃ x, v = kind.toValue x) ↔ v.kind? = some kind := by
  constructor
  · intro h
    obtain ⟨x, rfl⟩ := h
    exact kind.kind?_toValue x
  · intro h
    cases kind <;> cases v <;> cases h <;> exact ⟨_, rfl⟩

theorem Kind.ofValue?_eq_some_iff {kind : Kind} {v : Value} {x : kind.Carrier} :
    kind.ofValue? v = some x ↔ v = kind.toValue x := by
  constructor
  · intro h
    cases kind <;> cases v <;> cases h <;> rfl
  · intro h
    rw [h]
    exact kind.ofValue?_toValue x

namespace Tuple

theorem ofValues?_eq_some_iff {kinds : List Kind} {vs : List Value} {xs : Tuple kinds} :
    ofValues? kinds vs = some xs ↔ vs = toValues kinds xs := by
  constructor
  · intro h
    induction kinds generalizing vs with
    | nil =>
      cases vs with
      | nil => rfl
      | cons v vs => cases h
    | cons kind kinds ih =>
      cases vs with
      | nil => cases h
      | cons v vs =>
        simp only [ofValues?, Option.bind_eq_bind, Option.bind_eq_some_iff] at h
        obtain ⟨x, hx, rest, hrest, he⟩ := h
        cases he
        rw [toValues, Kind.ofValue?_eq_some_iff.mp hx, ih hrest]
  · intro h
    rw [h]
    exact ofValues?_toValues kinds xs

def bits : (kinds : List Kind) → Tuple kinds → List Nat
  | [], _ => []
  | kind :: kinds, (x, xs) => kind.bits x :: bits kinds xs

theorem map_kind?_toValues (kinds : List Kind) (xs : Tuple kinds) :
    (toValues kinds xs).map Value.kind? = kinds.map some := by
  induction kinds with
  | nil => rfl
  | cons kind kinds ih =>
    obtain ⟨x, xs⟩ := xs
    rw [toValues, List.map_cons, ih, Kind.kind?_toValue, List.map_cons]

theorem map_bits_toValues (kinds : List Kind) (xs : Tuple kinds) :
    (toValues kinds xs).map Value.bits = bits kinds xs := by
  induction kinds with
  | nil => rfl
  | cons kind kinds ih =>
    obtain ⟨x, xs⟩ := xs
    rw [toValues, List.map_cons, ih, Kind.bits_toValue, bits]

theorem exists_eq_toValues_iff {kinds : List Kind} {vs : List Value} :
    (∃ xs, vs = toValues kinds xs) ↔ vs.map Value.kind? = kinds.map some := by
  constructor
  · intro h
    obtain ⟨xs, rfl⟩ := h
    exact map_kind?_toValues kinds xs
  · intro h
    induction kinds generalizing vs with
    | nil =>
      have hnil : vs = [] := List.map_eq_nil_iff.mp h
      exact ⟨(), hnil⟩
    | cons kind kinds ih =>
      obtain ⟨v, vs, rfl, hv, hvs⟩ := List.map_eq_cons_iff.mp h
      obtain ⟨x, rfl⟩ := Kind.exists_eq_toValue_iff.mpr hv
      obtain ⟨xs, rfl⟩ := ih hvs
      exact ⟨(x, xs), rfl⟩

end Tuple

namespace Shape

/-- Values are read as a shape exactly when they are what the shape writes. -/
theorem ofValues?_eq_some_iff {shape : Shape} {vs : List Value} {x : shape.Carrier} :
    shape.ofValues? vs = some x ↔ vs = shape.toValues x := by
  constructor
  · intro h
    cases shape with
    | unit =>
      cases vs with
      | nil => rfl
      | cons v vs => cases h
    | scalar kind =>
      match vs with
      | [v] => rw [toValues, Kind.ofValue?_eq_some_iff.mp h]
      | [] => cases h
      | _ :: _ :: _ => cases h
    | tuple kinds => exact Tuple.ofValues?_eq_some_iff.mp h
  · intro h
    rw [h]
    exact shape.ofValues?_toValues x

def bits : (shape : Shape) → shape.Carrier → List Nat
  | unit, _ => []
  | scalar kind, x => [kind.bits x]
  | tuple kinds, xs => Tuple.bits kinds xs

theorem map_kind?_toValues (shape : Shape) (x : shape.Carrier) :
    (shape.toValues x).map Value.kind? = shape.kinds.map some := by
  cases shape with
  | unit => rfl
  | scalar kind => exact congrArg (fun k => [k]) (kind.kind?_toValue x)
  | tuple kinds => exact Tuple.map_kind?_toValues kinds x

theorem map_bits_toValues (shape : Shape) (x : shape.Carrier) :
    (shape.toValues x).map Value.bits = shape.bits x := by
  cases shape with
  | unit => rfl
  | scalar kind => exact congrArg (fun n => [n]) (kind.bits_toValue x)
  | tuple kinds => exact Tuple.map_bits_toValues kinds x

theorem exists_eq_toValues_iff {shape : Shape} {vs : List Value} :
    (∃ x, vs = shape.toValues x) ↔ vs.map Value.kind? = shape.kinds.map some := by
  constructor
  · intro h
    obtain ⟨x, rfl⟩ := h
    exact shape.map_kind?_toValues x
  · intro h
    cases shape with
    | unit => exact ⟨(), List.map_eq_nil_iff.mp h⟩
    | scalar kind =>
      obtain ⟨v, _, rfl, hv, hrest⟩ := List.map_eq_cons_iff.mp h
      obtain rfl := List.map_eq_nil_iff.mp hrest
      obtain ⟨x, rfl⟩ := Kind.exists_eq_toValue_iff.mpr hv
      exact ⟨x, rfl⟩
    | tuple kinds => exact Tuple.exists_eq_toValues_iff.mpr h

/-- A shape takes all values of its kinds, and no others. -/
theorem exists_ofValues?_iff {shape : Shape} {vs : List Value} :
    (∃ x, shape.ofValues? vs = some x) ↔ vs.map Value.kind? = shape.kinds.map some := by
  simp only [ofValues?_eq_some_iff, exists_eq_toValues_iff]

theorem ofValues?_eq_none_of_mem {v : Value} {vs : List Value} (hv : v ∈ vs) (hk : v.kind? = none)
    (shape : Shape) :
    shape.ofValues? vs = none := by
  rw [Option.eq_none_iff_forall_ne_some]
  intro x hx
  have hkinds : vs.map Value.kind? = shape.kinds.map some := exists_ofValues?_iff.mp ⟨x, hx⟩
  have hmem : none ∈ vs.map Value.kind? := List.mem_map.mpr ⟨v, hv, hk⟩
  rw [hkinds] at hmem
  simp at hmem

/-- A tuple of one value is read as the bare value. -/
theorem ofValues?_tuple_singleton (kind : Kind) (vs : List Value) :
    (tuple [kind]).ofValues? vs = ((scalar kind).ofValues? vs).map fun x => (x, ()) := by
  match vs with
  | [] => rfl
  | [v] =>
    change (Tuple.ofValues? [kind] [v]) = (kind.ofValue? v).map fun x => (x, ())
    rw [Tuple.ofValues?, Tuple.ofValues?]
    cases kind.ofValue? v <;> rfl
  | v :: _ :: _ =>
    change (Tuple.ofValues? [kind] (v :: _ :: _)) = none
    rw [Tuple.ofValues?, Tuple.ofValues?]
    · cases kind.ofValue? v <;> rfl
    · simp
    · simp

end Shape

end WasmHost

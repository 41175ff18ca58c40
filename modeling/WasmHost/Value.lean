namespace WasmHost

/-- A numeric kind of value. Only these four cross between guest and host. -/
inductive Kind
  | i32
  | i64
  | f32
  | f64
deriving DecidableEq

inductive ValueType
  | number (kind : Kind)
  | v128
  | funcRef
  | externRef
  /-- Any other type of references, such as one without null. Nothing is known of it but its
  name. -/
  | reference (name : String)
deriving DecidableEq

/-- A value. Numbers are kept as their bits, so a float is moved and never rounded; references are
null. -/
inductive Value
  | i32 (bits : UInt32)
  | i64 (bits : UInt64)
  | f32 (bits : UInt32)
  | f64 (bits : UInt64)
  | v128 (bits : BitVec 128)
  | funcRef
  | externRef
deriving DecidableEq

def Kind.name : Kind → String
  | .i32 => "i32"
  | .i64 => "i64"
  | .f32 => "f32"
  | .f64 => "f64"

theorem Kind.name_injective {j k : Kind} (h : j.name = k.name) : j = k := by
  revert h; cases j <;> cases k <;> decide

namespace ValueType

def name : ValueType → String
  | .number kind => kind.name
  | .v128 => "v128"
  | .funcRef => "(ref null func)"
  | .externRef => "(ref null extern)"
  | .reference name => name

def kind? : ValueType → Option Kind
  | .number kind => some kind
  | _ => none

@[simp] theorem kind?_eq_some_iff {t : ValueType} {k : Kind} :
    t.kind? = some k ↔ t = .number k := by
  cases t <;> simp [kind?]

end ValueType

namespace Value

def type : Value → ValueType
  | .i32 _ => .number .i32
  | .i64 _ => .number .i64
  | .f32 _ => .number .f32
  | .f64 _ => .number .f64
  | .v128 _ => .v128
  | .funcRef => .funcRef
  | .externRef => .externRef

def kind? (v : Value) : Option Kind := v.type.kind?

/-- The type that a value shows. A null reference has the bottom type, whatever it could have
referred to. -/
def typeName : Value → String
  | .funcRef | .externRef => "(ref null nofunc)"
  | v => v.type.name

def int32? : Value → Option Int32
  | .i32 bits => some bits.toInt32
  | _ => none

def int64? : Value → Option Int64
  | .i64 bits => some bits.toInt64
  | _ => none

end Value

end WasmHost

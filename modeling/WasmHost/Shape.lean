import WasmHost.Signature

namespace WasmHost

/-- What the host holds for a value of a kind: an integer, or the bits of a float. -/
abbrev Kind.Carrier : Kind → Type
  | .i32 | .f32 => UInt32
  | .i64 | .f64 => UInt64

def Kind.toValue : (kind : Kind) → kind.Carrier → Value
  | .i32, bits => .i32 bits
  | .i64, bits => .i64 bits
  | .f32, bits => .f32 bits
  | .f64, bits => .f64 bits

def Kind.ofValue? : (kind : Kind) → Value → Option kind.Carrier
  | .i32, .i32 bits => some bits
  | .i64, .i64 bits => some bits
  | .f32, .f32 bits => some bits
  | .f64, .f64 bits => some bits
  | _, _ => none

@[simp] theorem Kind.ofValue?_toValue (kind : Kind) (x : kind.Carrier) :
    kind.ofValue? (kind.toValue x) = some x := by
  cases kind <;> rfl

/-- Values of the given kinds, one after the other. -/
abbrev Tuple : List Kind → Type
  | [] => Unit
  | kind :: kinds => kind.Carrier × Tuple kinds

namespace Tuple

def toValues : (kinds : List Kind) → Tuple kinds → List Value
  | [], _ => []
  | kind :: kinds, (x, xs) => kind.toValue x :: toValues kinds xs

/-- Reads values back; there must be as many as kinds, each of its kind. -/
def ofValues? : (kinds : List Kind) → List Value → Option (Tuple kinds)
  | [], [] => some ()
  | kind :: kinds, v :: vs => do
    let x ← kind.ofValue? v
    let xs ← ofValues? kinds vs
    return (x, xs)
  | _, _ => none

@[simp] theorem ofValues?_toValues (kinds : List Kind) (xs : Tuple kinds) :
    ofValues? kinds (toValues kinds xs) = some xs := by
  induction kinds with
  | nil => rfl
  | cons kind kinds ih => simp [toValues, ofValues?, ih]

end Tuple

/-- The static form of an argument or result list: nothing, one bare value, or a tuple. -/
inductive Shape
  | unit
  | scalar (kind : Kind)
  | tuple (kinds : List Kind)
deriving DecidableEq

namespace Shape

def kinds : Shape → List Kind
  | unit => []
  | scalar kind => [kind]
  | tuple kinds => kinds

abbrev Carrier : Shape → Type
  | unit => Unit
  | scalar kind => kind.Carrier
  | tuple kinds => Tuple kinds

def toValues : (shape : Shape) → shape.Carrier → List Value
  | unit, _ => []
  | scalar kind, x => [kind.toValue x]
  | tuple kinds, xs => Tuple.toValues kinds xs

/-- Fails when the values disagree with the shape in count or kind. -/
def ofValues? : (shape : Shape) → List Value → Option shape.Carrier
  | unit, [] => some ()
  | unit, _ => none
  | scalar kind, [v] => kind.ofValue? v
  | scalar _, _ => none
  | tuple kinds, vs => Tuple.ofValues? kinds vs

/-- The simplest shape with these kinds. -/
def ofKinds : List Kind → Shape
  | [] => unit
  | [kind] => scalar kind
  | kinds => tuple kinds

@[simp] theorem kinds_ofKinds (ks : List Kind) : (ofKinds ks).kinds = ks := by
  match ks with
  | [] | [_] | _ :: _ :: _ => rfl

@[simp] theorem ofValues?_toValues (shape : Shape) (xs : shape.Carrier) :
    shape.ofValues? (shape.toValues xs) = some xs := by
  cases shape <;> simp [toValues, ofValues?]

end Shape

structure Arguments where
  shape : Shape
  values : shape.Carrier

namespace Arguments

def kinds (args : Arguments) : List Kind := args.shape.kinds

def toValues (args : Arguments) : List Value := args.shape.toValues args.values

/-- Types a list of values by their own kinds; a vector or a reference has none. -/
def ofValues? (values : List Value) : Option Arguments := do
  let kinds ← values.mapM Value.kind?
  let carried ← (Shape.ofKinds kinds).ofValues? values
  return ⟨Shape.ofKinds kinds, carried⟩

end Arguments

end WasmHost

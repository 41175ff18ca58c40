import WasmHost.Value

namespace WasmHost

structure FuncType where
  params : List ValueType
  results : List ValueType
deriving DecidableEq

/-- What imports, host functions and calls are matched by: the kinds of the parameters and of the
results. -/
@[ext] structure Signature where
  params : List Kind := []
  results : List Kind := []
deriving DecidableEq

/-- A value type that cannot cross between guest and host. -/
structure UnsupportedType where
  type : ValueType
deriving DecidableEq

def UnsupportedType.message (e : UnsupportedType) : String :=
  "unsupported value type: " ++ e.type.name

def Kind.ofValueType (t : ValueType) : Except UnsupportedType Kind :=
  match t.kind? with
  | some kind => .ok kind
  | none => .error ⟨t⟩

/-- The kinds of a list of types, or the first type that has none. -/
def Kind.ofValueTypes : List ValueType → Except UnsupportedType (List Kind)
  | [] => .ok []
  | t :: ts => do
    let kind ← Kind.ofValueType t
    let kinds ← Kind.ofValueTypes ts
    return kind :: kinds

namespace Signature

/-- The signature of a function type, or its first unsupported type; parameters come before
results. -/
def ofFuncType (type : FuncType) : Except UnsupportedType Signature := do
  let params ← Kind.ofValueTypes type.params
  let results ← Kind.ofValueTypes type.results
  return ⟨params, results⟩

def toFuncType (s : Signature) : FuncType := ⟨s.params.map .number, s.results.map .number⟩

/-- The names of kinds, separated by a comma and a blank. -/
def separated : List Kind → List Char
  | [] => []
  | [kind] => kind.name.toList
  | kind :: kinds => kind.name.toList ++ ',' :: ' ' :: separated kinds

def parenthesized (kinds : List Kind) : List Char := '(' :: separated kinds ++ [')']

/-- The written form, such as `(i32, i64) -> (f32)`. -/
def text (s : Signature) : String :=
  String.ofList (parenthesized s.params ++ ' ' :: '-' :: '>' :: ' ' :: parenthesized s.results)

/-- How a type reads in a report of a mismatch: its signature, or why it has none. -/
def textOf : Except UnsupportedType Signature → String
  | .ok s => s.text
  | .error e => e.message

end Signature

@[simp] theorem Kind.ofValueTypes_nil : Kind.ofValueTypes [] = .ok [] := rfl

@[simp] theorem Kind.ofValueTypes_number (kind : Kind) (ts : List ValueType) :
    Kind.ofValueTypes (.number kind :: ts) = (Kind.ofValueTypes ts).map (kind :: ·) := by
  cases h : Kind.ofValueTypes ts <;>
    simp [ofValueTypes, ofValueType, ValueType.kind?, h, bind, Except.bind, pure, Except.pure,
      Except.map]

theorem Kind.ofValueTypes_unsupported {t : ValueType} (ht : t.kind? = none) (ts : List ValueType) :
    Kind.ofValueTypes (t :: ts) = .error ⟨t⟩ := by
  simp [ofValueTypes, ofValueType, ht, bind, Except.bind]

end WasmHost

import WasmHost.Linker
import WasmHost.Shape

namespace WasmHost

/-- Why a call was refused, or how it failed. -/
inductive InvokeError
  | exportNotFound (name : String)
  | signatureMismatch (name expected : String) (found : Signature)
  | executionFault (stop : Stop)
deriving DecidableEq

def InvokeError.message : InvokeError → String
  | exportNotFound name => "Export not found: " ++ name
  | signatureMismatch name expected found =>
    "Signature mismatch for export " ++ name ++ ": export is " ++ expected ++ ", call requested " ++
      found.text
  | executionFault stop => "Execution fault: " ++ stop.message

/-- A module that has been linked and started, and what its code has done to memory and fuel so
far. -/
structure Instance where
  mod : Module
  linker : Linker
  context : Context
  memory : Memory
  counter : Int

structure ExportedFunction where
  name : String
  index : Nat
deriving DecidableEq

/-- What a result slot holds before a call; the call overwrites it. -/
def ValueType.blank : ValueType → Value
  | .number .i64 => .i64 0
  | .number .f32 => .f32 0
  | .number .f64 => .f64 0
  | _ => .i32 0

/-- The first argument of another type than the function declares stops a call. -/
def checkArgs : List ValueType → List Value → Except Stop Unit
  | t :: ts, v :: vs =>
    if v.type = t then checkArgs ts vs
    else .error (.noted "argument type mismatch"
      (.failure ("type mismatch: expected " ++ t.name ++ ", found " ++ v.typeName)))
  | _, _ => .ok ()

/-- What is checked before a call from outside: the number of the arguments, that of the result
slots, and the types of the arguments. -/
def FuncType.checkCall (type : FuncType) (args slots : List Value) : Except Stop Unit :=
  if args.length ≠ type.params.length then
    .error (.failure ("expected " ++ toString type.params.length ++ " arguments, got " ++
      toString args.length))
  else if slots.length ≠ type.results.length then
    .error (.failure ("expected " ++ toString type.results.length ++ " results, got " ++
      toString slots.length))
  else checkArgs type.params args

namespace Instance

def find (inst : Instance) (name : String) : Except InvokeError ExportedFunction :=
  match inst.mod.exportedFunction? name with
  | some index => .ok ⟨name, index⟩
  | none => .error (.exportNotFound name)

/-- Whether a function is exported under a name; other exports do not count. -/
def hasExport (inst : Instance) (name : String) : Bool := (inst.mod.exportedFunction? name).isSome

/-- The fuel that is left. The counter itself may be overdrawn. -/
def fuel (inst : Instance) : Nat := inst.counter.toNat

def imports (inst : Instance) : Imports Host := inst.linker.imports inst.mod inst.context

/-- The type of an exported function; one that is not there has an empty type. -/
def type (inst : Instance) (f : ExportedFunction) : FuncType :=
  match inst.mod.callee? f.index with
  | some callee => callee.type
  | none => ⟨[], []⟩

/-- The signature of an exported function, unless one of its types has none. -/
def signature (inst : Instance) (f : ExportedFunction) : Except UnsupportedType Signature :=
  match inst.mod.callee? f.index with
  | some callee => Signature.ofFuncType callee.type
  | none => .ok {}

def run (inst : Instance) (host : Host) (f : ExportedFunction) (args : List Value)
    (runner : Runner Host := .machine) : Except Stop (List Value) × Instance × Host :=
  match (runner.call inst.mod inst.imports f.index args).run ⟨inst.memory, inst.counter, host⟩ with
  | .ok values m => (.ok values, { inst with memory := m.memory, counter := m.fuel }, m.host)
  | .error stop m => (.error stop, { inst with memory := m.memory, counter := m.fuel }, m.host)

/-- A slot for each result that a function declares. -/
def slots (inst : Instance) (f : ExportedFunction) : List Value :=
  (inst.type f).results.map ValueType.blank

/-- Calls a function with a slot for each of its results. What the slots held is gone when the call
succeeds. -/
def call (inst : Instance) (host : Host) (f : ExportedFunction) (args slots : List Value)
    (runner : Runner Host := .machine) : Except Stop (List Value) × Instance × Host :=
  match (inst.type f).checkCall args slots with
  | .ok () => inst.run host f args runner
  | .error stop => (.error stop, inst, host)

/-- What a finished run means to the caller: a requested exit is no error. -/
def conclude (f : ExportedFunction) (results : Shape) :
    Except Stop (List Value) → Except InvokeError (Outcome results.Carrier)
  | .ok values =>
    match results.ofValues? values with
    | some value => .ok (.returned value)
    | none => .error (.executionFault
      (.failure ("export " ++ f.name ++ " produced results of the wrong kind")))
  | .error stop =>
    match stop.exitSignal? with
    | some signal => .ok (.exited signal)
    | none => .error (.executionFault stop)

/-- Calls an exported function with typed arguments for typed results. Both must describe it
exactly, or nothing runs. -/
def invoke (inst : Instance) (host : Host) (f : ExportedFunction) (args : Arguments)
    (results : Shape) (runner : Runner Host := .machine) :
    Except InvokeError (Outcome results.Carrier) × Instance × Host :=
  let requested : Signature := ⟨args.kinds, results.kinds⟩
  let declared := inst.signature f
  if declared.toOption = some requested then
    let (result, inst, host) := inst.call host f args.toValues (inst.slots f) runner
    (conclude f results result, inst, host)
  else
    (.error (.signatureMismatch f.name (Signature.textOf declared) requested), inst, host)

end Instance

end WasmHost

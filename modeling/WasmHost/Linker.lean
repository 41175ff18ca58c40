import WasmHost.Machine

namespace WasmHost

inductive LinkError
  | unresolved (name : ImportName)
  | mismatch (name : ImportName) (expected : String) (found : Signature)
  | definedTwice (name : ImportName)
deriving DecidableEq

/-- The host functions that are defined for imports so far, and the names of imports that were taken
in. -/
structure Linker where
  definitions : HostTable := .empty
  used : List ImportName := []

namespace Linker

/-- The binding that satisfies an import: a function of that name whose signature is the one of the
import. -/
def resolve (bindings : HostTable) (i : Import) : Except LinkError HostFunc :=
  match bindings.get? i.name with
  | none => .error (.unresolved i.name)
  | some func =>
    match i.type with
    | .other => .error (.unresolved i.name)
    | .func type =>
      let declared := Signature.ofFuncType type
      if declared.toOption = some func.signature then .ok func
      else .error (.mismatch i.name (Signature.textOf declared) func.signature)

/-- Defines a function for a name, which must have none yet. -/
def define (linker : Linker) (name : ImportName) (func : HostFunc) : Except LinkError Linker :=
  match linker.definitions.get? name with
  | some _ => .error (.definedTwice name)
  | none => .ok { linker with definitions := linker.definitions.insert name func }

/-- Resolves every import in turn. A name that is imported again is checked again but not defined
again. -/
def addAll (bindings : HostTable) (linker : Linker) : List Import → Except LinkError Linker
  | [] => .ok linker
  | i :: rest => do
    let func ← resolve bindings i
    if i.name ∈ linker.used then addAll bindings linker rest
    else do
      let linker ← { linker with used := linker.used ++ [i.name] }.define i.name func
      addAll bindings linker rest

/-- How many bindings no import asked for. -/
def unused (linker : Linker) (bindings : HostTable) : Nat := bindings.size - linker.used.length

end Linker

/-- Whether result slots hold values of the declared kinds; the first that does not is named. -/
def checkSlots : List Kind → List Value → Except Stop (List Value)
  | [], [] => .ok []
  | kind :: kinds, value :: values =>
    if value.kind? = some kind then (checkSlots kinds values).map (value :: ·)
    else .error (.failure ("type mismatch: expected " ++ kind.name ++ ", found " ++ value.typeName))
  | _, _ => .error (.failure "wrong number of results")

namespace HostFunc

/-- Calls a host function. Its result slots hold null references until it sets them. -/
def call (f : HostFunc) (context : Context) (args : List Value) (memory : Option Memory)
    (host : Host) : Reply Host :=
  match f.run args
      { context, memory, results := List.replicate f.signature.results.length .funcRef, host } with
  | .ok () c => ⟨checkSlots f.signature.results c.results, c.memory, c.host⟩
  | .error stop c => ⟨.error stop, c.memory, c.host⟩

end HostFunc

namespace Linker

/-- The functions behind the import slots of a module. -/
def imports (linker : Linker) (mod : Module) (context : Context) : Imports Host :=
  fun slot args memory host =>
  match mod.functionImports[slot]?.bind (fun i => linker.definitions.get? i.1) with
  | some f => f.call context args memory host
  | none => ⟨.error (.failure "unknown import"), memory, host⟩

end Linker

end WasmHost

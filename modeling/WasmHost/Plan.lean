import WasmHost.Instance
import WasmHost.Source

namespace WasmHost

inductive BuildError
  | source (error : IoError)
  | checksumMismatch (expected actual : UInt32)
  | malformedModule (message : String)
  | unresolvedImport (name : ImportName)
  | signatureMismatch (name : ImportName) (expected : String) (found : Signature)
  | fuel (message : String)
  | instantiate (stop : Stop)
deriving DecidableEq

namespace BuildError

def message : BuildError → String
  | source error => "Source error: " ++ error.message
  | checksumMismatch expected actual =>
    "Checksum mismatch: expected 0x" ++ Text.hexPadded 8 expected.toNat ++ ", module has 0x" ++
      Text.hexPadded 8 actual.toNat
  | malformedModule message => "Malformed module: " ++ message
  | unresolvedImport name => "Unresolved import: " ++ name.space ++ "::" ++ name.name
  | signatureMismatch name expected found =>
    "Signature mismatch for import " ++ name.space ++ "::" ++ name.name ++ ": module declares " ++
      expected ++
      ", binding provides " ++ found.text
  | fuel message => "Fuel error: " ++ message
  | instantiate stop => "Instantiate error: " ++ stop.message

def ofLinkError : LinkError → BuildError
  | .unresolved name => unresolvedImport name
  | .mismatch name expected found => signatureMismatch name expected found
  | .definedTwice name =>
    instantiate (.failure ("import of " ++ name.space ++ "::" ++ name.name ++ " defined twice"))

end BuildError

/-- What turns bytes into modules, and whether guest code that it runs is metered. -/
structure Engine where
  metered : Bool := true
  compile : Bytes → Except String Module

/-- The fuel that an engine tells of an instance, if it counts fuel at all. -/
def Engine.fuel? (engine : Engine) (inst : Instance) : Option UInt64 :=
  if engine.metered then some (UInt64.ofNat inst.fuel) else none

structure Plan where
  source : Source
  bindings : HostTable := .empty
  context : ContextDraft := {}
  budget : Budget := .unlimited
  checksum : Option UInt32 := none

inductive PlanSetting
  | offer (name : ImportName) (func : HostFunc)
  | offerTable (table : HostTable)
  | context (settings : List ContextSetting)
  | budget (budget : Budget)
  | checksum (expected : UInt32)

namespace Plan

def start (source : Source) : Plan := { source }

/-- Of bindings for one name, budgets and checksums the last one counts; settings of the context add
up. -/
def set (plan : Plan) : PlanSetting → Plan
  | .offer name func => { plan with bindings := plan.bindings.insert name func }
  | .offerTable table => { plan with bindings := plan.bindings.insertAll table.toList }
  | .context settings => { plan with context := plan.context.setAll settings }
  | .budget budget => { plan with budget }
  | .checksum expected => { plan with checksum := some expected }

def setAll (plan : Plan) (settings : List PlanSetting) : Plan := settings.foldl set plan

/-- Reads the module; without an expected checksum any will do. -/
def load (plan : Plan) (files : Files) : Except BuildError Loaded :=
  match plan.source.load files with
  | .error e => .error (.source e)
  | .ok loaded =>
    match plan.checksum with
    | none => .ok loaded
    | some expected =>
      if expected = loaded.checksum then .ok loaded
      else .error (.checksumMismatch expected loaded.checksum)

def compile (engine : Engine) (loaded : Loaded) : Except BuildError Module :=
  match engine.compile loaded.bytes with
  | .error message => .error (.malformedModule message)
  | .ok mod => .ok mod

def link (plan : Plan) (mod : Module) : Except BuildError Linker :=
  match Linker.addAll plan.bindings {} mod.imports with
  | .error e => .error (.ofLinkError e)
  | .ok linker => .ok linker

/-- A budget can only be applied where fuel is counted. -/
def meter (engine : Engine) : Except BuildError Unit :=
  if engine.metered then .ok () else .error (.fuel "fuel is not configured in this store")

/-- All that happens before any guest code runs. -/
def prepare (plan : Plan) (engine : Engine) (files : Files) :
    Except BuildError (Module × Linker) := do
  let loaded ← plan.load files
  let mod ← compile engine loaded
  let linker ← plan.link mod
  meter engine
  return (mod, linker)

/-- Sets up the context, fills tables and memory and runs the start function. -/
def instantiate (plan : Plan) (mod : Module) (linker : Linker) (host : Host)
    (runner : Runner Host := .machine) :
    Except BuildError Instance × Host :=
  let (now, clock) := host.clock.readMonotonic
  let context := plan.context.build now
  let machine : Machine Host := ⟨mod.blankMemory, plan.budget.units, { host with clock }⟩
  match (runner.instantiate mod (linker.imports mod context)).run machine with
  | .ok () m => (.ok { mod, linker, context, memory := m.memory, counter := m.fuel }, m.host)
  | .error stop m => (.error (.instantiate stop), m.host)

def build (plan : Plan) (engine : Engine) (files : Files) (host : Host)
    (runner : Runner Host := .machine) :
    Except BuildError Instance × Host :=
  match plan.prepare engine files with
  | .error e => (.error e, host)
  | .ok (mod, linker) => plan.instantiate mod linker host runner

end Plan

end WasmHost

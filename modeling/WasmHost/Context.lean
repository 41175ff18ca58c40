import WasmHost.Streams

namespace WasmHost

/-- The fuel a guest may use; without a number it is not limited. -/
structure Budget where
  fuel : Option UInt64 := none
deriving DecidableEq

namespace Budget

def unlimited : Budget := {}

def limited (fuel : UInt64) : Budget := ⟨some fuel⟩

/-- The units put on the counter. Unlimited means as many as the counter can be set to. -/
def units (budget : Budget) : Nat := (budget.fuel.getD 0xffffffffffffffff).toNat

end Budget

/-- What a guest may learn and use of its host: arguments, environment, output sinks, and when it
was set up. -/
structure Context where
  args : List String
  env : List (String × String)
  stdout : Sink
  stderr : Sink
  epoch : Nat
deriving DecidableEq

/-- The sink behind a file descriptor. Only 1 and 2 have one. -/
def Context.output? (context : Context) (fd : UInt32) : Option Sink :=
  if fd = 1 then some context.stdout else if fd = 2 then some context.stderr else none

/-- A context in preparation, before its epoch is known. -/
structure ContextDraft where
  args : List String := []
  env : List (String × String) := []
  stdout : Sink := .inherited
  stderr : Sink := .inherited
deriving DecidableEq

inductive ContextSetting
  | arg (value : String)
  | args (values : List String)
  | env (key value : String)
  | stdout (sink : Sink)
  | stderr (sink : Sink)
deriving DecidableEq

namespace ContextDraft

/-- Arguments and variables add up; of sinks the last one counts. -/
def set (draft : ContextDraft) : ContextSetting → ContextDraft
  | .arg value => { draft with args := draft.args ++ [value] }
  | .args values => { draft with args := draft.args ++ values }
  | .env key value => { draft with env := draft.env ++ [(key, value)] }
  | .stdout sink => { draft with stdout := sink }
  | .stderr sink => { draft with stderr := sink }

def setAll (draft : ContextDraft) (settings : List ContextSetting) : ContextDraft :=
  settings.foldl set draft

def build (draft : ContextDraft) (epoch : Nat) : Context :=
  { args := draft.args, env := draft.env, stdout := draft.stdout, stderr := draft.stderr, epoch }

end ContextDraft

end WasmHost

import WasmHost.Host
import WasmHost.Signature
import WasmHost.Stop

namespace WasmHost

/-- What a host function can reach while it runs. The memory is absent when the caller does not
export it. -/
structure Call where
  context : Context
  memory : Option Memory
  results : List Value
  host : Host

/-- A computation of a host function. What it changed stays changed when it stops. -/
abbrev HostM := EStateM Stop Call

/-- A native function with the signature under which it can be imported. -/
structure HostFunc where
  signature : Signature
  run : List Value → HostM Unit

def HostFunc.describe (f : HostFunc) : String :=
  "HostFunc \x7b signature: \"" ++ f.signature.text ++ "\", .. \x7d"

/-- A misuse of the parameters or result slots of a call. -/
inductive SlotError
  | expected (kind : Kind) (index : Nat)
  | noResultSlot (index : Nat)
deriving DecidableEq

def SlotError.message : SlotError → String
  | expected kind index => "expected " ++ kind.name ++ " parameter at " ++ toString index
  | noResultSlot index => "no result slot at " ++ toString index

def paramInt32 (params : List Value) (index : Nat) : Except SlotError Int32 :=
  match params[index]?.bind Value.int32? with
  | some n => .ok n
  | none => .error (.expected .i32 index)

def paramInt64 (params : List Value) (index : Nat) : Except SlotError Int64 :=
  match params[index]?.bind Value.int64? with
  | some n => .ok n
  | none => .error (.expected .i64 index)

/-- Puts a value of any kind into a result slot that exists. -/
def setSlot (results : List Value) (index : Nat) (value : Value) : Except SlotError (List Value) :=
  if index < results.length then .ok (results.set index value) else .error (.noResultSlot index)

namespace HostM

def fail {α : Type} (message : String) : HostM α := throw (.failure message)

def liftSlot {α : Type} : Except SlotError α → HostM α
  | .ok a => pure a
  | .error e => fail e.message

def int32 (params : List Value) (index : Nat) : HostM Int32 := liftSlot (paramInt32 params index)

def int64 (params : List Value) (index : Nat) : HostM Int64 := liftSlot (paramInt64 params index)

def word (params : List Value) (index : Nat) : HostM UInt32 := do
  let n ← int32 params index
  return n.toUInt32

def setResult (index : Nat) (value : Value) : HostM Unit := do
  let results ← liftSlot (setSlot (← get).results index value)
  modify fun call => { call with results }

def memory : HostM Memory := do
  match (← get).memory with
  | some m => return m
  | none => fail "module does not export its memory"

def setMemory (m : Memory) : HostM Unit := modify fun call => { call with memory := some m }

def context : HostM Context := return (← get).context

def host : HostM Host := return (← get).host

def setHost (host : Host) : HostM Unit := modify fun call => { call with host }

end HostM

end WasmHost

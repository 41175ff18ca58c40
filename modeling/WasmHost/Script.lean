import WasmHost.HostFunc

namespace WasmHost

/-- A number that a script gives itself or takes from an `i32` parameter. -/
inductive Operand
  | word (n : UInt32)
  | param (index : Nat)
deriving DecidableEq

/-- One step of a host function that is given as data. -/
inductive Action
  | set (slot : Nat) (value : Value)
  | setParam (slot param : Nat)
  | scale (factor : Int32)
  | noteInt32 (index : Nat)
  | noteInt64 (index : Nat)
  | exit (code : Operand)
  | exitNoted (code : Operand) (note : String)
  | fail (message : String)
  | noteContext
  | noteElapsed
  | check (ptr : Operand) (len : UInt64)
  | read (ptr len : Operand)
  | readUInt32 (ptr : Operand)
  | write (ptr : Operand) (bytes : Bytes)
  | writeUInt32 (ptr value : Operand)
  | writeUInt64 (ptr : Operand) (value : UInt64)
  | nonzero (ptr len : Operand)
deriving DecidableEq

/-- A host function that records its call and then performs actions up to the first that fails. -/
structure Script where
  label : String
  signature : Signature
  actions : List Action

namespace Script

open HostM

def record (entry : Entry) : HostM Unit := do
  let h ← host
  setHost { h with journal := h.journal ++ [entry] }

def operand (params : List Value) : Operand → HostM UInt32
  | .word n => return n
  | .param index => HostM.word params index

/-- Keeps a written memory, if the write succeeded, and says whether it did. -/
def keep : Except OutOfBounds Memory → HostM (Except OutOfBounds Unit)
  | .ok m => do
    setMemory m
    return .ok ()
  | .error e => return .error e

def perform (params : List Value) : Action → HostM Unit
  | .set slot value => setResult slot value
  | .setParam slot index =>
    match params[index]? with
    | some value => setResult slot value
    | none => HostM.fail ("no parameter at " ++ toString index)
  | .scale factor => do
    let n ← int32 params 0
    setResult 0 (.i32 (n * factor).toUInt32)
  | .noteInt32 index => do record (.int32 (← int32 params index))
  | .noteInt64 index => do record (.int64 (← int64 params index))
  | .exit code => do throw (.exit ⟨(← operand params code).toInt32⟩)
  | .exitNoted code note => do throw (.noted note (.exit ⟨(← operand params code).toInt32⟩))
  | .fail message => HostM.fail message
  | .noteContext => do record (.context (← context))
  | .noteElapsed => do
    let h ← host
    let (now, clock) := h.clock.readMonotonic
    setHost { h with clock }
    record (.elapsed (decide ((← context).epoch ≤ now)))
  | .check ptr len => do
    let m ← memory
    record (.check (m.check (← operand params ptr) len))
  | .read ptr len => do
    let m ← memory
    let ptr ← operand params ptr
    record (.read (m.read ptr (← operand params len)))
  | .readUInt32 ptr => do
    let m ← memory
    record (.readUInt32 (m.readUInt32 (← operand params ptr)))
  | .write ptr bytes => do
    let m ← memory
    record (.write (← keep (m.write (← operand params ptr) bytes)))
  | .writeUInt32 ptr value => do
    let m ← memory
    let ptr ← operand params ptr
    record (.writeUInt32 (← keep (m.writeUInt32 ptr (← operand params value))))
  | .writeUInt64 ptr value => do
    let m ← memory
    record (.writeUInt64 (← keep (m.writeUInt64 (← operand params ptr) value)))
  | .nonzero ptr len => do
    let m ← memory
    let ptr ← operand params ptr
    let answer := m.read ptr (← operand params len)
    record (.nonzero (answer.map fun bytes => bytes.any (· != 0)))

def performAll (params : List Value) : List Action → HostM Unit
  | [] => return ()
  | action :: rest => do
    perform params action
    performAll params rest

def run (script : Script) (params : List Value) : HostM Unit := do
  record (.called script.label params)
  performAll params script.actions

def toHostFunc (script : Script) : HostFunc := ⟨script.signature, script.run⟩

end Script

end WasmHost

import WasmHost.Module

namespace WasmHost

/-- What changes while guest code runs: memory, the fuel counter, and a state that only host
functions know. -/
structure Machine (σ : Type) where
  memory : Memory
  fuel : Int
  host : σ

/-- What a call of a host function leaves behind. -/
structure Reply (σ : Type) where
  result : Except Stop (List Value)
  memory : Option Memory
  host : σ

/-- The host functions a module is linked to: by import slot, with the arguments, the memory the
function may see, and the state of the host. -/
abbrev Imports (σ : Type) := Nat → List Value → Option Memory → σ → Reply σ

/-- A run of guest code. What it changed stays changed when it stops. -/
abbrev Exec (σ : Type) := EStateM Stop (Machine σ)

/-- The operand stack of a function, and the fuel used since fuel was last taken off the counter. -/
structure Frame where
  stack : List Value
  owed : Nat

namespace Exec

variable {σ : Type}

def trap {α : Type} (t : Trap) : Exec σ α := throw (.trap t)

/-- Takes owed fuel off the counter, which may thereby fall below zero. -/
def settle (owed : Nat) : Exec σ Unit := modify fun m => { m with fuel := m.fuel - owed }

/-- Begins a function: with no more than one unit left it is not begun. -/
def enter : Exec σ Unit := do
  let m ← get
  if m.fuel - 1 ≤ 0 then
    set { m with fuel := m.fuel - 1 }
    trap .outOfFuel

def exhaust {α : Type} : Exec σ α := do
  modify fun m => { m with fuel := min m.fuel 0 }
  trap .outOfFuel

/-- Runs an instruction. One that fails is forgotten with all that is owed, unless it was bound to
fail: then fuel is taken off first. -/
def runOp (params : List Value) (op : Op) (frame : Frame) : Exec σ Frame := do
  let m ← get
  match op.run params m.memory frame.stack with
  | .ok (memory, stack) =>
    set { m with memory }
    return ⟨stack, frame.owed + op.cost⟩
  | .error t =>
    if op.overshoots m.memory then settle (frame.owed + op.cost)
    trap t

/-- Calls a host function, which sees the memory only if it is offered. -/
def callImport (imports : Imports σ) (offered : Bool) (slot : Nat) (args : List Value) :
    Exec σ (List Value) := do
  let m ← get
  let reply := imports slot args (if offered then some m.memory else none) m.host
  set { m with
    memory := if offered then reply.memory.getD m.memory else m.memory
    host := reply.host }
  match reply.result with
  | .ok values => return values
  | .error stop => throw stop

end Exec

namespace Code

open Exec

variable {σ : Type}

/-- Runs code with a way to call functions and to know how many arguments they take. The answer
tells whether a return was reached. Fuel is taken off at calls, at a trap on purpose and at the
end. -/
def exec (call : Nat → List Value → Exec σ (List Value)) (arity? : Nat → Option Nat)
    (params : List Value) :
    Code → Frame → Exec σ (Bool × Frame)
  | .done, frame => return (false, frame)
  | .op o next, frame => do
    let frame ← runOp params o frame
    next.exec call arity? params frame
  | .call f next, frame => do
    settle (frame.owed + 1)
    match arity? f with
    | none => trap .illTyped
    | some count => do
      let results ← call f (frame.stack.take count).reverse
      next.exec call arity? params ⟨results.reverse ++ frame.stack.drop count, 0⟩
  | .ifNonzero body next, frame =>
    match frame.stack with
    | .i32 condition :: stack =>
      if condition = 0 then next.exec call arity? params ⟨stack, frame.owed + 1⟩
      else do
        let (left, frame) ← body.exec call arity? params ⟨stack, frame.owed + 1⟩
        if left then return (true, frame) else next.exec call arity? params frame
    | _ => trap .illTyped
  | .ret, frame => return (true, frame)
  | .unreachable, frame => do
    settle frame.owed
    trap .unreachable
  | .spin, _ => exhaust

end Code

namespace Function

variable {σ : Type}

/-- The results on top of a stack, if they are there and of the declared types. -/
def results? (f : Function) (stack : List Value) : Option (List Value) :=
  let values := (stack.take f.type.results.length).reverse
  if values.map Value.type = f.type.results then some values else none

def run (f : Function) (call : Nat → List Value → Exec σ (List Value)) (arity? : Nat → Option Nat)
    (args : List Value) : Exec σ (List Value) := do
  Exec.enter
  let (_, frame) ← f.body.exec call arity? args ⟨[], 1⟩
  Exec.settle frame.owed
  match f.results? frame.stack with
  | some values => return values
  | none => Exec.trap .illTyped

end Function

namespace Module

variable {σ : Type}

def maxDepth : Nat := 10000

/-- Calls a function by its index from inside the module, at most `depth` calls deep. -/
def callAt (mod : Module) (imports : Imports σ) : Nat → Nat → List Value → Exec σ (List Value)
  | 0, _, _ => Exec.trap .stackOverflow
  | depth + 1, index, args =>
    match mod.callee? index with
    | some (.imported slot _ _) => Exec.callImport imports mod.offersMemory slot args
    | some (.defined f) => f.run (mod.callAt imports depth) mod.arity? args
    | none => Exec.trap .illTyped

/-- Calls a function from outside. An import has no calling module then, so it sees no memory and
costs nothing. -/
def callExport (mod : Module) (imports : Imports σ) (index : Nat) (args : List Value) :
    Exec σ (List Value) :=
  match mod.callee? index with
  | some (.imported slot _ _) => Exec.callImport imports false slot args
  | _ => mod.callAt imports maxDepth index args

/-- Fills tables and memory, and then runs the start function. -/
def instantiate (mod : Module) (imports : Imports σ) : Exec σ Unit := do
  let m ← get
  match mod.place m.memory with
  | .error t => Exec.trap t
  | .ok memory =>
    set { m with memory }
    match mod.start with
    | none => return ()
    | some index =>
      let _ ← mod.callAt imports maxDepth index []
      return ()

end Module

/-- What runs guest code: a call of a function from outside, and all that is run when an instance is
made. -/
structure Runner (σ : Type) where
  call : Module → Imports σ → Nat → List Value → Exec σ (List Value)
  instantiate : Module → Imports σ → Exec σ Unit

/-- The machine of this library. -/
def Runner.machine {σ : Type} : Runner σ := ⟨Module.callExport, Module.instantiate⟩

end WasmHost

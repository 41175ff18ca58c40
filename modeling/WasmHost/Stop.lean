import WasmHost.Outcome

namespace WasmHost

/-- What the guest's own code can be stopped for. -/
inductive Trap
  | unreachable
  | outOfFuel
  | memoryOutOfBounds
  | tableOutOfBounds
  | stackOverflow
  | illTyped
deriving DecidableEq

def Trap.message : Trap → String
  | unreachable => "unreachable instruction executed"
  | outOfFuel => "all fuel consumed"
  | memoryOutOfBounds => "out of bounds memory access"
  | tableOutOfBounds => "undefined element: out of bounds table access"
  | stackOverflow => "call stack exhausted"
  | illTyped => "ill-typed code"

/-- Why a call did not return: the guest asked to end, trapped, or a host function failed. Notes may
be added on the way. -/
inductive Stop
  | exit (signal : ExitSignal)
  | trap (trap : Trap)
  | failure (message : String)
  | noted (note : String) (stop : Stop)
deriving DecidableEq

namespace Stop

/-- The stop below all notes. -/
def cause : Stop → Stop
  | noted _ stop => stop.cause
  | stop => stop

/-- The exit signal that a stop carries, under any number of notes. -/
def exitSignal? : Stop → Option ExitSignal
  | exit signal => some signal
  | noted _ stop => stop.exitSignal?
  | _ => none

def message : Stop → String
  | exit signal => signal.text
  | trap t => t.message
  | failure message => message
  | noted note stop => note ++ ": " ++ stop.message

theorem exitSignal?_eq_some_iff {stop : Stop} {signal : ExitSignal} :
    stop.exitSignal? = some signal ↔ stop.cause = exit signal := by
  induction stop with
  | exit | trap | failure => simp [exitSignal?, cause]
  | noted note stop ih => simpa [exitSignal?, cause] using ih

end Stop

end WasmHost

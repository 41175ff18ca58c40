namespace WasmHost

/-- A request of the guest to end, with a status code of its choice. -/
structure ExitSignal where
  code : Int32
deriving DecidableEq

def ExitSignal.text (signal : ExitSignal) : String :=
  "exited with status " ++ toString signal.code.toInt

/-- How a call that did not fail ended. -/
inductive Outcome (α : Type)
  | returned (value : α)
  | exited (signal : ExitSignal)
deriving DecidableEq

namespace Outcome

def isExit {α : Type} : Outcome α → Bool
  | returned _ => false
  | exited _ => true

def returned? {α : Type} : Outcome α → Option α
  | returned value => some value
  | exited _ => none

def exitSignal? {α : Type} : Outcome α → Option ExitSignal
  | returned _ => none
  | exited signal => some signal

def map {α β : Type} (f : α → β) : Outcome α → Outcome β
  | returned value => returned (f value)
  | exited signal => exited signal

end Outcome

end WasmHost

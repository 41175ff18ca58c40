import WasmHost.Context
import WasmHost.Memory.Access
import WasmHost.Value

namespace WasmHost

/-- The host's two clocks, in nanoseconds, as functions of how often they have been read. -/
structure Clock where
  /-- Time since the Unix epoch; a clock may be set to before it. -/
  realtime : Nat → Int
  monotonic : Nat → Nat
  readings : Nat := 0

namespace Clock

def readRealtime (c : Clock) : Int × Clock :=
  (c.realtime c.readings, { c with readings := c.readings + 1 })

def readMonotonic (c : Clock) : Nat × Clock :=
  (c.monotonic c.readings, { c with readings := c.readings + 1 })

end Clock

/-- A supply of random bytes, and how many of them have been used. -/
structure Entropy where
  source : Nat → UInt8
  drawn : Nat := 0

def Entropy.draw (e : Entropy) (len : Nat) : Bytes × Entropy :=
  ((List.range' e.drawn len).map e.source, { e with drawn := e.drawn + len })

/-- An observation that a host function left in the journal. -/
inductive Entry
  | called (label : String) (args : List Value)
  | int32 (n : Int32)
  | int64 (n : Int64)
  | context (context : Context)
  | elapsed (forward : Bool)
  | check (answer : Except OutOfBounds Unit)
  | read (answer : Except OutOfBounds Bytes)
  | readUInt32 (answer : Except OutOfBounds UInt32)
  | write (answer : Except OutOfBounds Unit)
  | writeUInt32 (answer : Except OutOfBounds Unit)
  | writeUInt64 (answer : Except OutOfBounds Unit)
  | nonzero (answer : Except OutOfBounds Bool)

/-- What all instances of one host share. -/
structure Host where
  streams : Streams := {}
  clock : Clock
  entropy : Entropy
  journal : List Entry := []

end WasmHost

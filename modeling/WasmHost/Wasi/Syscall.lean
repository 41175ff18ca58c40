import WasmHost.HostFunc
import WasmHost.Wasi.Strings

namespace WasmHost.Wasi

open HostM

/-- A function that answers with an error number unless it fails as a whole. -/
abbrev Syscall := List Value → HostM Errno

/-- Stores the memory after a write and answers `success`, or answers `fault` for a range that does
not exist. -/
def commit : Except OutOfBounds Memory → HostM Errno
  | .ok m => do
    setMemory m
    return .success
  | .error _ => return .fault

/-- Stores the memory that is left whatever the answer. -/
def commitPart (r : Errno × Memory) : HostM Errno := do
  setMemory r.2
  return r.1

/-- The clocks that a guest can name. -/
inductive ClockId
  | realtime
  | monotonic
  | processCpu
  | threadCpu
deriving DecidableEq

def ClockId.ofInt32? (id : Int32) : Option ClockId :=
  if id = 0 then some .realtime
  else if id = 1 then some .monotonic
  else if id = 2 then some .processCpu
  else if id = 3 then some .threadCpu
  else none

/-- The largest number of nanoseconds that is reported; a later time reads the same. -/
def maxNanos : Nat := 0xffffffffffffffff

/-- Nanoseconds since the Unix epoch, zero before it. -/
def readRealtime : HostM UInt64 := do
  let h ← host
  let (nanos, clock) := h.clock.readRealtime
  setHost { h with clock }
  return UInt64.ofNat (min nanos.toNat maxNanos)

/-- Nanoseconds since the epoch of the context. -/
def readMonotonic : HostM UInt64 := do
  let h ← host
  let (nanos, clock) := h.clock.readMonotonic
  setHost { h with clock }
  return UInt64.ofNat (min (nanos - (← context).epoch) maxNanos)

def writeTime (out : UInt32) (nanos : UInt64) : HostM Errno := do
  commit ((← memory).writeUInt64 out nanos)

def procExit (params : List Value) : HostM Unit := do
  let code ← int32 params 0
  throw (.exit ⟨code⟩)

def clockTimeGet : Syscall := fun params => do
  let id ← int32 params 0
  let _precision ← int64 params 1
  let out ← word params 2
  match ClockId.ofInt32? id with
  | some .realtime => writeTime out (← readRealtime)
  | some .monotonic => writeTime out (← readMonotonic)
  | some .processCpu | some .threadCpu => return .notsup
  | none => return .inval

/-- Both clocks claim to tick every nanosecond. -/
def clockResGet : Syscall := fun params => do
  let id ← int32 params 0
  let out ← word params 1
  match ClockId.ofInt32? id with
  | some .realtime | some .monotonic => writeTime out 1
  | some .processCpu | some .threadCpu => return .notsup
  | none => return .inval

/-- Tells how many strings there are and how many bytes they take. -/
def stringSizes (params : List Value) (strings : List Bytes) : HostM Errno := do
  let countOut ← word params 0
  let sizeOut ← word params 1
  if strings.length < UInt32.size ∧ totalSize strings < UInt32.size then
    commitPart (writeSizes (← memory) countOut sizeOut (UInt32.ofNat strings.length)
      (UInt32.ofNat (totalSize strings)))
  else
    return .inval

/-- Hands strings over in an array of addresses and a buffer. -/
def stringsGet (params : List Value) (strings : List Bytes) : HostM Errno := do
  let list ← word params 0
  let buf ← word params 1
  commitPart (writeStrings (← memory) list buf strings)

/-- Goes on with the strings closed by a NUL; one that cannot be closed is refused before anything
else. -/
def withStrings (strings : List String) (next : List Bytes → HostM Errno) : HostM Errno :=
  match allTerminated? strings with
  | some strings => next strings
  | none => return .inval

def argsSizesGet : Syscall := fun params => do
  withStrings (← context).args (stringSizes params)

def argsGet : Syscall := fun params => do
  withStrings (← context).args (stringsGet params)

def environSizesGet : Syscall := fun params => do
  withStrings (envStrings (← context).env) (stringSizes params)

def environGet : Syscall := fun params => do
  withStrings (envStrings (← context).env) (stringsGet params)

/-- Sends bytes to a sink and then stores their number. The number is stored last, so output can be
out and the answer still be an error. -/
def emit (m : Memory) (sink : Sink) (fd : UInt32) (bytes : Bytes) (countOut : UInt32) :
    HostM Errno := do
  let h ← host
  let (taken, streams) := h.streams.write sink fd bytes
  setHost { h with streams }
  if taken then
    if bytes.length < UInt32.size then
      commit (m.writeUInt32 countOut (UInt32.ofNat bytes.length))
    else
      return .inval
  else
    return .io

def fdWrite : Syscall := fun params => do
  let fd ← word params 0
  let iovs ← word params 1
  let count ← word params 2
  let countOut ← word params 3
  match (← context).output? fd with
  | none => return .badf
  | some sink =>
    let m ← memory
    match gather m iovs count.toNat with
    | .error _ => return .fault
    | .ok bytes => emit m sink fd bytes countOut

def randomGet : Syscall := fun params => do
  let buf ← word params 0
  let len ← word params 1
  let m ← memory
  match m.check buf len.toUInt64 with
  | .error _ => return .fault
  | .ok () =>
    let h ← host
    let (bytes, entropy) := h.entropy.draw len.toNat
    setHost { h with entropy }
    commit (m.write buf bytes)

def schedYield : Syscall := fun _ => return .success

end WasmHost.Wasi

import WasmHost.Memory.Access
import WasmHost.Wasi.Errno

namespace WasmHost.Wasi

/-- A text as the guest receives it, closed by a NUL; one with a NUL inside cannot be handed
over. -/
def nulTerminated? (s : String) : Option Bytes :=
  if '\x00' ∈ s.toList then none else some (Bytes.ofString s ++ [0])

/-- All texts closed by a NUL, or nothing if one of them cannot be. -/
def allTerminated? : List String → Option (List Bytes)
  | [] => some []
  | s :: rest => do
    let bytes ← nulTerminated? s
    let others ← allTerminated? rest
    return bytes :: others

def envStrings (env : List (String × String)) : List String :=
  env.map fun (key, value) => key ++ "=" ++ value

/-- The bytes that strings take together. -/
def totalSize : List Bytes → Nat
  | [] => 0
  | s :: rest => s.length + totalSize rest

/-- Writes the address of each string into the array at `list` and the string itself at `buf`, one
behind the other. Stops at the first write outside the memory and keeps those before it. -/
def writeStrings (m : Memory) (list buf : UInt32) : List Bytes → Errno × Memory
  | [] => (.success, m)
  | s :: rest =>
    match m.writeUInt32 list buf with
    | .error _ => (.fault, m)
    | .ok m =>
      match m.write buf s with
      | .error _ => (.fault, m)
      | .ok m => writeStrings m (list + 4) (buf + UInt32.ofNat s.length) rest

/-- Writes two words, the second only if the first could be written. -/
def writeSizes (m : Memory) (countOut sizeOut count size : UInt32) : Errno × Memory :=
  match m.writeUInt32 countOut count with
  | .error _ => (.fault, m)
  | .ok m =>
    match m.writeUInt32 sizeOut size with
    | .error _ => (.fault, m)
    | .ok m => (.success, m)

/-- Collects the buffers that `count` consecutive records of base and length at `iov` name. -/
def gather (m : Memory) (iov : UInt32) : Nat → Except OutOfBounds Bytes
  | 0 => .ok []
  | count + 1 => do
    let base ← m.readUInt32 iov
    let len ← m.readUInt32 (iov + 4)
    let bytes ← m.read base len
    let rest ← gather m (iov + 8) count
    return bytes ++ rest

end WasmHost.Wasi

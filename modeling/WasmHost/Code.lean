import WasmHost.Memory
import WasmHost.Stop
import WasmHost.Value

namespace WasmHost

/-- Arithmetic on the top of the stack; all of it wraps. -/
inductive Arith
  | addInt32
  | subInt32
  | mulInt32
  | eqzInt32
  | addInt64
  | extendSigned
  | extendUnsigned
  | wrapInt64
deriving DecidableEq

namespace Arith

/-- The stack afterwards, unless the operands are missing or of another kind. -/
def eval : Arith → List Value → Option (List Value)
  | addInt32, .i32 y :: .i32 x :: stack => some (.i32 (x + y) :: stack)
  | subInt32, .i32 y :: .i32 x :: stack => some (.i32 (x - y) :: stack)
  | mulInt32, .i32 y :: .i32 x :: stack => some (.i32 (x * y) :: stack)
  | eqzInt32, .i32 x :: stack => some (.i32 (if x = 0 then 1 else 0) :: stack)
  | addInt64, .i64 y :: .i64 x :: stack => some (.i64 (x + y) :: stack)
  | extendSigned, .i32 x :: stack => some (.i64 x.toInt32.toInt64.toUInt64 :: stack)
  | extendUnsigned, .i32 x :: stack => some (.i64 x.toUInt64 :: stack)
  | wrapInt64, .i64 x :: stack => some (.i32 x.toUInt32 :: stack)
  | _, _ => none

end Arith

/-- How much of memory one access touches. -/
inductive Width
  | byte
  | word
  | long
deriving DecidableEq

namespace Width

def bytes : Width → Nat
  | byte => 1
  | word => 4
  | long => 8

/-- The value that loaded bytes stand for; a single byte is extended with zeros. -/
def load : Width → Bytes → Value
  | byte, bs => .i32 bs.toUInt32
  | word, bs => .i32 bs.toUInt32
  | long, bs => .i64 bs.toUInt64

/-- The bytes to store for a value, if its kind fits the width. -/
def store? : Width → Value → Option Bytes
  | byte, .i32 x => some (Bytes.ofNat 1 x.toNat)
  | word, .i32 x => some (Bytes.ofUInt32 x)
  | long, .i64 x => some (Bytes.ofUInt64 x)
  | _, _ => none

end Width

/-- An instruction that neither calls nor branches. -/
inductive Op
  | const (value : Value)
  | get (param : Nat)
  | drop
  | nop
  | arith (f : Arith)
  | load (width : Width) (offset : Nat)
  | store (width : Width) (offset : Nat)
  | memorySize
  | memoryGrow
deriving DecidableEq

namespace Op

def cost : Op → Nat
  | drop | nop => 0
  | _ => 1

/-- Whether an instruction reads or writes beyond the end that the memory has when it is fully
grown, whatever the address. -/
def overshoots (m : Memory) : Op → Bool
  | load width offset | store width offset => Memory.pageSize * m.limit < offset + width.bytes
  | _ => false

/-- Memory and stack after an instruction. Addresses do not wrap: one plus its offset may lie beyond
every memory. -/
def run (params : List Value) (m : Memory) : Op → List Value → Except Trap (Memory × List Value)
  | const value, stack => .ok (m, value :: stack)
  | get i, stack =>
    match params[i]? with
    | some value => .ok (m, value :: stack)
    | none => .error .illTyped
  | drop, _ :: stack => .ok (m, stack)
  | nop, stack => .ok (m, stack)
  | arith f, stack =>
    match f.eval stack with
    | some stack => .ok (m, stack)
    | none => .error .illTyped
  | load width offset, .i32 address :: stack =>
    match m.read? (address.toNat + offset) width.bytes with
    | some bytes => .ok (m, width.load bytes :: stack)
    | none => .error .memoryOutOfBounds
  | store width offset, value :: .i32 address :: stack =>
    match width.store? value with
    | none => .error .illTyped
    | some bytes =>
      match m.write? (address.toNat + offset) bytes with
      | some m => .ok (m, stack)
      | none => .error .memoryOutOfBounds
  | memorySize, stack => .ok (m, .i32 (UInt32.ofNat m.pages) :: stack)
  | memoryGrow, .i32 extra :: stack =>
    match m.grow? extra.toNat with
    | some grown => .ok (grown, .i32 (UInt32.ofNat m.pages) :: stack)
    | none => .ok (m, .i32 0xffffffff :: stack)
  | _, _ => .error .illTyped

end Op

/-- Code of a function. What follows a return, a trap or an endless loop is never reached and has no
place here. -/
inductive Code
  | done
  | op (op : Op) (next : Code)
  | call (function : Nat) (next : Code)
  | ifNonzero (body next : Code)
  | ret
  | unreachable
  | spin
deriving DecidableEq

end WasmHost

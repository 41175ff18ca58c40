import WasmHost.Bytes

namespace WasmHost

/-- A running Adler-32: the sum of the bytes plus one, and the sum of those sums, both modulo
65521. -/
@[ext] structure Checksum where
  a : UInt32
  b : UInt32
deriving DecidableEq

namespace Checksum

/-- The largest prime below `2 ^ 16`. -/
def modulus : UInt32 := 65521

/-- The most bytes that can be summed before a reduction without leaving 32 bits. -/
def blockSize : Nat := 5552

def start : Checksum := ⟨1, 0⟩

/-- The state that a finished checksum stands for; halves out of range are reduced. -/
def resume (sum : UInt32) : Checksum :=
  ⟨(sum &&& 0xffff) % modulus, (sum >>> 16) % modulus⟩

/-- Both sums packed into one word, the sum of sums in the upper half. -/
def finish (s : Checksum) : UInt32 := (s.b <<< 16) ||| s.a

/-- Adds one byte, without reducing. -/
def addByte (s : Checksum) (x : UInt8) : Checksum :=
  ⟨s.a + x.toUInt32, s.b + (s.a + x.toUInt32)⟩

def reduce (s : Checksum) : Checksum := ⟨s.a % modulus, s.b % modulus⟩

def addBlock (s : Checksum) (block : Bytes) : Checksum := (block.foldl addByte s).reduce

/-- Cuts bytes into blocks of `size`, the last possibly shorter; a block has at least one byte. -/
def blocks (size : Nat) : Bytes → List Bytes
  | [] => []
  | x :: xs => (x :: xs.take (size - 1)) :: blocks size (xs.drop (size - 1))
termination_by bytes => bytes.length
decreasing_by
  simp only [List.length_drop, List.length_cons]
  omega

def update (s : Checksum) (bytes : Bytes) : Checksum := (blocks blockSize bytes).foldl addBlock s

/-- Adds one byte and reduces each sum as soon as it is taken. -/
def addReduced (s : Checksum) (x : UInt8) : Checksum :=
  let a := (s.a + x.toUInt32) % modulus
  ⟨a, (s.b + a) % modulus⟩

def updateEach (s : Checksum) (bytes : Bytes) : Checksum := bytes.foldl addReduced s

/-- Takes the whole of a piece that is written to the checksum, and tells how long it was. -/
def write (s : Checksum) (piece : Bytes) : Nat × Checksum := (piece.length, s.update piece)

def ofBytes (bytes : Bytes) : UInt32 := (start.update bytes).finish

def describe (s : Checksum) : String :=
  "Adler32 \x7b a: " ++ toString s.a.toNat ++ ", b: " ++ toString s.b.toNat ++ " \x7d"

@[simp] theorem blocks_nil (size : Nat) : blocks size [] = [] := by rw [blocks]

@[simp] theorem update_nil (s : Checksum) : s.update [] = s := by simp [update]

theorem flatten_blocks (size : Nat) (bytes : Bytes) : (blocks size bytes).flatten = bytes := by
  fun_induction blocks size bytes with
  | case1 => rfl
  | case2 x xs ih => simp [ih]

theorem length_le_of_mem_blocks {size : Nat} (hsize : 0 < size) {bytes block : Bytes}
    (h : block ∈ blocks size bytes) : block.length ≤ size := by
  fun_induction blocks size bytes with
  | case1 => simp at h
  | case2 x xs ih =>
    rcases List.mem_cons.mp h with rfl | h
    · simp; omega
    · exact ih h

end Checksum

end WasmHost

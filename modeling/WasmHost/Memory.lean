import Std.Data.TreeMap.Lemmas
import WasmHost.Bytes

namespace WasmHost

/-- A linear memory: so many pages, and the cells that were ever written. All other cells hold
zero. -/
structure Memory where
  pages : Nat
  limit : Nat
  cells : Std.TreeMap Nat UInt8 := ∅

namespace Memory

def pageSize : Nat := 65536

/-- The most pages that 32-bit addresses can reach. -/
def maxPages : Nat := 65536

def zeroed (pages limit : Nat) : Memory := { pages, limit }

def size (m : Memory) : Nat := pageSize * m.pages

def byte (m : Memory) (i : Nat) : UInt8 := m.cells.getD i 0

def setByte (m : Memory) (i : Nat) (b : UInt8) : Memory := { m with cells := m.cells.insert i b }

/-- Puts bytes into consecutive cells, whether they exist or not. -/
def store (m : Memory) (start : Nat) : Bytes → Memory
  | [] => m
  | b :: bs => (m.setByte start b).store (start + 1) bs

/-- The bytes of `[start, start + len)`, when that range exists. -/
def read? (m : Memory) (start len : Nat) : Option Bytes :=
  if start + len ≤ m.size then some ((List.range' start len).map m.byte) else none

/-- Writes bytes at `start` when the whole range exists; otherwise nothing is written. -/
def write? (m : Memory) (start : Nat) (bytes : Bytes) : Option Memory :=
  if start + bytes.length ≤ m.size then some (m.store start bytes) else none

/-- Appends pages of zeros, unless the limit is in the way. -/
def grow? (m : Memory) (extra : Nat) : Option Memory :=
  if m.pages + extra ≤ m.limit then some { m with pages := m.pages + extra } else none

@[simp] theorem byte_zeroed (pages limit i : Nat) : (zeroed pages limit).byte i = 0 := by
  simp [zeroed, byte]

@[simp] theorem size_setByte (m : Memory) (i : Nat) (b : UInt8) : (m.setByte i b).size = m.size :=
  rfl

theorem byte_setByte (m : Memory) (i j : Nat) (b : UInt8) :
    (m.setByte i b).byte j = if j = i then b else m.byte j := by
  simp only [byte, setByte, Std.TreeMap.getD_insert, Nat.compare_eq_eq]
  congr 1
  exact propext eq_comm

@[simp] theorem store_nil (m : Memory) (start : Nat) : m.store start [] = m := rfl

@[simp] theorem store_cons (m : Memory) (start : Nat) (b : UInt8) (bs : Bytes) :
    m.store start (b :: bs) = (m.setByte start b).store (start + 1) bs := rfl

@[simp] theorem size_store (m : Memory) (start : Nat) (bytes : Bytes) :
    (m.store start bytes).size = m.size := by
  induction bytes generalizing m start with
  | nil => rfl
  | cons b bs ih => simp [ih]

theorem byte_store (m : Memory) (start i : Nat) (bytes : Bytes) :
    (m.store start bytes).byte i =
      if start ≤ i then bytes.getD (i - start) (m.byte i) else m.byte i := by
  induction bytes generalizing m start with
  | nil => simp
  | cons b bs ih =>
    rw [store_cons, ih, byte_setByte]
    rcases Nat.lt_trichotomy i start with h | rfl | h
    · rw [if_neg (by omega), if_neg (by omega), if_neg (by omega)]
    · rw [if_neg (by omega), if_pos rfl, if_pos (Nat.le_refl _)]; simp
    · rw [if_pos (by omega), if_neg (by omega), if_pos (by omega),
        show i - start = i - (start + 1) + 1 by omega]
      simp

/-- Outside the range that is stored to, nothing changes. -/
theorem byte_store_of_outside {m : Memory} {start i : Nat} {bytes : Bytes}
    (h : i < start ∨ start + bytes.length ≤ i) : (m.store start bytes).byte i = m.byte i := by
  rw [byte_store]
  split
  · rw [List.getD_eq_getElem?_getD, List.getElem?_eq_none (by omega), Option.getD_none]
  · rfl

end Memory

end WasmHost

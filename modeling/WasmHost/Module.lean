import WasmHost.Code
import WasmHost.HostTable

namespace WasmHost

/-- What a module wants from an import: a function of some type, or something that no host function
can be. -/
inductive ImportType
  | func (type : FuncType)
  | other
deriving DecidableEq

structure Import where
  name : ImportName
  type : ImportType
deriving DecidableEq

structure Function where
  type : FuncType
  body : Code
deriving DecidableEq

/-- What a module shows under a name. Tables and globals count as other. -/
inductive Export
  | func (index : Nat)
  | memory
  | other
deriving DecidableEq

structure Segment where
  offset : UInt32
  bytes : Bytes
deriving DecidableEq

/-- So many functions that are put into a table when an instance is made. No instruction here looks
at them again. -/
structure ElementSegment where
  table : Nat
  offset : UInt32
  length : Nat
deriving DecidableEq

/-- The pages a memory starts with, and how many it may have. -/
structure MemoryType where
  pages : Nat
  limit : Nat := Memory.maxPages
deriving DecidableEq

structure Module where
  imports : List Import := []
  functions : List Function := []
  exports : List (String × Export) := []
  /-- The entries that each table starts with. -/
  tables : List Nat := []
  elements : List ElementSegment := []
  memory : Option MemoryType := none
  segments : List Segment := []
  start : Option Nat := none
deriving DecidableEq

inductive Callee
  | imported (slot : Nat) (name : ImportName) (type : FuncType)
  | defined (function : Function)
deriving DecidableEq

def Callee.type : Callee → FuncType
  | imported _ _ type => type
  | defined function => function.type

namespace Module

/-- The export under which a module offers its memory to host functions. -/
def memoryExport : String := "memory"

def functionImports (mod : Module) : List (ImportName × FuncType) :=
  mod.imports.filterMap fun i =>
    match i.type with
    | .func type => some (i.name, type)
    | .other => none

/-- Function indices count the imported functions first and then the defined ones. -/
def callee? (mod : Module) (index : Nat) : Option Callee :=
  match mod.functionImports[index]? with
  | some (name, type) => some (.imported index name type)
  | none => (mod.functions[index - mod.functionImports.length]?).map .defined

def arity? (mod : Module) (index : Nat) : Option Nat :=
  (mod.callee? index).map (·.type.params.length)

def exportedFunction? (mod : Module) (name : String) : Option Nat :=
  match mod.exports.lookup name with
  | some (.func index) => some index
  | _ => none

def offersMemory (mod : Module) : Bool := mod.exports.lookup memoryExport == some .memory

/-- The memory before any segment; a module without one has none that could be read or grown. -/
def blankMemory (mod : Module) : Memory :=
  match mod.memory with
  | some type => .zeroed type.pages type.limit
  | none => .zeroed 0 0

/-- Puts element segments into their tables in order. An empty one, too, has to begin inside its
table or at its end. -/
def placeElements (tables : List Nat) : List ElementSegment → Except Trap Unit
  | [] => .ok ()
  | e :: rest =>
    if e.offset.toNat + e.length ≤ tables.getD e.table 0 then placeElements tables rest
    else .error .tableOutOfBounds

/-- Writes segments in order. An empty one, too, has to begin inside the memory or at its end. -/
def writeSegments (m : Memory) : List Segment → Except Trap Memory
  | [] => .ok m
  | s :: rest =>
    match m.write? s.offset.toNat s.bytes with
    | some m => writeSegments m rest
    | none => .error .memoryOutOfBounds

/-- Fills tables, then memory. -/
def place (mod : Module) (m : Memory) : Except Trap Memory :=
  match placeElements mod.tables mod.elements with
  | .ok () => writeSegments m mod.segments
  | .error t => .error t

end Module

end WasmHost

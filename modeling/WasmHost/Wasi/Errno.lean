namespace WasmHost.Wasi

/-- The error numbers that the functions answer with. -/
inductive Errno
  | success
  | badf
  | fault
  | inval
  | io
  | notsup
deriving DecidableEq

namespace Errno

def code : Errno → UInt32
  | success => 0
  | badf => 8
  | fault => 21
  | inval => 28
  | io => 29
  | notsup => 58

def all : List Errno := [success, badf, fault, inval, io, notsup]

theorem code_injective {e f : Errno} (h : e.code = f.code) : e = f := by
  revert h; cases e <;> cases f <;> decide

end Errno

end WasmHost.Wasi

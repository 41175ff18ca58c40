import WasmHost.HostTable
import WasmHost.Wasi.Syscall

namespace WasmHost.Wasi

def importSpace : String := "wasi_snapshot_preview1"

/-- The error number becomes the one result of the function. -/
def Syscall.toHostFunc (params : List Kind) (syscall : Syscall) : HostFunc where
  signature := ⟨params, [.i32]⟩
  run args := do
    let errno ← syscall args
    HostM.setResult 0 (.i32 errno.code)

/-- All functions, in the order in which they are installed. -/
def catalogue : List (String × HostFunc) :=
  [("proc_exit", ⟨⟨[.i32], []⟩, procExit⟩),
   ("clock_time_get", Syscall.toHostFunc [.i32, .i64, .i32] clockTimeGet),
   ("clock_res_get", Syscall.toHostFunc [.i32, .i32] clockResGet),
   ("args_sizes_get", Syscall.toHostFunc [.i32, .i32] argsSizesGet),
   ("args_get", Syscall.toHostFunc [.i32, .i32] argsGet),
   ("environ_sizes_get", Syscall.toHostFunc [.i32, .i32] environSizesGet),
   ("environ_get", Syscall.toHostFunc [.i32, .i32] environGet),
   ("fd_write", Syscall.toHostFunc [.i32, .i32, .i32, .i32] fdWrite),
   ("random_get", Syscall.toHostFunc [.i32, .i32] randomGet),
   ("sched_yield", Syscall.toHostFunc [] schedYield)]

def entries : List (ImportName × HostFunc) :=
  catalogue.map fun (name, func) => (⟨importSpace, name⟩, func)

/-- Adds every function to a table. -/
def install (table : HostTable) : HostTable := table.insertAll entries

def table : HostTable := install .empty

end WasmHost.Wasi

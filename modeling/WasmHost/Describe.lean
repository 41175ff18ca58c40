import WasmHost.Instance
import WasmHost.Text.Quoted

namespace WasmHost

namespace Text

def bracketed (items : List String) : String := "[" ++ ", ".intercalate items ++ "]"

/-- A record of named fields, with dots for those that are not told. -/
def record (name : String) (fields : List (String × String)) (isOpen : Bool) : String :=
  name ++ " \x7b " ++ ", ".intercalate (fields.map fun (field, value) => field ++ ": " ++ value) ++
    (if isOpen then ", .. \x7d" else " \x7d")

end Text

open Text

def Streams.describe (s : Streams) : Sink → String
  | .inherited => "Inherit"
  | .discard => "Discard"
  | .capture name =>
    let bytes := (s.captured? name).getD []
    let buffer := record "Mutex"
      [("data", bracketed (bytes.map fun b => toString b.toNat)), ("poisoned", "false")] true
    "Capture(" ++ record "Capture" [("buf", buffer)] false ++ ")"

/-- A context; its epoch is a point in time that is left open. -/
def Context.describe (context : Context) (streams : Streams) : String :=
  record "HostCtx"
    [("args", bracketed (context.args.map quoted)),
     ("env", bracketed (context.env.map fun (key, value) =>
       "(" ++ quoted key ++ ", " ++ quoted value ++ ")")),
     ("stdout", streams.describe context.stdout),
     ("stderr", streams.describe context.stderr),
     ("epoch", "_")] false

def Instance.describe (inst : Instance) (streams : Streams) : String :=
  record "Instance" [("context", inst.context.describe streams)] true

def engineDescription : String := "Runtime \x7b .. \x7d"

end WasmHost

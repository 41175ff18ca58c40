import WasmHost.Plan
import WasmHost.Wasi

namespace WasmHost

/-- How a run ended that did not fail. -/
inductive Status
  | returned
  | exited (code : Int32)
deriving DecidableEq

namespace Status

def code : Status → Int32
  | returned => 0
  | exited code => code

/-- The exit status of the process. A code that does not fit must not wrap around into a success. -/
def report (status : Status) : UInt8 :=
  if 0 ≤ status.code.toInt ∧ status.code.toInt ≤ 255 then UInt8.ofNat status.code.toInt.toNat else 1

end Status

inductive RunError
  | engine (message : String)
  | build (error : BuildError)
  | invoke (error : InvokeError)
deriving DecidableEq

namespace RunError

def buildFailed : UInt8 := 126

def noEntry : UInt8 := 127

def faulted : UInt8 := 134

def exitCode : RunError → UInt8
  | engine _ | build _ => buildFailed
  | invoke (.executionFault _) => faulted
  | invoke _ => noEntry

/-- The text of the error and of each error below it, the outermost first. -/
def chain : RunError → List String
  | engine message => ["Runtime error: Engine error: " ++ message, "Engine error: " ++ message]
  | build (.source e) =>
    ["Build error: " ++ (BuildError.source e).message, (BuildError.source e).message, e.message]
  | build e => ["Build error: " ++ e.message, e.message]
  | invoke e => ["Invoke error: " ++ e.message, e.message]

def message (e : RunError) : String := e.chain.headD ""

def reportLine (e : RunError) : String := "Error: " ++ e.message ++ "\n"

end RunError

/-- The exit status of a process that reports how its run ended. -/
def exitStatus : Except RunError Status → UInt8
  | .ok status => status.report
  | .error e => e.exitCode

/-- A run of a module's entry point, from its source to a status. -/
structure Launch where
  source : Source
  engine : Option Engine := none
  args : List String := []
  env : List (String × String) := []
  budget : Budget := .unlimited
  stdout : Sink := .inherited
  stderr : Sink := .inherited
  table : Option HostTable := none
  checksum : Option UInt32 := none

inductive LaunchSetting
  | engine (engine : Engine)
  | args (values : List String)
  | env (key value : String)
  | budget (budget : Budget)
  | stdout (sink : Sink)
  | stderr (sink : Sink)
  | table (table : HostTable)
  | checksum (expected : UInt32)

namespace Launch

def entryPoint : String := "_start"

/-- Arguments and variables add up; of everything else the last setting counts. -/
def set (l : Launch) : LaunchSetting → Launch
  | .engine engine => { l with engine := some engine }
  | .args values => { l with args := l.args ++ values }
  | .env key value => { l with env := l.env ++ [(key, value)] }
  | .budget budget => { l with budget }
  | .stdout sink => { l with stdout := sink }
  | .stderr sink => { l with stderr := sink }
  | .table table => { l with table := some table }
  | .checksum expected => { l with checksum := some expected }

def setAll (l : Launch) (settings : List LaunchSetting) : Launch := settings.foldl set l

def start (source : Source) : Launch := { source }

/-- A file with default settings; its path is the first argument. -/
def ofPath (path : String) : Launch := { source := .file path, args := [path] }

/-- The settings of the plan that a run is built from. Without a table of its own it offers the WASI
functions. -/
def planSettings (l : Launch) : List PlanSetting :=
  [.offerTable (l.table.getD Wasi.table), .budget l.budget,
   .context ([.args l.args, .stdout l.stdout, .stderr l.stderr] ++
     l.env.map fun (key, value) => .env key value)] ++
  l.checksum.toList.map .checksum

def plan (l : Launch) : Plan := (Plan.start l.source).setAll l.planSettings

def entryStatus : Outcome Unit → Status
  | .returned () => .returned
  | .exited signal => .exited signal.code

/-- Calls the entry point of an instance as a function of nothing. -/
def enter (inst : Instance) (host : Host) : Except RunError Status × Host :=
  match inst.find entryPoint with
  | .error e => (.error (.invoke e), host)
  | .ok f =>
    match inst.invoke host f ⟨.unit, ()⟩ .unit with
    | (.error e, _, host) => (.error (.invoke e), host)
    | (.ok outcome, _, host) => (.ok (entryStatus outcome), host)

def run (l : Launch) (create : Except String Engine) (files : Files) (host : Host) :
    Except RunError Status × Host :=
  let engine : Except String Engine := match l.engine with
    | some engine => .ok engine
    | none => create
  match engine with
  | .error message => (.error (.engine message), host)
  | .ok engine =>
    match l.plan.build engine files host with
    | (.error e, host) => (.error (.build e), host)
    | (.ok inst, host) => enter inst host

end Launch

end WasmHost

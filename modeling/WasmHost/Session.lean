import WasmHost.Describe
import WasmHost.Plan

namespace WasmHost

/-- Something done with an instance from outside. -/
inductive Operation
  | invoke (name : String) (args : Arguments) (results : Shape)
  | invokeAll (name : String) (calls : List (Arguments × Shape))
  | signature (name : String)
  | hasExport (name : String)
  | context
  | output (fd : UInt32)
  | fuel
  | describe

/-- The end of a call, with the shape of the results that were asked for. -/
structure Invocation where
  results : Shape
  ending : Except InvokeError (Outcome results.Carrier)

inductive Answer
  | invoked (invocation : Invocation)
  | invokedAll (invocations : List Invocation)
  | notFound (error : InvokeError)
  | signature (answer : Except UnsupportedType Signature)
  | hasExport (answer : Bool)
  | context (context : Context)
  | output (sink : Option Sink)
  | fuel (units : Nat)
  | text (description : String)

namespace Instance

/-- Calls one function several times, each time with what the call before left behind. -/
def invokeAll (f : ExportedFunction) (inst : Instance) (host : Host)
    (calls : List (Arguments × Shape)) (runner : Runner Host := .machine) :
    List Invocation × Instance × Host :=
  match calls with
  | [] => ([], inst, host)
  | (args, results) :: rest =>
    let (ending, inst, host) := inst.invoke host f args results runner
    let (others, inst, host) := invokeAll f inst host rest runner
    (⟨results, ending⟩ :: others, inst, host)

def perform (inst : Instance) (host : Host) (op : Operation) (runner : Runner Host := .machine) :
    Answer × Instance × Host :=
  match op with
  | .invoke name args results =>
    match inst.find name with
    | .error e => (.notFound e, inst, host)
    | .ok f =>
      let (ending, inst, host) := inst.invoke host f args results runner
      (.invoked ⟨results, ending⟩, inst, host)
  | .invokeAll name calls =>
    match inst.find name with
    | .error e => (.notFound e, inst, host)
    | .ok f =>
      let (endings, inst, host) := invokeAll f inst host calls runner
      (.invokedAll endings, inst, host)
  | .signature name =>
    match inst.find name with
    | .error e => (.notFound e, inst, host)
    | .ok f => (.signature (inst.signature f), inst, host)
  | .hasExport name => (.hasExport (inst.hasExport name), inst, host)
  | .context => (.context inst.context, inst, host)
  | .output fd => (.output (inst.context.output? fd), inst, host)
  | .fuel => (.fuel inst.fuel, inst, host)
  | .describe => (.text (inst.describe host.streams), inst, host)

end Instance

/-- Instances that share a host. A place stays empty where a build failed. -/
structure Session where
  instances : List (Option Instance) := []
  host : Host

namespace Session

def build (s : Session) (plan : Plan) (engine : Engine) (files : Files) :
    Option BuildError × Session :=
  match plan.build engine files s.host with
  | (.ok inst, host) => (none, ⟨s.instances ++ [some inst], host⟩)
  | (.error e, host) => (some e, ⟨s.instances ++ [none], host⟩)

/-- Performs an operation on the instance at a place; there is no answer where none was built. -/
def perform (s : Session) (index : Nat) (op : Operation) : Option Answer × Session :=
  match s.instances[index]? with
  | some (some inst) =>
    let (answer, inst, host) := inst.perform s.host op
    (some answer, ⟨s.instances.set index (some inst), host⟩)
  | _ => (none, s)

def takeJournal (s : Session) : List Entry × Session :=
  (s.host.journal, { s with host := { s.host with journal := [] } })

/-- Takes what went to the host's own streams, stdout first. -/
def takeInherited (s : Session) : Bytes × Bytes × Session :=
  let { stdout, stderr, captures } := s.host.streams
  let emptied : Streams := ⟨{ stdout with taken := [] }, { stderr with taken := [] }, captures⟩
  (stdout.taken, stderr.taken, { s with host := { s.host with streams := emptied } })

/-- Makes the host's own stderr refuse all bytes, or take them again. -/
def setStderrRefuses (s : Session) (refuses : Bool) : Session :=
  let refusal (_ : Nat) (_ : Bytes) : Option Nat := if refuses then some 0 else none
  let streams := s.host.streams
  let stderr := { streams.stderr with refusal }
  { s with host := { s.host with streams := { streams with stderr } } }

def openCapture (s : Session) (name : String) : Session :=
  { s with host := { s.host with streams := s.host.streams.capture name [] } }

end Session

end WasmHost

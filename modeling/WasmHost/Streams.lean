import WasmHost.Bytes

namespace WasmHost

/-- Where a guest's output stream goes: the host's own stream, a named buffer, or nowhere. -/
inductive Sink
  | inherited
  | capture (name : String)
  | discard
deriving DecidableEq

/-- One of the host's own streams: what it has taken, and which writes it refuses, as a function of
how often it has been written to. -/
structure HostStream where
  taken : Bytes := []
  /-- Of a write that is refused, how many bytes are taken all the same. -/
  refusal : Nat → Bytes → Option Nat := fun _ _ => none
  writes : Nat := 0

/-- Writes bytes, and tells whether all of them were taken. -/
def HostStream.write (s : HostStream) (bytes : Bytes) : Bool × HostStream :=
  match s.refusal s.writes bytes with
  | none => (true, { s with taken := s.taken ++ bytes, writes := s.writes + 1 })
  | some n => (false, { s with taken := s.taken ++ bytes.take n, writes := s.writes + 1 })

/-- The host's own streams, and what was written to each named buffer. -/
structure Streams where
  stdout : HostStream := {}
  stderr : HostStream := {}
  captures : List (String × Bytes) := []

namespace Streams

/-- Appends to the buffer of a name, which is made if there is none yet. -/
def extend (name : String) (bytes : Bytes) : List (String × Bytes) → List (String × Bytes)
  | [] => [(name, bytes)]
  | (other, old) :: rest =>
    if other = name then (other, old ++ bytes) :: rest else (other, old) :: extend name bytes rest

def capture (s : Streams) (name : String) (bytes : Bytes) : Streams :=
  { s with captures := extend name bytes s.captures }

def captured? (s : Streams) (name : String) : Option Bytes := s.captures.lookup name

/-- Writes bytes to a sink, and tells whether all of them were taken. Only the host's own streams
can refuse any: descriptor 2 inherits stderr, which no empty write gets to, and every other one
stdout. -/
def write (s : Streams) (sink : Sink) (fd : UInt32) (bytes : Bytes) : Bool × Streams :=
  match sink with
  | .discard => (true, s)
  | .capture name => (true, s.capture name bytes)
  | .inherited =>
    if fd = 2 then
      if bytes = [] then (true, s)
      else ((s.stderr.write bytes).1, { s with stderr := (s.stderr.write bytes).2 })
    else ((s.stdout.write bytes).1, { s with stdout := (s.stdout.write bytes).2 })

theorem lookup_extend (name other : String) (bytes : Bytes) (buffers : List (String × Bytes)) :
    (extend name bytes buffers).lookup other =
      if other = name then some ((buffers.lookup name).getD [] ++ bytes)
      else buffers.lookup other := by
  induction buffers with
  | nil =>
    by_cases h : other = name
    · simp [extend, h]
    · simp [extend, List.lookup_cons, h, beq_eq_false_iff_ne.mpr h]
  | cons entry rest ih =>
    obtain ⟨key, old⟩ := entry
    by_cases hk : key = name
    · subst hk
      by_cases h : other = key
      · subst h; simp [extend]
      · simp [extend, List.lookup_cons, h, beq_eq_false_iff_ne.mpr h]
    · by_cases h : other = key
      · subst h; simp [extend, hk]
      · simp only [extend, hk, if_false, List.lookup_cons, beq_eq_false_iff_ne.mpr h,
          beq_eq_false_iff_ne.mpr (Ne.symm hk), ih]

theorem captured?_capture (s : Streams) (name other : String) (bytes : Bytes) :
    (s.capture name bytes).captured? other =
      if other = name then some ((s.captured? name).getD [] ++ bytes) else s.captured? other :=
  lookup_extend name other bytes s.captures

end Streams

end WasmHost

import WasmHost.Checksum

namespace WasmHost

inductive IoError
  | notFound
  | isADirectory
  | notADirectory
  | other (message : String)
deriving DecidableEq

def IoError.message : IoError → String
  | notFound => "No such file or directory"
  | isADirectory => "Is a directory"
  | notADirectory => "Not a directory"
  | other message => message

/-- One answer to a request for more bytes of a file. An empty piece is the end. -/
inductive Read
  | piece (bytes : Bytes)
  | interrupted
  | failed (error : IoError)
deriving DecidableEq

/-- What opening a path gives: the answers of the reads to come, after which the file ends. -/
abbrev Files := String → Except IoError (List Read)

inductive Source
  | file (path : String)
  | bytes (content : Bytes)
deriving DecidableEq

structure Loaded where
  bytes : Bytes
  checksum : UInt32
deriving DecidableEq

namespace Loaded

def ofBytes (bytes : Bytes) : Loaded := ⟨bytes, Checksum.ofBytes bytes⟩

/-- Takes in pieces as they come and sums them on the way. An interrupted read is tried again. -/
def ofReads (sum : Checksum) (bytes : Bytes) : List Read → Except IoError Loaded
  | [] | .piece [] :: _ => .ok ⟨bytes, sum.finish⟩
  | .piece more :: rest => ofReads (sum.update more) (bytes ++ more) rest
  | .interrupted :: rest => ofReads sum bytes rest
  | .failed e :: _ => .error e

end Loaded

namespace Source

def text : Source → String
  | file path => path
  | bytes content => "<" ++ toString content.length ++ " bytes>"

def load (files : Files) : Source → Except IoError Loaded
  | file path =>
    match files path with
    | .ok reads => Loaded.ofReads .start [] reads
    | .error e => .error e
  | bytes content => .ok (.ofBytes content)

end Source

end WasmHost

import WasmHost.Proofs.RunningSum
import WasmHost.Source

namespace WasmHost

/-- What reads deliver: the pieces up to the end of the file, or the error of the first read that
fails for good. -/
def Read.contents : List Read → Except IoError Bytes
  | [] | .piece [] :: _ => .ok []
  | .piece more :: rest => (contents rest).map (more ++ ·)
  | .interrupted :: rest => contents rest
  | .failed e :: _ => .error e

namespace Loaded

/-- The sum that is kept on the way is the one over all that has been delivered. -/
theorem ofReads_eq {sum : Checksum} {t : Tally} (h : sum.Represents t) (bytes : Bytes)
    (reads : List Read) :
    ofReads sum bytes reads = (Read.contents reads).map fun more =>
      ⟨bytes ++ more, (sum.update more).finish⟩ := by
  induction reads generalizing sum t bytes with
  | nil => simp [ofReads, Read.contents, Except.map]
  | cons read rest ih =>
    cases read with
    | piece more =>
      cases more with
      | nil => simp [ofReads, Read.contents, Except.map]
      | cons x xs =>
        have hread : ofReads sum bytes (.piece (x :: xs) :: rest) =
            ofReads (sum.update (x :: xs)) (bytes ++ x :: xs) rest := rfl
        have hcontents : Read.contents (.piece (x :: xs) :: rest) =
          (Read.contents rest).map (x :: xs ++ ·) := rfl
        rw [hread, hcontents, ih (h.update _)]
        generalize x :: xs = more
        cases Read.contents rest with
        | error e => rfl
        | ok later => simp [Except.map, h.update_append]
    | interrupted => exact ih h bytes
    | failed e => rfl

@[simp] theorem toNat_checksum_ofBytes (bytes : Bytes) :
    (ofBytes bytes).checksum.toNat = adler32 bytes :=
  Checksum.toNat_ofBytes bytes

end Loaded

namespace Source

/-- The bytes of a source, or why it cannot be read. -/
def contents (files : Files) : Source → Except IoError Bytes
  | file path => files path >>= Read.contents
  | bytes content => .ok content

theorem load_eq (files : Files) (source : Source) :
    source.load files = (source.contents files).map Loaded.ofBytes := by
  cases source with
  | bytes content => rfl
  | file path =>
    rw [load, contents]
    cases files path with
    | error e => rfl
    | ok reads => exact Loaded.ofReads_eq Checksum.represents_start [] reads

end Source

end WasmHost

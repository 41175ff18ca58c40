import WasmHost.Bytes

namespace WasmHost.Text

/-- A character that has begun but whose last bytes are missing: the bits so far, how many bytes are
to come, and the range in which the next one must lie. -/
structure Pending where
  bits : Nat
  missing : Nat
  low : UInt8
  high : UInt8
deriving DecidableEq

/-- The mark that stands for bytes which are no character. -/
def replacement : Char := '\ufffd'

/-- Begins with a byte: what can be told at once, and what has to wait. The ranges of the second
byte leave out forms that are too long, surrogates, and numbers beyond the last character. -/
def begin? (b : UInt8) : List Char × Option Pending :=
  let bits (mask : Nat) := b.toNat % mask
  if b < 0x80 then ([Char.ofNat b.toNat], none)
  else if b < 0xc2 then ([replacement], none)
  else if b < 0xe0 then ([], some ⟨bits 32, 1, 0x80, 0xbf⟩)
  else if b = 0xe0 then ([], some ⟨bits 16, 2, 0xa0, 0xbf⟩)
  else if b = 0xed then ([], some ⟨bits 16, 2, 0x80, 0x9f⟩)
  else if b < 0xf0 then ([], some ⟨bits 16, 2, 0x80, 0xbf⟩)
  else if b = 0xf0 then ([], some ⟨bits 8, 3, 0x90, 0xbf⟩)
  else if b < 0xf4 then ([], some ⟨bits 8, 3, 0x80, 0xbf⟩)
  else if b = 0xf4 then ([], some ⟨bits 8, 3, 0x80, 0x8f⟩)
  else ([replacement], none)

/-- Goes on with a byte. One that does not fit closes what was pending with a mark and begins
anew. -/
def continue? (pending : Option Pending) (b : UInt8) : List Char × Option Pending :=
  match pending with
  | none => begin? b
  | some p =>
    if p.low ≤ b ∧ b ≤ p.high then
      let bits := p.bits * 64 + b.toNat % 64
      if p.missing ≤ 1 then ([Char.ofNat bits], none)
      else ([], some ⟨bits, p.missing - 1, 0x80, 0xbf⟩)
    else
      let (chars, next) := begin? b
      (replacement :: chars, next)

def decodeFrom (pending : Option Pending) : Bytes → List Char
  | [] => if pending.isSome then [replacement] else []
  | b :: rest =>
    let (chars, next) := continue? pending b
    chars ++ decodeFrom next rest

/-- Bytes as UTF-8 text, with one mark for each longest stretch that begins a character but is
none. -/
def lossy (bytes : Bytes) : String := String.ofList (decodeFrom none bytes)

end WasmHost.Text

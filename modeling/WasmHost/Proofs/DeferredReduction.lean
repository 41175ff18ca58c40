import Mathlib.Tactic.Ring
import WasmHost.Proofs.RunningSum

namespace WasmHost

/-- Sums of a run of equal bytes; the second one doubled, so that nothing is divided. -/
theorem Tally.addAll_replicate (t : Tally) (count : Nat) (x : UInt8) :
    (t.addAll (List.replicate count x)).a = t.a + count * x.toNat ∧
    2 * (t.addAll (List.replicate count x)).b =
      2 * (t.b + count * t.a) + count * (count + 1) * x.toNat := by
  induction count generalizing t with
  | zero => exact ⟨by simp [addAll], by simp [addAll]⟩
  | succ count ih =>
    obtain ⟨ha, hb⟩ := ih (t.add x)
    rw [List.replicate_succ, addAll_cons, ha, hb]
    simp only [add]
    constructor <;> ring

namespace Checksum

/-- Where an update may start: with a new checksum, or with one that is resumed from any word. -/
inductive Initial : Checksum → Prop
  | start : Initial start
  | resume (sum : UInt32) : Initial (resume sum)

/-- What an update in blocks of `size` passes through: the sums so far, and the byte that is to be
added to them. -/
inductive Passes (size : Nat) (s : Checksum) (bytes : Bytes) : Checksum → UInt8 → Prop
  | intro {before after : List Bytes} {xs ys : Bytes} {x : UInt8}
      (h : blocks size bytes = before ++ (xs ++ x :: ys) :: after) :
      Passes size s bytes (xs.foldl addByte (before.foldl addBlock s)) x

variable {s : Checksum}

theorem Initial.reduced (h : s.Initial) : s.Reduced := by
  cases h with
  | start => exact reduced_start
  | resume sum => exact reduced_resume sum

/-- Within a block of at most the block size both sums stay below `2 ^ 32`. -/
theorem Reduced.passes_lt {bytes : Bytes} {m : Checksum} {x : UInt8} (hs : s.Reduced)
    (h : Passes blockSize s bytes m x) :
    m.a.toNat + x.toNat < 2 ^ 32 ∧ m.b.toNat + (m.a.toNat + x.toNat) < 2 ^ 32 := by
  obtain @⟨before, after, xs, ys, x, hblocks⟩ := h
  have hlength : ∀ block ∈ before ++ (xs ++ x :: ys) :: after, block.length ≤ blockSize := by
    rw [← hblocks]
    exact fun block hb => length_le_of_mem_blocks (by decide) hb
  have hbefore : (before.foldl addBlock s).Represents (s.tally.addAll before.flatten) :=
    hs.represents.foldl_addBlock fun block hb => hlength block (List.mem_append_left _ hb)
  have hblock : xs.length + (ys.length + 1) ≤ blockSize := by
    have hmem := hlength (xs ++ x :: ys) (by simp)
    rwa [List.length_append, List.length_cons] at hmem
  have hroom : (before.foldl addBlock s).tally.Room (xs.length + (ys.length + 1)) :=
    hbefore.room hblock
  have hxs : (before.foldl addBlock s).tally.Room xs.length := hbefore.room (by omega)
  have hrest : (xs.foldl addByte (before.foldl addBlock s)).tally.Room (ys.length + 1) := by
    rw [tally_foldl_addByte hxs]
    exact hroom.addAll
  exact hrest.add_lt x

theorem blocks_of_length_le {size : Nat} {bytes : Bytes} (hne : bytes ≠ [])
    (h : bytes.length ≤ size) :
    blocks size bytes = [bytes] := by
  cases bytes with
  | nil => exact absurd rfl hne
  | cons x xs =>
    rw [List.length_cons] at h
    have hxs : xs.length ≤ size - 1 := by omega
    rw [blocks, List.take_of_length_le hxs, List.drop_of_length_le hxs, blocks_nil]

theorem foldl_addByte_replicate {count : Nat} (h : s.tally.Room count) (x : UInt8) :
    ∃ m, (List.replicate count x).foldl addByte s = m ∧ m.a.toNat = s.a.toNat + count * x.toNat ∧
      2 * m.b.toNat = 2 * (s.b.toNat + count * s.a.toNat) + count * (count + 1) * x.toNat := by
  have hroom : s.tally.Room (List.replicate count x).length := by
    rwa [List.length_replicate]
  have htally := tally_foldl_addByte hroom
  obtain ⟨ha, hb⟩ := s.tally.addAll_replicate count x
  rw [← htally] at ha hb
  exact ⟨_, rfl, ha, hb⟩

/-- From the largest sums that a checksum can be resumed with, the largest block can be added, but
not one byte more. -/
theorem exists_passes_overflow {size : Nat} (h : blockSize < size) :
    ∃ sum bytes m x, Passes size (resume sum) bytes m x ∧ m.a.toNat + x.toNat < 2 ^ 32 ∧
      2 ^ 32 ≤ m.b.toNat + (m.a.toNat + x.toNat) := by
  have hblocks : blocks size (List.replicate (blockSize + 1) 255) =
      [] ++ (List.replicate blockSize 255 ++ 255 :: []) :: [] := by
    rw [blocks_of_length_le (by simp) (by rwa [List.length_replicate]), List.replicate_succ']
    rfl
  have hsums : (resume 0xfff0fff0).a.toNat = 65520 ∧ (resume 0xfff0fff0).b.toNat = 65520 := by
    decide
  have hroom : (resume 0xfff0fff0).tally.Room blockSize :=
    (reduced_resume _).represents.room (Nat.le_refl _)
  obtain ⟨m, hm, ha, hb⟩ := foldl_addByte_replicate hroom 255
  have hbyte : (255 : UInt8).toNat = 255 := rfl
  have hsize : blockSize = 5552 := rfl
  rw [hsums.1, hbyte, hsize] at ha
  rw [hsums.1, hsums.2, hbyte, hsize] at hb
  have hpasses := @Passes.intro size (resume 0xfff0fff0) _ _ _ _ _ _ hblocks
  rw [List.foldl_nil, hm] at hpasses
  refine ⟨_, _, m, 255, hpasses, ?_, ?_⟩
  · omega
  · omega

/-- Reducing once in a block comes to the same as reducing after every byte, and no addition on the
way leaves 32 bits. With any larger block one would. -/
theorem update_in_range (hs : s.Initial) (bytes : Bytes) :
    (∀ m x, Passes blockSize s bytes m x →
      m.a.toNat + x.toNat < 2 ^ 32 ∧ m.b.toNat + (m.a.toNat + x.toNat) < 2 ^ 32) ∧
    s.update bytes = s.updateEach bytes ∧
    ∀ size, blockSize < size →
      ∃ sum bytes m x, Passes size (resume sum) bytes m x ∧ m.a.toNat + x.toNat < 2 ^ 32 ∧
        2 ^ 32 ≤ m.b.toNat + (m.a.toNat + x.toNat) := by
  refine ⟨?_, ?_, ?_⟩
  · intro m x h
    exact hs.reduced.passes_lt h
  · exact hs.reduced.represents.update_eq_updateEach bytes
  · intro size hsize
    exact exists_passes_overflow hsize

theorem update_in_range_largest :
    (resume 0xfff0fff0).Initial ∧
    (resume 0xfff0fff0).update (List.replicate 16673 0xff) =
      (resume 0xfff0fff0).updateEach (List.replicate 16673 0xff) ∧
    ∃ sum bytes m x, Passes 5553 (resume sum) bytes m x ∧
      2 ^ 32 ≤ m.b.toNat + (m.a.toNat + x.toNat) := by
  have hs : (resume 0xfff0fff0).Initial := .resume 0xfff0fff0
  obtain ⟨_, hsame, hlarger⟩ := update_in_range hs (List.replicate 16673 0xff)
  obtain ⟨sum, bytes, m, x, hpasses, _, hwraps⟩ := hlarger 5553 (by decide)
  exact ⟨hs, hsame, sum, bytes, m, x, hpasses, hwraps⟩

end Checksum

end WasmHost

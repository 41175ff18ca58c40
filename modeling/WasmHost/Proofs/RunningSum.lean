import Mathlib.Data.Nat.ModEq
import Mathlib.Tactic.Linarith
import WasmHost.Checksum

namespace WasmHost

/-- The two sums of a running checksum as plain numbers, which are never reduced. -/
structure Tally where
  a : Nat
  b : Nat

namespace Tally

def start : Tally := ⟨1, 0⟩

def add (t : Tally) (x : UInt8) : Tally := ⟨t.a + x.toNat, t.b + (t.a + x.toNat)⟩

def addAll (t : Tally) (bytes : Bytes) : Tally := bytes.foldl add t

@[simp] theorem addAll_cons (t : Tally) (x : UInt8) (rest : Bytes) :
    t.addAll (x :: rest) = (t.add x).addAll rest := rfl

theorem addAll_append (t : Tally) (xs ys : Bytes) : t.addAll (xs ++ ys) = (t.addAll xs).addAll ys :=
  List.foldl_append

/-- The same sums up to multiples of the modulus. -/
structure Congruent (t u : Tally) : Prop where
  a : t.a ≡ u.a [MOD 65521]
  b : t.b ≡ u.b [MOD 65521]

theorem Congruent.addAll {t u : Tally} (h : t.Congruent u) (bytes : Bytes) :
    (t.addAll bytes).Congruent (u.addAll bytes) := by
  induction bytes generalizing t u with
  | nil => exact h
  | cons x rest ih => exact ih ⟨h.a.add_right _, h.b.add (h.a.add_right _)⟩

/-- After so many more bytes both sums are still below `2 ^ 32`. -/
structure Room (t : Tally) (count : Nat) : Prop where
  a : t.a + 255 * count < 2 ^ 32
  b : 2 * (t.b + count * t.a) + 255 * (count * (count + 1)) < 2 ^ 33

theorem Room.add {t : Tally} {count : Nat} (h : t.Room (count + 1)) (x : UInt8) :
    (t.add x).Room count := by
  have hx : x.toNat ≤ 255 := Nat.le_of_lt_succ x.toNat_lt
  obtain ⟨ha, hb⟩ := h
  constructor
  · simp only [Tally.add]
    omega
  · simp only [Tally.add]
    nlinarith [Nat.mul_le_mul_left count hx]

theorem Room.addAll {t : Tally} {bytes : Bytes} {count : Nat} (h : t.Room (bytes.length + count)) :
    (t.addAll bytes).Room count := by
  induction bytes generalizing t with
  | nil =>
    rw [List.length_nil, Nat.zero_add] at h
    exact h
  | cons x rest ih =>
    rw [List.length_cons, Nat.add_right_comm] at h
    exact ih (h.add x)

/-- With room for one byte neither of the two additions that take it in leaves 32 bits. -/
theorem Room.add_lt {t : Tally} {count : Nat} (h : t.Room (count + 1)) (x : UInt8) :
    t.a + x.toNat < 2 ^ 32 ∧ t.b + (t.a + x.toNat) < 2 ^ 32 := by
  have hx : x.toNat ≤ 255 := Nat.le_of_lt_succ x.toNat_lt
  obtain ⟨ha, hb⟩ := h
  constructor
  · omega
  · nlinarith

end Tally

/-- The checksum of bytes by its definition, out of sums that are reduced once. -/
def adler32 (bytes : Bytes) : Nat :=
  let t := Tally.start.addAll bytes
  t.b % 65521 * 65536 + t.a % 65521

namespace Checksum

variable {s : Checksum} {t : Tally}

def tally (s : Checksum) : Tally := ⟨s.a.toNat, s.b.toNat⟩

/-- Within a block nothing wraps, so its sums are the plain ones. -/
theorem tally_foldl_addByte {block : Bytes} (h : s.tally.Room block.length) :
    (block.foldl addByte s).tally = s.tally.addAll block := by
  induction block generalizing s with
  | nil => rfl
  | cons x rest ih =>
    have hstep : (s.addByte x).tally = s.tally.add x := by
      obtain ⟨ha, hb⟩ := h.add_lt x
      simp only [tally] at ha hb
      have hsum : (s.a + x.toUInt32).toNat = s.a.toNat + x.toNat := by
        rw [UInt32.toNat_add, UInt8.toNat_toUInt32, Nat.mod_eq_of_lt ha]
      have hsums : (s.b + (s.a + x.toUInt32)).toNat = s.b.toNat + (s.a.toNat + x.toNat) := by
        rw [UInt32.toNat_add, hsum, Nat.mod_eq_of_lt hb]
      rw [addByte, tally, tally, Tally.add, hsum, hsums]
    have hroom := h.add x
    rw [← hstep] at hroom
    rw [List.foldl_cons, Tally.addAll_cons, ← hstep]
    exact ih hroom

/-- A state whose halves are the remainders of these sums. -/
structure Represents (s : Checksum) (t : Tally) : Prop where
  a : s.a.toNat = t.a % 65521
  b : s.b.toNat = t.b % 65521

theorem represents_start : start.Represents .start := ⟨rfl, rfl⟩

theorem Represents.unique {s' : Checksum} (h : s.Represents t) (h' : s'.Represents t) : s = s' :=
  Checksum.ext (UInt32.toNat_inj.mp (h.a.trans h'.a.symm))
    (UInt32.toNat_inj.mp (h.b.trans h'.b.symm))

theorem Represents.congruent (h : s.Represents t) : s.tally.Congruent t := by
  constructor
  · simp only [tally, h.a]
    exact Nat.mod_modEq _ _
  · simp only [tally, h.b]
    exact Nat.mod_modEq _ _

theorem Represents.lt (h : s.Represents t) : s.a.toNat < 65521 ∧ s.b.toNat < 65521 := by
  rw [h.a, h.b]
  exact ⟨Nat.mod_lt _ (by decide), Nat.mod_lt _ (by decide)⟩

/-- Reduced sums leave room for a whole block. -/
theorem Represents.room (h : s.Represents t) {count : Nat} (hc : count ≤ blockSize) :
    s.tally.Room count := by
  have ha : s.a.toNat ≤ 65520 := Nat.le_of_lt_succ h.lt.1
  have hb : s.b.toNat ≤ 65520 := Nat.le_of_lt_succ h.lt.2
  rw [blockSize] at hc
  constructor
  · simp only [tally]
    omega
  · simp only [tally]
    nlinarith [Nat.mul_le_mul hc ha, Nat.mul_le_mul hc (Nat.succ_le_succ hc)]

theorem Represents.addBlock (h : s.Represents t) {block : Bytes} (hc : block.length ≤ blockSize) :
    (s.addBlock block).Represents (t.addAll block) := by
  have htally := tally_foldl_addByte (h.room hc)
  have hcongruent := h.congruent.addAll block
  rw [← htally] at hcongruent
  constructor
  · rw [Checksum.addBlock, reduce, UInt32.toNat_mod]
    exact hcongruent.a
  · rw [Checksum.addBlock, reduce, UInt32.toNat_mod]
    exact hcongruent.b

theorem Represents.foldl_addBlock (h : s.Represents t) {parts : List Bytes}
    (hparts : ∀ block ∈ parts, block.length ≤ blockSize) :
    (parts.foldl Checksum.addBlock s).Represents (t.addAll parts.flatten) := by
  induction parts generalizing s t with
  | nil => exact h
  | cons block rest ih =>
    rw [List.forall_mem_cons] at hparts
    rw [List.foldl_cons, List.flatten_cons, Tally.addAll_append]
    exact ih (h.addBlock hparts.1) hparts.2

/-- Summing block by block comes to the remainders of the plain sums. -/
theorem Represents.update (h : s.Represents t) (bytes : Bytes) :
    (s.update bytes).Represents (t.addAll bytes) := by
  have hblocks : ∀ block ∈ blocks blockSize bytes, block.length ≤ blockSize := fun block hb =>
    length_le_of_mem_blocks (by decide) hb
  have hparts := h.foldl_addBlock hblocks
  rwa [flatten_blocks] at hparts

theorem Represents.addReduced (h : s.Represents t) (x : UInt8) :
    (s.addReduced x).Represents (t.add x) := by
  have hs : (s.a + x.toUInt32).toNat = s.a.toNat + x.toNat := by
    have ha := h.lt.1
    have hx : x.toNat ≤ 255 := Nat.le_of_lt_succ x.toNat_lt
    rw [UInt32.toNat_add, UInt8.toNat_toUInt32, Nat.mod_eq_of_lt (by omega)]
  have ha : ((s.a + x.toUInt32) % modulus).toNat = (t.a + x.toNat) % 65521 := by
    rw [UInt32.toNat_mod, hs, h.a]
    exact Nat.mod_add_mod _ _ _
  have hb : ((s.b + (s.a + x.toUInt32) % modulus) % modulus).toNat =
    (t.b + (t.a + x.toNat)) % 65521 := by
    have hlt : t.b % 65521 + (t.a + x.toNat) % 65521 < 2 ^ 32 := by omega
    rw [UInt32.toNat_mod, UInt32.toNat_add, ha, h.b, Nat.mod_eq_of_lt hlt]
    exact (Nat.add_mod _ _ _).symm
  exact ⟨ha, hb⟩

theorem Represents.updateEach (h : s.Represents t) (bytes : Bytes) :
    (s.updateEach bytes).Represents (t.addAll bytes) := by
  induction bytes generalizing s t with
  | nil => exact h
  | cons x rest ih => exact ih (h.addReduced x)

/-- Whether sums are reduced after every byte or once in a block does not matter. -/
theorem Represents.update_eq_updateEach (h : s.Represents t) (bytes : Bytes) :
    s.update bytes = s.updateEach bytes :=
  (h.update bytes).unique (h.updateEach bytes)

/-- How bytes are cut into pieces does not matter. -/
theorem Represents.update_append (h : s.Represents t) (xs ys : Bytes) :
    s.update (xs ++ ys) = (s.update xs).update ys := by
  have hparts := (h.update xs).update ys
  rw [← Tally.addAll_append] at hparts
  exact (h.update (xs ++ ys)).unique hparts

theorem Represents.toNat_finish (h : s.Represents t) :
    s.finish.toNat = t.b % 65521 * 65536 + t.a % 65521 := by
  have ha : s.a.toNat < 2 ^ 16 := h.lt.1.trans (by decide)
  have hb : s.b.toNat < 2 ^ 16 := h.lt.2.trans (by decide)
  have hshift : (s.b <<< 16).toNat = s.b.toNat <<< 16 := by
    rw [UInt32.toNat_shiftLeft]
    apply Nat.mod_eq_of_lt
    simp only [Nat.shiftLeft_eq, UInt32.reduceToNat, Nat.reduceMod, Nat.reducePow] at hb ⊢
    omega
  rw [finish, UInt32.toNat_or, hshift, ← Nat.shiftLeft_add_eq_or_of_lt ha, Nat.shiftLeft_eq, h.a,
    h.b]

/-- A state with both sums below the modulus. -/
structure Reduced (s : Checksum) : Prop where
  a : s.a < modulus
  b : s.b < modulus

theorem Represents.reduced (h : s.Represents t) : s.Reduced :=
  ⟨UInt32.lt_iff_toNat_lt.mpr h.lt.1, UInt32.lt_iff_toNat_lt.mpr h.lt.2⟩

theorem Reduced.represents (h : s.Reduced) : s.Represents s.tally := by
  have ha : s.a.toNat < 65521 := UInt32.lt_iff_toNat_lt.mp h.a
  have hb : s.b.toNat < 65521 := UInt32.lt_iff_toNat_lt.mp h.b
  exact ⟨(Nat.mod_eq_of_lt ha).symm, (Nat.mod_eq_of_lt hb).symm⟩

theorem reduced_start : start.Reduced := represents_start.reduced

theorem reduced_resume (sum : UInt32) : (resume sum).Reduced := by
  constructor
  · rw [UInt32.lt_iff_toNat_lt, resume, UInt32.toNat_mod]
    exact Nat.mod_lt _ (by decide)
  · rw [UInt32.lt_iff_toNat_lt, resume, UInt32.toNat_mod]
    exact Nat.mod_lt _ (by decide)

/-- A finished checksum of reduced sums tells them apart again. -/
theorem Reduced.resume_finish (h : s.Reduced) : resume s.finish = s := by
  have hs := h.represents
  have hfinish : s.finish.toNat = s.b.toNat * 65536 + s.a.toNat := by
    rw [hs.toNat_finish, ← hs.a, ← hs.b]
  obtain ⟨ha, hb⟩ := hs.lt
  have hlow : (s.finish &&& 0xffff).toNat = s.a.toNat := by
    have hmask : (0xffff : UInt32).toNat = 2 ^ 16 - 1 := rfl
    rw [UInt32.toNat_and, hmask, Nat.and_two_pow_sub_one_eq_mod, hfinish]
    omega
  have hhigh : (s.finish >>> 16).toNat = s.b.toNat := by
    have hshift : (16 : UInt32).toNat % 32 = 16 := rfl
    rw [UInt32.toNat_shiftRight, hshift, Nat.shiftRight_eq_div_pow, hfinish]
    omega
  rw [resume]
  ext
  · rw [UInt32.toNat_mod, hlow]
    exact Nat.mod_eq_of_lt ha
  · rw [UInt32.toNat_mod, hhigh]
    exact Nat.mod_eq_of_lt hb

theorem toNat_ofBytes (bytes : Bytes) : (ofBytes bytes).toNat = adler32 bytes :=
  (represents_start.update bytes).toNat_finish

end Checksum

end WasmHost

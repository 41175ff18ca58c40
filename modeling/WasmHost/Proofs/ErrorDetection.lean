import Mathlib.Tactic.NormNum.Prime
import WasmHost.Proofs.BuildOrder

namespace WasmHost

namespace Bytes

def total : Bytes → Nat
  | [] => 0
  | x :: rest => x.toNat + total rest

/-- The sum of the bytes, each as often as there are bytes from it to the end. -/
def moment : Bytes → Nat
  | [] => 0
  | x :: rest => (rest.length + 1) * x.toNat + moment rest

theorem total_append (xs ys : Bytes) : total (xs ++ ys) = total xs + total ys := by
  induction xs with
  | nil => simp [total]
  | cons x rest ih =>
    rw [List.cons_append, total, total, ih]
    omega

theorem moment_append (xs ys : Bytes) :
    moment (xs ++ ys) = moment xs + ys.length * total xs + moment ys := by
  induction xs with
  | nil => simp [moment, total]
  | cons x rest ih =>
    rw [List.cons_append, moment, moment, total, ih, List.length_append]
    ring

/-- The bytes are as many, and exactly one of them is another. -/
def DiffersOnce (m m' : Bytes) : Prop :=
  m'.length = m.length ∧ ∃ i : Nat, ∀ k : Nat, m'[k]? ≠ m[k]? ↔ k = i

/-- The bytes are the same, but for two unequal ones that have changed places. -/
structure Exchanged (m m' : Bytes) (i j : Nat) : Prop where
  lt : i < j
  bytes : ∃ x y, m[i]? = some x ∧ m[j]? = some y ∧ x ≠ y ∧ m' = (m.set i y).set j x

theorem exists_split {m : Bytes} {i : Nat} {x : UInt8} (h : m[i]? = some x) :
    ∃ p q, m = p ++ x :: q ∧ p.length = i := by
  obtain ⟨hi, hx⟩ := List.getElem?_eq_some_iff.mp h
  refine ⟨m.take i, m.drop (i + 1), ?_, List.length_take_of_le (Nat.le_of_lt hi)⟩
  rw [← hx, List.getElem_cons_drop, List.take_append_drop]

theorem set_split (p q : Bytes) (x y : UInt8) : (p ++ x :: q).set p.length y = p ++ y :: q := by
  rw [List.set_append_right _ _ (Nat.le_refl _), Nat.sub_self, List.set_cons_zero]

variable {m m' : Bytes}

theorem DiffersOnce.exists_eq_set (h : DiffersOnce m m') :
    ∃ i x y, m[i]? = some x ∧ x ≠ y ∧ m' = m.set i y := by
  obtain ⟨hlength, i, hi⟩ := h
  have hne : m'[i]? ≠ m[i]? := (hi i).mpr rfl
  have hlt : i < m.length := by
    by_contra hge
    apply hne
    rw [List.getElem?_eq_none (by omega), List.getElem?_eq_none (by omega)]
  have hlt' : i < m'.length := by omega
  have hx : m[i]? = some m[i] := List.getElem?_eq_getElem hlt
  have hy : m'[i]? = some m'[i] := List.getElem?_eq_getElem hlt'
  refine ⟨i, m[i], m'[i], hx, ?_, ?_⟩
  · intro heq
    rw [hx, hy, heq] at hne
    exact hne rfl
  · apply List.ext_getElem?
    intro k
    rw [List.getElem?_set]
    by_cases hk : i = k
    · rw [if_pos hk, if_pos hlt, ← hk, hy]
    · rw [if_neg hk]
      by_contra hdiff
      exact hk ((hi k).mp hdiff).symm

theorem DiffersOnce.exists_split (h : DiffersOnce m m') :
    ∃ p x y q, m = p ++ x :: q ∧ m' = p ++ y :: q ∧ x ≠ y := by
  obtain ⟨i, x, y, hx, hne, hm'⟩ := h.exists_eq_set
  obtain ⟨p, q, rfl, rfl⟩ := Bytes.exists_split hx
  refine ⟨p, x, y, q, rfl, ?_, hne⟩
  rw [hm', set_split]

theorem Exchanged.exists_split {i j : Nat} (h : Exchanged m m' i j) :
    ∃ p x q y r, m = p ++ x :: (q ++ y :: r) ∧ m' = p ++ y :: (q ++ x :: r) ∧ x ≠ y ∧
      j - i = q.length + 1 := by
  obtain ⟨hlt, x, y, hx, hy, hne, hm'⟩ := h
  obtain ⟨p, t, rfl, rfl⟩ := Bytes.exists_split hx
  have hdistance : j - p.length = (j - p.length - 1) + 1 := by omega
  have ht : t[j - p.length - 1]? = some y := by
    rw [List.getElem?_append_right (by omega), hdistance, List.getElem?_cons_succ] at hy
    exact hy
  obtain ⟨q, r, rfl, hq⟩ := Bytes.exists_split ht
  refine ⟨p, x, q, y, r, rfl, ?_, hne, by omega⟩
  rw [hm', set_split, List.set_append_right _ _ (by omega), hdistance, List.set_cons_succ, ← hq,
    set_split]

theorem exchanged_ends (q : Bytes) {x y : UInt8} (h : x ≠ y) :
    Exchanged (x :: (q ++ [y])) (y :: (q ++ [x])) 0 (q.length + 1) := by
  refine ⟨Nat.succ_pos _, x, y, rfl, ?_, h, ?_⟩
  · rw [List.getElem?_cons_succ, List.getElem?_append_right (Nat.le_refl _), Nat.sub_self,
      List.getElem?_cons_zero]
  · rw [List.set_cons_zero, List.set_cons_succ, set_split]

end Bytes

namespace Tally

theorem a_addAll (t : Tally) (bytes : Bytes) : (t.addAll bytes).a = t.a + bytes.total := by
  induction bytes generalizing t with
  | nil => rfl
  | cons x rest ih =>
    rw [addAll_cons, ih, add, Bytes.total]
    exact Nat.add_assoc ..

theorem b_addAll (t : Tally) (bytes : Bytes) :
    (t.addAll bytes).b = t.b + bytes.length * t.a + bytes.moment := by
  induction bytes generalizing t with
  | nil => simp [addAll, Bytes.moment]
  | cons x rest ih =>
    rw [addAll_cons, ih, add, Bytes.moment, List.length_cons]
    ring

end Tally

/-- Of bytes that are as many, the checksum tells no more than the two sums. -/
theorem adler32_eq_iff {xs ys : Bytes} (h : xs.length = ys.length) :
    adler32 xs = adler32 ys ↔
      xs.total ≡ ys.total [MOD 65521] ∧ xs.moment ≡ ys.moment [MOD 65521] := by
  have htotal : 1 + xs.total ≡ 1 + ys.total [MOD 65521] ↔ xs.total ≡ ys.total [MOD 65521] :=
    ⟨Nat.ModEq.add_left_cancel' 1, Nat.ModEq.add_left 1⟩
  have hmoment : 0 + ys.length * 1 + xs.moment ≡ 0 + ys.length * 1 + ys.moment [MOD 65521] ↔
      xs.moment ≡ ys.moment [MOD 65521] :=
    ⟨Nat.ModEq.add_left_cancel' _, Nat.ModEq.add_left _⟩
  rw [← htotal, ← hmoment, Nat.ModEq, Nat.ModEq]
  simp only [adler32, Tally.a_addAll, Tally.b_addAll, Tally.start, h]
  omega

theorem prime_modulus : Nat.Prime 65521 := by norm_num

namespace Bytes

variable {m m' : Bytes}

theorem eq_of_modEq {x y : UInt8} (h : x.toNat ≡ y.toNat [MOD 65521]) : x = y := by
  have hx := x.toNat_lt
  have hy := y.toNat_lt
  exact UInt8.toNat_inj.mp (h.eq_of_lt_of_lt (by omega) (by omega))

/-- A byte that is another one shows in the plain sum. -/
theorem DiffersOnce.adler32_ne (h : DiffersOnce m m') : adler32 m' ≠ adler32 m := by
  obtain ⟨p, x, y, q, rfl, rfl, hne⟩ := h.exists_split
  have hlength : (p ++ y :: q).length = (p ++ x :: q).length := by simp
  intro heq
  have htotal := ((adler32_eq_iff hlength).mp heq).1
  rw [total_append, total_append, total, total] at htotal
  have hbyte : y.toNat ≡ x.toNat [MOD 65521] := (htotal.add_left_cancel' _).add_right_cancel' _
  exact hne (eq_of_modEq hbyte).symm

/-- An exchange leaves the plain sum as it is, and shows in the other as far as the distance is not
lost to the modulus. -/
theorem Exchanged.adler32_eq_iff {i j : Nat} (h : Exchanged m m' i j) :
    adler32 m' = adler32 m ↔ 65521 ∣ j - i := by
  obtain ⟨p, x, q, y, r, rfl, rfl, hne, hdistance⟩ := h.exists_split
  have hlength : (p ++ y :: (q ++ x :: r)).length = (p ++ x :: (q ++ y :: r)).length := by simp
  have htotal : total (p ++ y :: (q ++ x :: r)) = total (p ++ x :: (q ++ y :: r)) := by
    simp only [total_append, total]
    omega
  have hmoment : moment (p ++ y :: (q ++ x :: r)) + (q.length + 1) * x.toNat =
      moment (p ++ x :: (q ++ y :: r)) + (q.length + 1) * y.toNat := by
    simp only [moment_append, moment, List.length_append, List.length_cons]
    ring
  rw [WasmHost.adler32_eq_iff hlength, htotal, hdistance]
  constructor
  · intro heq
    by_contra hdvd
    have hcoprime : Nat.gcd 65521 (q.length + 1) = 1 := (prime_modulus.coprime_iff_not_dvd).mpr hdvd
    have hproducts : (q.length + 1) * x.toNat ≡ (q.length + 1) * y.toNat [MOD 65521] := by
      apply heq.2.add_left_cancel
      rw [hmoment]
    exact hne (eq_of_modEq (hproducts.cancel_left_of_coprime hcoprime))
  · intro hdvd
    have hlost (z : UInt8) : (q.length + 1) * z.toNat ≡ 0 [MOD 65521] :=
      (Nat.modEq_zero_iff_dvd).mpr (hdvd.mul_right _)
    refine ⟨rfl, ?_⟩
    apply Nat.ModEq.add_right_cancel ((hlost x).trans (hlost y).symm)
    rw [hmoment]

end Bytes

namespace Plan

/-- A plan for bytes of another checksum than the expected one comes to nothing, whatever the engine
makes of them. -/
theorem build_of_adler32_ne {plan : Plan} {files : Files} {m m' : Bytes}
    (hm' : plan.source.contents files = .ok m') (hc : plan.checksum = some (Checksum.ofBytes m))
    (hne : adler32 m' ≠ adler32 m) (engine : Engine) (host : Host) :
    plan.build engine files host =
        (.error (.checksumMismatch (Checksum.ofBytes m) (Checksum.ofBytes m')), host) ∧
      ∀ c, ¬ plan.Passes engine files host c := by
  have hexpected : (Checksum.ofBytes m).toNat ≠ adler32 m' := by
    rw [Checksum.toNat_ofBytes]
    exact hne.symm
  have hrejects : plan.Rejects engine files
    (.checksumMismatch (Checksum.ofBytes m) (Checksum.ofBytes m')) :=
    .checksum hm' hc hexpected (Checksum.toNat_ofBytes m')
  exact ⟨hrejects.build_eq host, hrejects.not_passes⟩

end Plan

namespace Checksum

theorem ofBytes_eq_iff {xs ys : Bytes} : ofBytes xs = ofBytes ys ↔ adler32 xs = adler32 ys := by
  rw [← UInt32.toNat_inj, toNat_ofBytes, toNat_ofBytes]

/-- The checksum tells bytes from those that differ in one byte, and from those in which two unequal
bytes have changed places, unless their distance is a multiple of the modulus. So none of these pass
for the others when a module is built. -/
theorem altered_bytes_detected (m m' : Bytes) :
    (m.DiffersOnce m' ∨ (∃ i j, m.Exchanged m' i j ∧ ¬ 65521 ∣ j - i) →
      ofBytes m' ≠ ofBytes m ∧
      ∀ plan : Plan, ∀ files, plan.source.contents files = .ok m' →
        plan.checksum = some (ofBytes m) →
        ∀ engine host,
          plan.build engine files host =
            (.error (.checksumMismatch (ofBytes m) (ofBytes m')), host) ∧
          ∀ c, ¬ plan.Passes engine files host c) ∧
    ∀ i j, m.Exchanged m' i j → 65521 ∣ j - i → ofBytes m' = ofBytes m := by
  constructor
  · intro haltered
    have hne : adler32 m' ≠ adler32 m := by
      rcases haltered with hone | ⟨i, j, hexchanged, hdvd⟩
      · exact hone.adler32_ne
      · exact fun heq => hdvd (hexchanged.adler32_eq_iff.mp heq)
    refine ⟨fun heq => hne (ofBytes_eq_iff.mp heq), ?_⟩
    intro plan files hcontents hchecksum engine host
    exact Plan.build_of_adler32_ne hcontents hchecksum hne engine host
  · intro i j hexchanged hdvd
    exact ofBytes_eq_iff.mpr (hexchanged.adler32_eq_iff.mpr hdvd)

theorem altered_bytes_detected_exchanged :
    Bytes.Exchanged [1, 2, 3] [3, 2, 1] 0 2 ∧
    (∀ engine, Plan.build { source := .bytes [3, 2, 1], checksum := some 0x000d0007 } engine
        Launch.noFiles .still =
      (.error (.checksumMismatch 0x000d0007 0x00110007), .still)) ∧
    let between := List.replicate 65520 (0 : UInt8)
    Bytes.Exchanged (1 :: (between ++ [2])) (2 :: (between ++ [1])) 0 65521 ∧
    ofBytes (2 :: (between ++ [1])) = ofBytes (1 :: (between ++ [2])) := by
  have hnear : Bytes.Exchanged [1, 2, 3] [3, 2, 1] 0 2 :=
    ⟨by decide, 1, 3, rfl, rfl, by decide, rfl⟩
  have hdetected := (altered_bytes_detected [1, 2, 3] [3, 2, 1]).1 (.inr ⟨0, 2, hnear, by decide⟩)
  refine ⟨hnear, fun engine => ?_, ?_⟩
  · have hfirst : ofBytes [1, 2, 3] = 0x000d0007 :=
      UInt32.toNat_inj.mp ((toNat_ofBytes _).trans (by decide))
    have hsecond : ofBytes [3, 2, 1] = 0x00110007 :=
      UInt32.toNat_inj.mp ((toNat_ofBytes _).trans (by decide))
    have hbuild := hdetected.2 { source := .bytes [3, 2, 1], checksum := some (ofBytes [1, 2, 3]) }
      Launch.noFiles rfl rfl
    rw [hfirst, hsecond] at hbuild
    exact (hbuild engine .still).1
  · intro between
    have hfar := Bytes.exchanged_ends between (by decide : (1 : UInt8) ≠ 2)
    rw [List.length_replicate] at hfar
    exact ⟨hfar, (altered_bytes_detected _ _).2 0 65521 hfar (by decide)⟩

end Checksum

end WasmHost

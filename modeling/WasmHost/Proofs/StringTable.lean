import WasmHost.Proofs.Slices
import WasmHost.Proofs.TextBytes
import WasmHost.Wasi.Strings

namespace WasmHost

namespace Wasi

/-- A text and the NUL that closes it. -/
def terminated (s : String) : Bytes := Bytes.ofString s ++ [0]

@[simp] theorem length_terminated (s : String) : (terminated s).length = s.utf8ByteSize + 1 := by
  simp [terminated]

theorem allTerminated?_of_forall {strings : List String} (h : ∀ s ∈ strings, '\x00' ∉ s.toList) :
    allTerminated? strings = some (strings.map terminated) := by
  induction strings with
  | nil => rfl
  | cons s rest ih =>
    have hs : nulTerminated? s = some (terminated s) := if_neg (h s (List.mem_cons_self ..))
    have hrest := ih fun t ht => h t (List.mem_cons_of_mem _ ht)
    simp [allTerminated?, hs, hrest]

theorem allTerminated?_of_mem {strings : List String} {s : String} (hs : s ∈ strings)
    (h0 : '\x00' ∈ s.toList) :
    allTerminated? strings = none := by
  induction strings with
  | nil => cases hs
  | cons t rest ih =>
    rw [List.mem_cons] at hs
    cases hs with
    | inl he =>
      have ht : nulTerminated? t = none := by
        rw [← he]
        exact if_pos h0
      simp [allTerminated?, ht]
    | inr hr =>
      have hrest := ih hr
      cases ht : nulTerminated? t <;> simp [allTerminated?, ht, hrest]

/-- Texts are closed all or none. -/
theorem allTerminated?_cases (strings : List String) :
    (∀ s ∈ strings, '\x00' ∉ s.toList) ∧ allTerminated? strings = some (strings.map terminated) ∨
    (∃ s ∈ strings, '\x00' ∈ s.toList) ∧ allTerminated? strings = none := by
  by_cases h : ∀ s ∈ strings, '\x00' ∉ s.toList
  · exact .inl ⟨h, allTerminated?_of_forall h⟩
  · have hnul : ∃ s ∈ strings, '\x00' ∈ s.toList := by simpa using h
    obtain ⟨s, hs, h0⟩ := hnul
    exact .inr ⟨⟨s, hs, h0⟩, allTerminated?_of_mem hs h0⟩

/-- The bytes that texts take together when each is closed by a NUL. -/
def textSize (strings : List String) : Nat := (strings.map fun s => s.utf8ByteSize + 1).sum

@[simp] theorem totalSize_map_terminated (strings : List String) :
    totalSize (strings.map terminated) = textSize strings := by
  induction strings with
  | nil => rfl
  | cons s rest ih => simp [totalSize, textSize, ih]

theorem writeSizes_spec {m : Memory} {countOut sizeOut : UInt32} (hc : countOut.toNat + 4 ≤ m.size)
    (hs : sizeOut.toNat + 4 ≤ m.size)
    (hd : countOut.toNat + 4 ≤ sizeOut.toNat ∨ sizeOut.toNat + 4 ≤ countOut.toNat)
    (count size : UInt32) :
    ∃ m', writeSizes m countOut sizeOut count size = (.success, m') ∧ m'.size = m.size ∧
      m'.slice countOut.toNat 4 = Bytes.ofUInt32 count ∧
      m'.slice sizeOut.toNat 4 = Bytes.ofUInt32 size ∧
      ∀ i, (i < countOut.toNat ∨ countOut.toNat + 4 ≤ i) →
        (i < sizeOut.toNat ∨ sizeOut.toNat + 4 ≤ i) →
        m'.byte i = m.byte i := by
  generalize hm₁ : m.store countOut.toNat (Bytes.ofUInt32 count) = m₁
  have hsize : m₁.size = m.size := by
    rw [← hm₁, Memory.size_store]
  have h₁ : m.writeUInt32 countOut count = .ok m₁ := by
    rw [Memory.writeUInt32_of_le hc, hm₁]
  have h₂ : m₁.writeUInt32 sizeOut size = .ok (m₁.store sizeOut.toNat (Bytes.ofUInt32 size)) :=
    Memory.writeUInt32_of_le (by omega)
  refine ⟨m₁.store sizeOut.toNat (Bytes.ofUInt32 size), ?_, ?_, ?_, ?_, ?_⟩
  · rw [writeSizes, h₁]
    simp only [h₂]
  · rw [Memory.size_store, hsize]
  · rw [Memory.slice_store_of_disjoint (by rw [Bytes.length_ofUInt32]; omega), ← hm₁,
      Memory.slice_storeUInt32]
  · rw [Memory.slice_storeUInt32]
  · intro i hi hi'
    rw [Memory.byte_store_of_outside (by rw [Bytes.length_ofUInt32]; omega), ← hm₁,
      Memory.byte_store_of_outside (by rw [Bytes.length_ofUInt32]; omega)]

/-- The array at `list` holds the addresses of the strings, and they lie one behind the other from
`buf` on. -/
def Laid (m : Memory) (list buf : Nat) : List Bytes → Prop
  | [] => True
  | s :: rest =>
    m.slice list 4 = Bytes.ofUInt32 (UInt32.ofNat buf) ∧ m.slice buf s.length = s ∧
      Laid m (list + 4) (buf + s.length) rest

theorem writeStrings_cons {m : Memory} {list buf : Nat} {s : Bytes} (rest : List Bytes)
    (hm : m.size ≤ UInt32.size) (hs : s ≠ []) (hl : list + 4 ≤ m.size)
    (hb : buf + s.length ≤ m.size) :
    writeStrings m (UInt32.ofNat list) (UInt32.ofNat buf) (s :: rest) =
      writeStrings ((m.store list (Bytes.ofUInt32 (UInt32.ofNat buf))).store buf s)
        (UInt32.ofNat (list + 4)) (UInt32.ofNat (buf + s.length)) rest := by
  have hpos : 0 < s.length := List.length_pos_iff.mpr hs
  have hlist : (UInt32.ofNat list).toNat = list := UInt32.toNat_ofNat_of_lt (by omega)
  have hbuf : (UInt32.ofNat buf).toNat = buf := UInt32.toNat_ofNat_of_lt (by omega)
  have haddr : m.writeUInt32 (UInt32.ofNat list) (UInt32.ofNat buf) =
      .ok (m.store list (Bytes.ofUInt32 (UInt32.ofNat buf))) := by
    rw [Memory.writeUInt32_of_le (by rwa [hlist]), hlist]
  have htext : (m.store list (Bytes.ofUInt32 (UInt32.ofNat buf))).write (UInt32.ofNat buf) s =
      .ok ((m.store list (Bytes.ofUInt32 (UInt32.ofNat buf))).store buf s) := by
    rw [Memory.write_of_le (by rwa [hbuf, Memory.size_store]), hbuf]
  rw [writeStrings, haddr]
  simp only [htext]
  rw [UInt32.ofNat_add, UInt32.ofNat_add]
  rfl

/-- The loop writes what it should and where it should, and nothing else. Its pointers may wrap
around, but only behind the last string. -/
theorem writeStrings_spec {m : Memory} (hm : m.size ≤ UInt32.size) {strings : List Bytes}
    (hne : ∀ s ∈ strings, s ≠ []) {list buf : Nat} (hl : list + 4 * strings.length ≤ m.size)
    (hb : buf + totalSize strings ≤ m.size)
    (hd : list + 4 * strings.length ≤ buf ∨ buf + totalSize strings ≤ list) :
    ∃ m', writeStrings m (UInt32.ofNat list) (UInt32.ofNat buf) strings = (.success, m') ∧
      m'.size = m.size ∧
      Laid m' list buf strings ∧
      ∀ i, (i < list ∨ list + 4 * strings.length ≤ i) → (i < buf ∨ buf + totalSize strings ≤ i) →
        m'.byte i = m.byte i := by
  induction strings generalizing m list buf with
  | nil => exact ⟨m, rfl, rfl, trivial, fun _ _ _ => rfl⟩
  | cons s rest ih =>
    simp only [List.length_cons, totalSize] at hl hb hd
    have hrest : ∀ t ∈ rest, t ≠ [] := fun t ht => hne t (List.mem_cons_of_mem _ ht)
    have hstep := writeStrings_cons rest hm (hne s (List.mem_cons_self ..))
      (by omega : list + 4 ≤ m.size)
      (by omega : buf + s.length ≤ m.size)
    generalize hm₁ : m.store list (Bytes.ofUInt32 (UInt32.ofNat buf)) = m₁ at hstep
    generalize hm₂ : m₁.store buf s = m₂ at hstep
    have hsize : m₂.size = m.size := by
      rw [← hm₂, ← hm₁, Memory.size_store, Memory.size_store]
    have hl' : list + 4 + 4 * rest.length ≤ m₂.size := by omega
    have hb' : buf + s.length + totalSize rest ≤ m₂.size := by omega
    obtain ⟨m', hw, hsize', hlaid, hout⟩ := ih (by omega) hrest hl' hb' (by omega)
    refine ⟨m', hstep.trans hw, hsize'.trans hsize, ⟨?_, ?_, hlaid⟩, ?_⟩
    · have hkept : m'.slice list 4 = m₂.slice list 4 := by
        apply Memory.slice_congr
        intro i hi hi'
        exact hout i (by omega) (by omega)
      rw [hkept, ← hm₂, Memory.slice_store_of_disjoint (by omega), ← hm₁, Memory.slice_storeUInt32]
    · have hkept : m'.slice buf s.length = m₂.slice buf s.length := by
        apply Memory.slice_congr
        intro i hi hi'
        exact hout i (by omega) (by omega)
      rw [hkept, ← hm₂, Memory.slice_store]
    · intro i hi hi'
      simp only [List.length_cons, totalSize] at hi hi'
      have h₂ : m₂.byte i = m₁.byte i := by
        rw [← hm₂]
        exact Memory.byte_store_of_outside (by omega)
      have h₁ : m₁.byte i = m.byte i := by
        rw [← hm₁]
        apply Memory.byte_store_of_outside
        rw [Bytes.length_ofUInt32]
        omega
      rw [hout i (by omega) (by omega), h₂, h₁]

theorem totalSize_take_add {strings : List Bytes} {i : Nat} (hi : i < strings.length) :
    totalSize (strings.take i) + strings[i].length + totalSize (strings.drop (i + 1)) =
      totalSize strings := by
  induction strings generalizing i with
  | nil => simp at hi
  | cons s rest ih =>
    cases i with
    | zero => simp [totalSize]
    | succ i =>
      have h := ih (Nat.lt_of_succ_lt_succ hi)
      simp only [List.take_succ_cons, List.drop_succ_cons, List.getElem_cons_succ, totalSize]
      omega

theorem Laid.getElem {m : Memory} {list buf : Nat} {strings : List Bytes}
    (h : Laid m list buf strings) {i : Nat} (hi : i < strings.length) :
    m.slice (list + 4 * i) 4 = Bytes.ofUInt32 (UInt32.ofNat (buf + totalSize (strings.take i))) ∧
    m.slice (buf + totalSize (strings.take i)) strings[i].length = strings[i] := by
  induction strings generalizing list buf i with
  | nil => simp at hi
  | cons s rest ih =>
    obtain ⟨haddr, htext, hrest⟩ := h
    cases i with
    | zero => exact ⟨haddr, htext⟩
    | succ i =>
      have h := ih hrest (Nat.lt_of_succ_lt_succ hi)
      have hlist : list + 4 * (i + 1) = list + 4 + 4 * i := by omega
      simp only [List.take_succ_cons, List.getElem_cons_succ, totalSize]
      rw [hlist, ← Nat.add_assoc]
      exact h

end Wasi

end WasmHost

import WasmHost.Proofs.HostCalls
import WasmHost.Proofs.StringTable

namespace WasmHost

namespace Wasi

/-- The two lists of texts that a guest can ask for. -/
inductive StringList
  | args
  | environ

namespace StringList

def strings (context : Context) : StringList → List String
  | args => context.args
  | environ => context.env.map fun (key, value) => key ++ "=" ++ value

def sizesName : StringList → String
  | args => "args_sizes_get"
  | environ => "environ_sizes_get"

def getName : StringList → String
  | args => "args_get"
  | environ => "environ_get"

def sizes (l : StringList) : HostFunc := Syscall.toHostFunc [.i32, .i32] fun params => do
  withStrings (l.strings (← HostM.context)) (stringSizes params)

def get (l : StringList) : HostFunc := Syscall.toHostFunc [.i32, .i32] fun params => do
  withStrings (l.strings (← HostM.context)) (stringsGet params)

theorem table_get?_sizes (l : StringList) :
    table.get? ⟨importSpace, l.sizesName⟩ = some l.sizes := by
  cases l <;> rfl

theorem table_get?_get (l : StringList) : table.get? ⟨importSpace, l.getName⟩ = some l.get := by
  cases l <;> rfl

end StringList

theorem withStrings_eq {texts : List String} (h : ∀ s ∈ texts, '\x00' ∉ s.toList)
    (next : List Bytes → HostM Errno) :
    withStrings texts next = next (texts.map terminated) := by
  rw [withStrings, allTerminated?_of_forall h]

theorem withStrings_of_mem {texts : List String} {s : String} (hs : s ∈ texts)
    (h0 : '\x00' ∈ s.toList) (next : List Bytes → HostM Errno) :
    withStrings texts next = pure .inval := by
  rw [withStrings, allTerminated?_of_mem hs h0]

section

variable {c : Call} {m : Memory} {strings : List Bytes}

theorem stringSizes_eq_ok (h : c.memory = some m) (hn : strings.length < UInt32.size)
    (ht : totalSize strings < UInt32.size) (countOut sizeOut : UInt32) :
    let r := writeSizes m countOut sizeOut (UInt32.ofNat strings.length)
      (UInt32.ofNat (totalSize strings))
    stringSizes [.i32 countOut, .i32 sizeOut] strings c =
      .ok r.1 { c with memory := some r.2 } := by
  rw [stringSizes, HostM.bind_of_ok (HostM.word_eq_ok rfl c),
    HostM.bind_of_ok (HostM.word_eq_ok rfl c),
    if_pos ⟨hn, ht⟩, HostM.bind_of_ok (HostM.memory_eq_ok h), commitPart_eq_ok]

theorem stringsGet_eq_ok (h : c.memory = some m) (list buf : UInt32) :
    let r := writeStrings m list buf strings
    stringsGet [.i32 list, .i32 buf] strings c = .ok r.1 { c with memory := some r.2 } := by
  rw [stringsGet, HostM.bind_of_ok (HostM.word_eq_ok rfl c),
    HostM.bind_of_ok (HostM.word_eq_ok rfl c),
    HostM.bind_of_ok (HostM.memory_eq_ok h), commitPart_eq_ok]

end

/-- What a guest finds where it asked for the number of its texts and for the bytes that they
take. -/
structure Measured (m m' : Memory) (countOut sizeOut : Nat) (texts : List String) : Prop where
  size : m'.size = m.size
  count : m'.read? countOut 4 = some (Bytes.ofNat 4 texts.length)
  total : m'.read? sizeOut 4 = some (Bytes.ofNat 4 (textSize texts))
  outside : ∀ i, (i < countOut ∨ countOut + 4 ≤ i) → (i < sizeOut ∨ sizeOut + 4 ≤ i) →
    m'.byte i = m.byte i

/-- What a guest finds where it asked for its texts: addresses from `list` on, and the texts from
`buf` on. -/
structure HandedOver (m m' : Memory) (list buf : Nat) (texts : List String) : Prop where
  size : m'.size = m.size
  text : ∀ i (hi : i < texts.length), ∃ ptr :
      UInt32, m'.read? (list + 4 * i) 4 = some (Bytes.ofUInt32 ptr) ∧
    ptr.toNat = buf + textSize (texts.take i) ∧
    m'.cString? ptr.toNat = some (Bytes.ofString texts[i]) ∧
    (i + 1 = texts.length → ptr.toNat + (texts[i].utf8ByteSize + 1) = buf + textSize texts)
  outside : ∀ i, (i < list ∨ list + 4 * texts.length ≤ i) → (i < buf ∨ buf + textSize texts ≤ i) →
    m'.byte i = m.byte i

theorem Laid.handedOver {m m' : Memory} {list buf : Nat} {texts : List String}
    (h : Laid m' list buf (texts.map terminated)) (hm : m.size ≤ UInt32.size)
    (hsize : m'.size = m.size) (h0 : ∀ s ∈ texts, '\x00' ∉ s.toList)
    (hl : list + 4 * texts.length ≤ m.size) (hb : buf + textSize texts ≤ m.size)
    (hout : ∀ i, (i < list ∨ list + 4 * texts.length ≤ i) → (i < buf ∨ buf + textSize texts ≤ i) →
      m'.byte i = m.byte i) : HandedOver m m' list buf texts := by
  refine ⟨hsize, ?_, hout⟩
  intro i hi
  have hi' : i < (texts.map terminated).length := by simpa using hi
  obtain ⟨haddr, htext⟩ := h.getElem hi'
  have hsum := totalSize_take_add hi'
  simp only [← List.map_take, ← List.map_drop, List.getElem_map, totalSize_map_terminated,
    length_terminated]
    at haddr htext hsum
  have hptr : (UInt32.ofNat (buf + textSize (texts.take i))).toNat =
    buf + textSize (texts.take i) :=
    UInt32.toNat_ofNat_of_lt (by omega)
  refine ⟨UInt32.ofNat (buf + textSize (texts.take i)), ?_, hptr, ?_, ?_⟩
  · rw [Memory.read?_of_le (by omega), haddr]
  · rw [hptr]
    apply Memory.cString?_of_slice
    · rw [Bytes.length_ofString]
      omega
    · rw [Bytes.zero_mem_ofString_iff]
      exact h0 _ (List.getElem_mem hi)
    · rw [Bytes.length_ofString]
      exact htext
  · intro hlast
    rw [List.drop_of_length_le (by omega)] at hsum
    have hnil : textSize [] = 0 := rfl
    omega

/-- A guest that follows the addresses reads the very texts, in their order. -/
theorem HandedOver.readStrings {m m' : Memory} {list buf : Nat} {texts : List String}
    (h : HandedOver m m' list buf texts) :
    m'.readStrings list texts.length = some (texts.map Bytes.ofString) := by
  rw [← List.length_map (f := Bytes.ofString)]
  apply Memory.readStrings_eq_some
  intro i hi
  rw [List.length_map] at hi
  obtain ⟨ptr, hread, _, hs, _⟩ := h.text i hi
  rw [List.getElem_map]
  exact ⟨ptr, hread, hs⟩

namespace StringList

variable {l : StringList} {context : Context} {host : Host} {m : Memory}

theorem call_sizes (h0 : ∀ s ∈ l.strings context, '\x00' ∉ s.toList)
    (hn : (l.strings context).length < UInt32.size)
    (ht : textSize (l.strings context) < UInt32.size) (countOut sizeOut : UInt32) :
    let r := writeSizes m countOut sizeOut (UInt32.ofNat (l.strings context).length)
      (UInt32.ofNat (textSize (l.strings context)))
    l.sizes.call context [.i32 countOut, .i32 sizeOut] (some m) host =
      ⟨.ok [.i32 r.1.code], some r.2, host⟩ := by
  apply Syscall.call_eq_ok
  rw [← List.length_map (f := terminated)] at hn ⊢
  rw [← totalSize_map_terminated] at ht ⊢
  rw [HostM.bind_of_ok (HostM.context_eq_ok _), withStrings_eq h0]
  exact stringSizes_eq_ok rfl hn ht countOut sizeOut

theorem call_get (h0 : ∀ s ∈ l.strings context, '\x00' ∉ s.toList) (list buf : UInt32) :
    let r := writeStrings m list buf ((l.strings context).map terminated)
    l.get.call context [.i32 list, .i32 buf] (some m) host =
      ⟨.ok [.i32 r.1.code], some r.2, host⟩ := by
  apply Syscall.call_eq_ok
  rw [HostM.bind_of_ok (HostM.context_eq_ok _), withStrings_eq h0]
  exact stringsGet_eq_ok rfl list buf

theorem call_of_nul {s : String} (hs : s ∈ l.strings context) (h0 : '\x00' ∈ s.toList)
    (args : List Value) (memory : Option Memory) :
    l.sizes.call context args memory host = ⟨.ok [.i32 28], memory, host⟩ ∧
    l.get.call context args memory host = ⟨.ok [.i32 28], memory, host⟩ := by
  have hcall (next : List Value → List Bytes → HostM Errno) :
      (Syscall.toHostFunc [.i32, .i32] fun params => do
        withStrings (l.strings (← HostM.context)) (next params)).call context args memory host =
      ⟨.ok [.i32 Errno.inval.code], memory, host⟩ := by
    apply Syscall.call_eq_ok
    rw [HostM.bind_of_ok (HostM.context_eq_ok _), withStrings_of_mem hs h0]
    rfl
  exact ⟨hcall stringSizes, hcall stringsGet⟩

theorem exists_measured (h0 : ∀ s ∈ l.strings context, '\x00' ∉ s.toList)
    (hn : (l.strings context).length < UInt32.size)
    (ht : textSize (l.strings context) < UInt32.size) {countOut sizeOut : UInt32}
    (hc : countOut.toNat + 4 ≤ m.size) (hs : sizeOut.toNat + 4 ≤ m.size)
    (hd : countOut.toNat + 4 ≤ sizeOut.toNat ∨ sizeOut.toNat + 4 ≤ countOut.toNat) :
    ∃ m', l.sizes.call context [.i32 countOut, .i32 sizeOut] (some m) host =
      ⟨.ok [.i32 0], some m', host⟩ ∧
      Measured m m' countOut.toNat sizeOut.toNat (l.strings context) := by
  obtain ⟨m', hw, hsize, hcount, htotal, hout⟩ := writeSizes_spec hc hs hd
    (UInt32.ofNat (l.strings context).length) (UInt32.ofNat (textSize (l.strings context)))
  refine ⟨m', ?_, ⟨hsize, ?_, ?_, hout⟩⟩
  · rw [call_sizes h0 hn ht, hw]
    rfl
  · rw [Memory.read?_of_le (by omega), hcount, Bytes.ofUInt32_ofNat hn]
  · rw [Memory.read?_of_le (by omega), htotal, Bytes.ofUInt32_ofNat ht]

theorem exists_handedOver (hm : m.pages ≤ Memory.maxPages)
    (h0 : ∀ s ∈ l.strings context, '\x00' ∉ s.toList)
    {list buf : UInt32} (hl : list.toNat + 4 * (l.strings context).length ≤ m.size)
    (hb : buf.toNat + textSize (l.strings context) ≤ m.size)
    (hd : list.toNat + 4 * (l.strings context).length ≤ buf.toNat ∨
      buf.toNat + textSize (l.strings context) ≤ list.toNat) :
    ∃ m', l.get.call context [.i32 list, .i32 buf] (some m) host = ⟨.ok [.i32 0], some m', host⟩ ∧
      HandedOver m m' list.toNat buf.toNat (l.strings context) := by
  have hsize : m.size ≤ UInt32.size := by
    rw [Memory.maxPages] at hm
    simp only [Memory.size, Memory.pageSize, UInt32.size]
    omega
  have hne : ∀ s ∈ (l.strings context).map terminated, s ≠ [] := by
    intro s hs
    obtain ⟨t, _, rfl⟩ := List.mem_map.mp hs
    simp [terminated]
  have hl' := hl
  have hb' := hb
  have hd' := hd
  rw [← List.length_map (f := terminated)] at hl' hd'
  rw [← totalSize_map_terminated] at hb' hd'
  obtain ⟨m', hw, hkept, hlaid, hout⟩ := writeStrings_spec hsize hne hl' hb' hd'
  rw [List.length_map, totalSize_map_terminated] at hout
  refine ⟨m', ?_, hlaid.handedOver hsize hkept h0 hl hb hout⟩
  rw [UInt32.ofNat_toNat, UInt32.ofNat_toNat] at hw
  rw [call_get h0, hw]
  rfl

/-- What the functions of a list of texts do under their names. A guest that makes room for as much
as it is told is handed the very texts, and nothing else in its memory changes; a text with a NUL
inside makes both functions refuse, whatever they are asked. -/
theorem hand_over (l : StringList) {sizes get : HostFunc}
    (hs : table.get? ⟨importSpace, l.sizesName⟩ = some sizes)
    (hg : table.get? ⟨importSpace, l.getName⟩ = some get) (context : Context) (host : Host) :
    ((∀ s ∈ l.strings context, '\x00' ∉ s.toList) → (l.strings context).length < UInt32.size →
      textSize (l.strings context) < UInt32.size → ∀ m : Memory, m.pages ≤ Memory.maxPages →
      (∀ countOut sizeOut : UInt32, countOut.toNat + 4 ≤ m.size → sizeOut.toNat + 4 ≤ m.size →
        (countOut.toNat + 4 ≤ sizeOut.toNat ∨ sizeOut.toNat + 4 ≤ countOut.toNat) →
        ∃ m', sizes.call context [.i32 countOut, .i32 sizeOut] (some m) host =
          ⟨.ok [.i32 0], some m', host⟩ ∧
          Measured m m' countOut.toNat sizeOut.toNat (l.strings context)) ∧
      (∀ list buf : UInt32, list.toNat + 4 * (l.strings context).length ≤ m.size →
        buf.toNat + textSize (l.strings context) ≤ m.size →
        (list.toNat + 4 * (l.strings context).length ≤ buf.toNat ∨
          buf.toNat + textSize (l.strings context) ≤ list.toNat) →
        ∃ m', get.call context [.i32 list, .i32 buf] (some m) host = ⟨.ok [.i32 0], some m', host⟩ ∧
          HandedOver m m' list.toNat buf.toNat (l.strings context) ∧
          m'.readStrings list.toNat (l.strings context).length =
            some ((l.strings context).map Bytes.ofString))) ∧
    ((∃ s ∈ l.strings context, '\x00' ∈ s.toList) → ∀ args memory,
      sizes.call context args memory host = ⟨.ok [.i32 28], memory, host⟩ ∧
      get.call context args memory host = ⟨.ok [.i32 28], memory, host⟩) := by
  obtain rfl := Option.some.inj (hs.symm.trans l.table_get?_sizes)
  obtain rfl := Option.some.inj (hg.symm.trans l.table_get?_get)
  constructor
  · intro h0 hn ht m hm
    constructor
    · intro countOut sizeOut hc hs hd
      exact exists_measured h0 hn ht hc hs hd
    · intro list buf hl hb hd
      obtain ⟨m', hcall, h⟩ := exists_handedOver hm h0 hl hb hd
      exact ⟨m', hcall, h, h.readStrings⟩
  · intro hnul args memory
    obtain ⟨s, hs, h0⟩ := hnul
    exact call_of_nul hs h0 args memory

def greeting : Context := ContextDraft.build { args := ["ab", "", "é"], env := [("k", "v")] } 0

theorem hand_over_greeting :
    ∃ m', (args.get).call greeting [.i32 16, .i32 64] (some (.zeroed 1 1)) .still =
      ⟨.ok [.i32 0], some m', .still⟩ ∧
      m'.readStrings 16 3 = some [[0x61, 0x62], [], [0xc3, 0xa9]] := by
  have h0 : ∀ s ∈ args.strings greeting, '\x00' ∉ s.toList := by
    decide
  have hsize : textSize (args.strings greeting) = 7 := by
    decide
  obtain ⟨h, _⟩ := hand_over args args.table_get?_sizes args.table_get?_get greeting .still
  obtain ⟨_, hget⟩ := h h0 (by decide) (by rw [hsize]; decide) (.zeroed 1 1) (by decide)
  obtain ⟨m', hcall, _, hread⟩ := hget 16 64 (by decide) (by rw [hsize]; decide) (by left; decide)
  exact ⟨m', hcall, hread⟩

end StringList

end Wasi

end WasmHost

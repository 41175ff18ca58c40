import Mathlib.Data.List.Basic
import WasmHost.Proofs.HandOver

namespace WasmHost

namespace Wasi

/-- What a guest takes a text of its environment for: a key up to the first `=`, and the value
behind it. -/
def splitEntry (text : Bytes) : Bytes × Bytes :=
  (text.takeWhile (· ≠ 0x3d), (text.dropWhile (· ≠ 0x3d)).drop 1)

theorem splitEntry_of_not_mem {key : Bytes} (h : 0x3d ∉ key) (value : Bytes) :
    splitEntry (key ++ 0x3d :: value) = (key, value) := by
  have hkey : ∀ b ∈ key, decide (b ≠ 0x3d) = true := by
    intro b hb
    rw [decide_eq_true_iff]
    intro he
    rw [he] at hb
    exact h hb
  rw [splitEntry, List.takeWhile_append_of_pos hkey, List.dropWhile_append_of_pos hkey,
    List.takeWhile_cons_of_neg (by simp), List.dropWhile_cons_of_neg (by simp), List.append_nil]
  rfl

/-- Only a key without an `=` is found again. -/
theorem splitEntry_eq_iff {key value : Bytes} :
    splitEntry (key ++ 0x3d :: value) = (key, value) ↔ 0x3d ∉ key := by
  constructor
  · intro h hmem
    have hkey : (key ++ 0x3d :: value).takeWhile (· ≠ 0x3d) = key := congrArg Prod.fst h
    rw [← hkey] at hmem
    have hne := List.all_takeWhile (p := (· ≠ 0x3d)) (l := key ++ 0x3d :: value)
    rw [List.all_eq_true] at hne
    simpa using hne _ hmem
  · intro h
    exact splitEntry_of_not_mem h value

/-- A key and its value as the guest should find them. -/
def entryBytes (entry : String × String) : Bytes × Bytes :=
  (Bytes.ofString entry.1, Bytes.ofString entry.2)

theorem entryBytes_injective : Function.Injective entryBytes := by
  intro entry entry' h
  obtain ⟨hkey, hvalue⟩ := Prod.ext_iff.mp h
  exact Prod.ext (Bytes.ofString_inj.mp hkey) (Bytes.ofString_inj.mp hvalue)

theorem ofString_entry (key value : String) :
    Bytes.ofString (key ++ "=" ++ value) = Bytes.ofString key ++ 0x3d :: Bytes.ofString value := by
  have hequals : Bytes.ofString "=" = [0x3d] := by decide
  rw [Bytes.ofString_append, Bytes.ofString_append, hequals, List.append_assoc]
  rfl

theorem splitEntry_ofString_iff {entry : String × String} :
    splitEntry (Bytes.ofString (entry.1 ++ "=" ++ entry.2)) = entryBytes entry ↔
      '=' ∉ entry.1.toList := by
  have hmem : 0x3d ∈ Bytes.ofString entry.1 ↔ '=' ∈ entry.1.toList :=
    Bytes.mem_ofString_iff (a := '=') (by decide)
  rw [ofString_entry, entryBytes, splitEntry_eq_iff, hmem]

/-- All entries are found again exactly when all keys are without an `=`. -/
theorem map_splitEntry_iff {env : List (String × String)} :
    ((envStrings env).map Bytes.ofString).map splitEntry = env.map entryBytes ↔
      ∀ entry ∈ env, '=' ∉ entry.1.toList := by
  simp only [envStrings, List.map_map, List.map_inj_left, Function.comp_apply,
    splitEntry_ofString_iff]

/-- Of lists whose keys are without an `=` no two are joined to the same texts. -/
theorem eq_of_envStrings_eq {env env' : List (String × String)}
    (h : ∀ entry ∈ env, '=' ∉ entry.1.toList) (h' : ∀ entry ∈ env', '=' ∉ entry.1.toList)
    (he : envStrings env = envStrings env') : env = env' := by
  have hsplit := map_splitEntry_iff.mpr h
  have hsplit' := map_splitEntry_iff.mpr h'
  rw [he, hsplit'] at hsplit
  exact (entryBytes_injective.list_map hsplit).symm

end Wasi

/-- The environment that a guest finds when it follows `count` addresses from `list` on. -/
def Memory.readEnviron (m : Memory) (list count : Nat) : Option (List (Bytes × Bytes)) :=
  (m.readStrings list count).map (List.map Wasi.splitEntry)

namespace Wasi

namespace StringList

/-- A call that succeeds in regions which lie in the memory and apart from each other has handed the
texts over. -/
theorem handedOver_of_call {l : StringList} {context : Context} {host host' : Host} {m m' : Memory}
    {list buf : UInt32}
    (hm : m.pages ≤ Memory.maxPages) (hl : list.toNat + 4 * (l.strings context).length ≤ m.size)
    (hb : buf.toNat + textSize (l.strings context) ≤ m.size)
    (hd : list.toNat + 4 * (l.strings context).length ≤ buf.toNat ∨
      buf.toNat + textSize (l.strings context) ≤ list.toNat)
    (h : l.get.call context [.i32 list, .i32 buf] (some m) host = ⟨.ok [.i32 0], some m', host'⟩) :
    HandedOver m m' list.toNat buf.toNat (l.strings context) := by
  have h0 : ∀ s ∈ l.strings context, '\x00' ∉ s.toList := by
    intro s hs hnul
    have hcall : l.get.call context [.i32 list, .i32 buf] (some m) host =
      ⟨.ok [.i32 28], some m, host⟩ :=
      (call_of_nul hs hnul _ _).2
    rw [hcall] at h
    simp at h
  have hgiven : ∃ m'', l.get.call context [.i32 list, .i32 buf] (some m) host =
    ⟨.ok [.i32 0], some m'', host⟩ ∧
      HandedOver m m'' list.toNat buf.toNat (l.strings context) := exists_handedOver hm h0 hl hb hd
  obtain ⟨m'', hcall, hover⟩ := hgiven
  rw [hcall] at h
  have hsame : m'' = m' := by
    simp only [Reply.mk.injEq, Option.some.injEq, true_and] at h
    exact h.1
  rwa [hsame] at hover

end StringList

/-- A call of `get` succeeds in handing the environment over to regions which lie in the memory and
apart from each other, and leaves the memory `m'`. -/
structure GivesEnviron (get : HostFunc) (context : Context) (m m' : Memory) (list buf : UInt32) :
    Prop where
  pages : m.pages ≤ Memory.maxPages
  listFits : list.toNat + 4 * context.env.length ≤ m.size
  textsFit : buf.toNat + textSize (envStrings context.env) ≤ m.size
  apart : list.toNat + 4 * context.env.length ≤ buf.toNat ∨
    buf.toNat + textSize (envStrings context.env) ≤ list.toNat
  succeeds : ∃ host host', get.call context [.i32 list, .i32 buf] (some m) host =
    ⟨.ok [.i32 0], some m', host'⟩

theorem GivesEnviron.readStrings {context : Context} {m m' : Memory} {list buf : UInt32}
    (h : GivesEnviron StringList.environ.get context m m' list buf) :
    m'.readStrings list.toNat context.env.length =
      some ((envStrings context.env).map Bytes.ofString) := by
  obtain ⟨hpages, hlist, htexts, hapart, host, host', hcall⟩ := h
  have hlen : (StringList.environ.strings context).length = context.env.length := List.length_map _
  have hover : HandedOver m m' list.toNat buf.toNat (StringList.environ.strings context) := by
    apply StringList.handedOver_of_call hpages _ htexts _ hcall
    · rwa [hlen]
    · rwa [hlen]
  have hread := hover.readStrings
  rwa [hlen] at hread

theorem exists_givesEnviron {context : Context}
    (h0 : ∀ s ∈ envStrings context.env, '\x00' ∉ s.toList)
    {m : Memory} (hm : m.pages ≤ Memory.maxPages) {list buf : UInt32}
    (hl : list.toNat + 4 * context.env.length ≤ m.size)
    (hb : buf.toNat + textSize (envStrings context.env) ≤ m.size)
    (hd : list.toNat + 4 * context.env.length ≤ buf.toNat ∨
      buf.toNat + textSize (envStrings context.env) ≤ list.toNat) :
    ∃ m', GivesEnviron StringList.environ.get context m m' list buf := by
  have hlen : (StringList.environ.strings context).length = context.env.length := List.length_map _
  have hcall : ∃ m', StringList.environ.get.call context [.i32 list, .i32 buf] (some m) .still =
      ⟨.ok [.i32 0], some m', .still⟩ ∧
        HandedOver m m' list.toNat buf.toNat (StringList.environ.strings context) := by
    apply StringList.exists_handedOver (l := .environ) hm h0 _ hb
    · rwa [hlen]
    · rwa [hlen]
  obtain ⟨m', hcall, _⟩ := hcall
  exact ⟨m', hm, hl, hb, hd, .still, .still, hcall⟩

/-- What a guest that splits each text at its first `=` makes of its environment. It finds the very
entries exactly when no key has an `=` in it. Two environments look the same to it exactly when
their entries are joined to the same texts, which different lists of entries never are as long as no
key has an `=` in it. -/
theorem environ_read_back {get : HostFunc} (hg : table.get? ⟨importSpace, "environ_get"⟩ = some get)
    {context : Context} {m m' : Memory} {list buf : UInt32}
    (h : GivesEnviron get context m m' list buf) :
    (m'.readEnviron list.toNat context.env.length = some (context.env.map entryBytes) ↔
      ∀ entry ∈ context.env, '=' ∉ entry.1.toList) ∧
    ∀ {other : Context} {o o' : Memory} {list' buf' : UInt32},
      GivesEnviron get other o o' list' buf' →
      (m'.readStrings list.toNat context.env.length = o'.readStrings list'.toNat other.env.length ↔
        envStrings context.env = envStrings other.env) ∧
      (m'.readStrings list.toNat context.env.length = o'.readStrings list'.toNat other.env.length →
        (∀ entry ∈ context.env ++ other.env, '=' ∉ entry.1.toList) → context.env = other.env) := by
  obtain rfl := Option.some.inj (hg.symm.trans StringList.environ.table_get?_get)
  constructor
  · rw [Memory.readEnviron, h.readStrings, Option.map_some, Option.some.injEq]
    exact map_splitEntry_iff
  · intro other o o' list' buf' h'
    have hsame : m'.readStrings list.toNat context.env.length =
      o'.readStrings list'.toNat other.env.length ↔
        envStrings context.env = envStrings other.env := by
      rw [h.readStrings, h'.readStrings, Option.some.injEq]
      exact (List.map_injective_iff.mpr fun _ _ => Bytes.ofString_inj.mp).eq_iff
    refine ⟨hsame, ?_⟩
    intro hlook hkeys
    apply eq_of_envStrings_eq _ _ (hsame.mp hlook)
    · intro entry hentry
      exact hkeys entry (List.mem_append_left _ hentry)
    · intro entry hentry
      exact hkeys entry (List.mem_append_right _ hentry)

/-- One variable whose name has an `=` in it. -/
def shifted : Context := ContextDraft.build { env := [("a=b", "c")] } 0

/-- One variable whose value has an `=` in it. -/
def unshifted : Context := ContextDraft.build { env := [("a", "b=c")] } 0

theorem environ_read_back_shifted :
    ∃ m' o', GivesEnviron StringList.environ.get shifted (.zeroed 1 1) m' 16 64 ∧
      GivesEnviron StringList.environ.get unshifted (.zeroed 1 1) o' 16 64 ∧
      m'.readEnviron 16 1 ≠ some [entryBytes ("a=b", "c")] ∧
      o'.readEnviron 16 1 = some [entryBytes ("a", "b=c")] ∧
      m'.readStrings 16 1 = o'.readStrings 16 1 := by
  have hsize : textSize (envStrings shifted.env) = 6 := by decide
  have hsize' : textSize (envStrings unshifted.env) = 6 := by decide
  have hgives : ∃ m', GivesEnviron StringList.environ.get shifted (.zeroed 1 1) m' 16 64 := by
    apply exists_givesEnviron (by decide) (by decide) (by decide)
    · rw [hsize]
      decide
    · rw [hsize]
      left
      decide
  have hgives' : ∃ o', GivesEnviron StringList.environ.get unshifted (.zeroed 1 1) o' 16 64 := by
    apply exists_givesEnviron (by decide) (by decide) (by decide)
    · rw [hsize']
      decide
    · rw [hsize']
      left
      decide
  obtain ⟨m', h⟩ := hgives
  obtain ⟨o', h'⟩ := hgives'
  obtain ⟨hfound, hlook⟩ := environ_read_back StringList.environ.table_get?_get h
  obtain ⟨hfound', _⟩ := environ_read_back StringList.environ.table_get?_get h'
  obtain ⟨hsame, _⟩ := hlook h'
  refine ⟨m', o', h, h', ?_, ?_, ?_⟩
  · intro hread
    exact absurd (hfound.mp hread) (by decide)
  · exact hfound'.mpr (by decide)
  · exact hsame.mpr (by decide)

end Wasi

end WasmHost

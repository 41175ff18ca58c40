import WasmHost.Proofs.Demands

namespace WasmHost.Wasi

namespace Demand

variable {d : Demand} {cells : Nat → Prop} {of : Memory → Except Errno (List Patch)}
  {start len : Nat}

/-- The patches that are asked for are meant for these cells. -/
def Within (cells : Nat → Prop) : Demand → Prop
  | patch of => ∀ m patches, of m = .ok patches → ∀ p ∈ patches, ∀ i, p.Covers i → cells i
  | _ => True

/-- Only the cells of the patches that are asked for change, and the memory stays as large as it
is. -/
theorem Within.resolve (h : d.Within cells) (m : Memory) :
    ∃ m', (d.resolve (some m)).2 = some m' ∧ m'.pages = m.pages ∧ m'.limit = m.limit ∧
      ∀ i, ¬ cells i → m'.byte i = m.byte i := by
  cases d with
  | stop s => exact ⟨m, rfl, rfl, rfl, fun _ _ => rfl⟩
  | answer errno => exact ⟨m, rfl, rfl, rfl, fun _ _ => rfl⟩
  | patch of =>
    rw [Demand.resolve]
    cases hof : of m with
    | error errno => exact ⟨m, rfl, rfl, rfl, fun _ _ => rfl⟩
    | ok patches =>
      obtain ⟨done, hpart, hdone⟩ := exists_settle_eq_storeAll m patches
      obtain ⟨stored, hstored⟩ := m.exists_cells_storeAll done
      refine ⟨m.storeAll done, by simp only [hdone], by rw [hstored], by rw [hstored], ?_⟩
      intro i hi
      apply Memory.byte_storeAll_of_not_covers
      intro p hp hcovers
      exact hi (h m patches hof p (hpart.subset hp) i hcovers)

theorem resolve_none (d : Demand) : (d.resolve none).2 = none := by
  cases d <;> rfl

/-- An answer other than success leaves the memory as it is. -/
def AllOrNothing (d : Demand) : Prop :=
  ∀ m, (d.resolve (some m)).1 ≠ .ok .success → (d.resolve (some m)).2 = some m

/-- If anything is to be written, it is one patch of this length at this place. -/
def OnePatch (start len : Nat) (of : Memory → Except Errno (List Patch)) : Prop :=
  ∀ m patches, of m = .ok patches → ∃ bytes : Bytes, bytes.length = len ∧ patches = [⟨start, bytes⟩]

theorem OnePatch.within (h : OnePatch start len of) (hc : ∀ i, InRange start len i → cells i) :
    (patch of).Within cells := by
  intro m patches hof p hp i hi
  obtain ⟨bytes, hlen, rfl⟩ := h m patches hof
  obtain rfl := List.mem_singleton.mp hp
  rw [Patch.Covers, hlen] at hi
  exact hc i hi

/-- A single patch is applied or not. -/
theorem OnePatch.allOrNothing (h : OnePatch start len of) : AllOrNothing (patch of) := by
  intro m hfail
  rw [resolve] at hfail ⊢
  cases hof : of m with
  | error errno => rfl
  | ok patches =>
    obtain ⟨bytes, _, rfl⟩ := h m patches hof
    simp only [hof] at hfail ⊢
    by_cases hp : Patch.Fits ⟨start, bytes⟩ m
    · rw [settle_of_fits (by simpa using hp)] at hfail
      exact absurd rfl hfail
    · rw [settle, if_neg hp]

theorem onePatch_const {bytes : Bytes} (h : bytes.length = len) :
    OnePatch start len fun _ => .ok [⟨start, bytes⟩] := by
  intro m patches hp
  cases hp
  exact ⟨bytes, h, rfl⟩

theorem onePatch_countOf (streams : Streams) (sink : Sink) (fd iovs count out : UInt32) :
    OnePatch out.toNat 4 (countOf streams sink fd iovs count out) := by
  intro m patches hp
  unfold countOf at hp
  split at hp
  · cases hp
  · split at hp
    · split at hp <;> cases hp
      exact ⟨_, Bytes.length_ofUInt32 _, rfl⟩
    · cases hp

end Demand

/-- The patches that hand texts over lie where the addresses and the texts go. -/
theorem mem_handOver {list buf : Nat} {texts : List String} {p : Patch}
    (h : p ∈ handOver list buf (texts.map terminated)) :
    ∃ i, ∃ hi : i < texts.length, p.start = Memory.wrapped (list + 4 * i) ∧ p.bytes.length = 4 ∨
      p.start = Memory.wrapped (buf + textSize (texts.take i)) ∧
      p.bytes.length = texts[i].utf8ByteSize + 1 := by
  simp only [handOver, List.mem_flatMap, List.mem_range, List.length_map, List.mem_cons,
    List.not_mem_nil, or_false] at h
  obtain ⟨i, hi, hp⟩ := h
  refine ⟨i, hi, ?_⟩
  rw [← List.map_take, totalSize_map_terminated] at hp
  rcases hp with rfl | rfl
  · exact .inl ⟨rfl, Bytes.length_ofNat ..⟩
  · refine .inr ⟨rfl, ?_⟩
    simp [List.getD_eq_getElem?_getD, hi]

/-- Of two patches that are not both applied, at most the first one is. -/
theorem settle_pair {m : Memory} {p q : Patch} (h : (settle m [p, q]).1 ≠ .success) :
    (settle m [p, q]).2 = m ∨ p.Fits m ∧ (settle m [p, q]).2 = m.store p.start p.bytes := by
  by_cases hp : p.Fits m
  · refine .inr ⟨hp, ?_⟩
    rw [settle, if_pos hp] at h ⊢
    by_cases hq : q.Fits (m.store p.start p.bytes)
    · rw [settle, if_pos hq] at h
      exact absurd rfl h
    · rw [settle, if_neg hq]
  · rw [settle, if_neg hp]
    exact .inl rfl

namespace Service

open Demand

/-- The cells that a call may write to. Where a piece begins is brought back into 32 bits. -/
def Footprint (context : Context) (args : List Value) (i : Nat) : Service → Prop
  | exit | yield => False
  | clockTime => ∃ out, args[2]? = some (.i32 out) ∧ InRange out.toNat 8 i
  | clockResolution => ∃ out, args[1]? = some (.i32 out) ∧ InRange out.toNat 8 i
  | sizes _ => ∃ countOut sizeOut, args[0]? = some (.i32 countOut) ∧
    args[1]? = some (.i32 sizeOut) ∧
      (InRange countOut.toNat 4 i ∨ InRange sizeOut.toNat 4 i)
  | get l => ∃ list buf, args[0]? = some (.i32 list) ∧ args[1]? = some (.i32 buf) ∧
      ∃ k, ∃ hk : k < (l.strings context).length,
        InRange (Memory.wrapped (list.toNat + 4 * k)) 4 i ∨
        InRange (Memory.wrapped (buf.toNat + textSize ((l.strings context).take k)))
          ((l.strings context)[k].utf8ByteSize + 1) i
  | write => ∃ out, args[3]? = some (.i32 out) ∧ InRange out.toNat 4 i
  | random => ∃ buf len, args[0]? = some (.i32 buf) ∧ args[1]? = some (.i32 len) ∧
    InRange buf.toNat len.toNat i

theorem within_footprint (s : Service) (context : Context) (host : Host) (args : List Value) :
    (s.demand context host args).Within fun i => s.Footprint context args i := by
  have hstop : ∀ stop, (Demand.stop stop).Within fun i => s.Footprint context args i :=
    fun _ => trivial
  have hanswer : ∀ errno, (Demand.answer errno).Within fun i => s.Footprint context args i :=
    fun _ => trivial
  cases s with
  | exit => exact ofWord_cases hstop fun code _ => trivial
  | clockTime =>
    refine ofWord_cases hstop fun id _ => ofLong_cases hstop fun _ _ =>
      ofWord_cases hstop fun out hout => ?_
    refine ofClock_cases hanswer fun nanos =>
      (onePatch_const (Bytes.length_ofUInt64 _)).within fun i hi => ?_
    exact ⟨out, hout, hi⟩
  | clockResolution =>
    refine ofWord_cases hstop fun id _ => ofWord_cases hstop fun out hout => ?_
    refine ofClock_cases hanswer fun nanos =>
      (onePatch_const (Bytes.length_ofUInt64 _)).within fun i hi => ?_
    exact ⟨out, hout, hi⟩
  | sizes l =>
    refine ofTexts_cases (hanswer _)
      (ofWord_cases hstop fun countOut hc => ofWord_cases hstop fun sizeOut hs => ?_)
    split
    · intro m patches hp p hmem i hi
      cases hp
      refine ⟨countOut, sizeOut, hc, hs, ?_⟩
      simp only [List.mem_cons, List.not_mem_nil, or_false] at hmem
      rcases hmem with rfl | rfl
      · rw [Patch.Covers, Bytes.length_ofUInt32] at hi
        exact .inl hi
      · rw [Patch.Covers, Bytes.length_ofUInt32] at hi
        exact .inr hi
    · trivial
  | get l =>
    refine ofTexts_cases (hanswer _)
      (ofWord_cases hstop fun list hl => ofWord_cases hstop fun buf hb => ?_)
    intro m patches hp p hmem i hi
    cases hp
    obtain ⟨k, hk, hplace⟩ := mem_handOver hmem
    refine ⟨list, buf, hl, hb, k, hk, ?_⟩
    rw [Patch.Covers] at hi
    rcases hplace with ⟨hstart, hlen⟩ | ⟨hstart, hlen⟩
    · rw [hstart, hlen] at hi
      exact .inl hi
    · rw [hstart, hlen] at hi
      exact .inr hi
  | write =>
    refine ofWord_cases hstop fun fd _ => ofWord_cases hstop fun iovs _ =>
      ofWord_cases hstop fun count _ =>
      ofWord_cases hstop fun out hout => ?_
    cases context.output? fd with
    | none => trivial
    | some sink =>
      exact (onePatch_countOf host.streams sink fd iovs count out).within fun i hi =>
        ⟨out, hout, hi⟩
  | random =>
    refine ofWord_cases hstop fun buf hb => ofWord_cases hstop fun len hl => ?_
    exact (onePatch_const (Entropy.length_draw host.entropy len.toNat)).within fun i hi =>
      ⟨buf, len, hb, hl, hi⟩
  | yield => trivial

/-- What a call that does not succeed leaves of the memory. The functions that write more than once
keep what they have written before the first write that does not fit, to be read where it was
written; all others keep nothing. -/
def Leaves (context : Context) (args : List Value) (result : Except Stop (List Value))
    (m m' : Memory) : Service → Prop
  | sizes l => m' = m ∨ ∃ countOut, args[0]? = some (.i32 countOut) ∧ countOut.toNat + 4 ≤ m.size ∧
      m' = m.store countOut.toNat (Bytes.ofNat 4 (l.strings context).length) ∧
      m.Patched m' [⟨countOut.toNat, Bytes.ofNat 4 (l.strings context).length⟩]
  | get l =>
    (result ≠ .ok [.i32 21] → m' = m) ∧
    (result = .ok [.i32 21] →
      ∃ list buf done, args[0]? = some (.i32 list) ∧ args[1]? = some (.i32 buf) ∧
      Stops m (handOver list.toNat buf.toNat ((l.strings context).map terminated)) done ∧
      m' = m.storeAll done ∧
      m.Patched m' done)
  | _ => m' = m

/-- Every function writes all or nothing that does not hand over more than one piece. -/
theorem allOrNothing_demand (s : Service) (hs : ∀ l, s ≠ sizes l ∧ s ≠ get l) (context : Context)
    (host : Host) (args : List Value) : (s.demand context host args).AllOrNothing := by
  have hstop (stop : Stop) : (Demand.stop stop).AllOrNothing := fun _ _ => rfl
  have hanswer (errno : Errno) : (Demand.answer errno).AllOrNothing := fun _ _ => rfl
  cases s with
  | exit => exact ofWord_cases hstop fun code _ => hstop _
  | clockTime =>
    refine ofWord_cases hstop fun id _ => ofLong_cases hstop fun _ _ =>
      ofWord_cases hstop fun out _ => ?_
    exact ofClock_cases hanswer fun nanos =>
      (onePatch_const (Bytes.length_ofUInt64 nanos)).allOrNothing
  | clockResolution =>
    refine ofWord_cases hstop fun id _ => ofWord_cases hstop fun out _ => ?_
    exact ofClock_cases hanswer fun nanos =>
      (onePatch_const (Bytes.length_ofUInt64 nanos)).allOrNothing
  | sizes l => exact absurd rfl (hs l).1
  | get l => exact absurd rfl (hs l).2
  | write =>
    refine ofWord_cases hstop fun fd _ => ofWord_cases hstop fun iovs _ =>
      ofWord_cases hstop fun count _ =>
      ofWord_cases hstop fun out _ => ?_
    cases context.output? fd with
    | none => exact hanswer _
    | some sink => exact (onePatch_countOf host.streams sink fd iovs count out).allOrNothing
  | random =>
    refine ofWord_cases hstop fun buf _ => ofWord_cases hstop fun len _ => ?_
    exact (onePatch_const (Entropy.length_draw host.entropy len.toNat)).allOrNothing
  | yield => exact hanswer _

/-- As `Leaves`, for what a demand comes to. -/
def LeavesBy (s : Service) (context : Context) (args : List Value) (d : Demand) : Prop :=
  ∀ m m', (d.resolve (some m)).1 ≠ .ok .success → (d.resolve (some m)).2 = some m' →
    s.Leaves context args ((d.resolve (some m)).1.map fun errno => [.i32 errno.code]) m m'

theorem leavesBy_sizes (l : StringList) (context : Context) (host : Host) (args : List Value) :
    LeavesBy (sizes l) context args ((sizes l).demand context host args) := by
  have hsame {d : Demand} (h : ∀ m, (d.resolve (some m)).2 = some m) :
      LeavesBy (sizes l) context args d := by
    intro m m' _ hm'
    rw [h m, Option.some.injEq] at hm'
    exact .inl hm'.symm
  have hstop (stop : Stop) : LeavesBy (sizes l) context args (.stop stop) := hsame fun _ => rfl
  have hanswer (errno : Errno) : LeavesBy (sizes l) context args (.answer errno) :=
    hsame fun _ => rfl
  refine ofTexts_cases (hanswer _)
    (ofWord_cases hstop fun countOut hc => ofWord_cases hstop fun sizeOut _ => ?_)
  split
  · rename_i hsmall
    rw [List.length_map] at hsmall
    intro m m' hfail hm'
    have hcount : (UInt32.ofNat (l.strings context).length).toNat = (l.strings context).length :=
      UInt32.toNat_ofNat_of_lt' hsmall.1
    simp only [resolve, List.length_map, Bytes.ofUInt32, hcount] at hfail hm'
    rw [Option.some.injEq] at hm'
    rw [← hm']
    rcases settle_pair (fun hsuccess =>
      hfail (congrArg Except.ok hsuccess)) with hnone | ⟨hfits, hfirst⟩
    · exact .inl hnone
    · rw [Patch.Fits, Bytes.length_ofNat] at hfits
      refine .inr ⟨countOut, hc, hfits, hfirst, ?_⟩
      rw [hfirst]
      exact m.patched_storeAll [⟨countOut.toNat, Bytes.ofNat 4 (l.strings context).length⟩]
  · exact hanswer _

theorem leavesBy_get (l : StringList) (context : Context) (host : Host) (args : List Value) :
    LeavesBy (get l) context args ((get l).demand context host args) := by
  have hstop (stop : Stop) : LeavesBy (get l) context args (.stop stop) := by
    intro m m' _ hm'
    cases hm'
    exact ⟨fun _ => rfl, fun h => by cases h⟩
  have hinval : LeavesBy (get l) context args (.answer .inval) := by
    intro m m' _ hm'
    cases hm'
    exact ⟨fun _ => rfl, fun h => by cases h⟩
  refine ofTexts_cases hinval
    (ofWord_cases hstop fun list hl => ofWord_cases hstop fun buf hb => ?_)
  intro m m' hfail hm'
  simp only [resolve] at hfail hm' ⊢
  have hnot : ¬ ∀ p ∈ handOver list.toNat buf.toNat ((l.strings context).map terminated),
    p.Fits m := by
    intro hfits
    rw [settle_of_fits hfits] at hfail
    exact hfail rfl
  obtain ⟨done, hdone⟩ := exists_stops hnot
  rw [hdone.settle] at hm' ⊢
  cases hm'
  exact ⟨fun h => absurd rfl h, fun _ =>
    ⟨list, buf, done, hl, hb, hdone, rfl, m.patched_storeAll done⟩⟩

theorem leavesBy (s : Service) (context : Context) (host : Host) (args : List Value) :
    LeavesBy s context args (s.demand context host args) := by
  have hsame (hs : ∀ l, s ≠ sizes l ∧ s ≠ get l) {m m' : Memory}
      (hfail : ((s.demand context host args).resolve (some m)).1 ≠ .ok .success)
      (hm' : ((s.demand context host args).resolve (some m)).2 = some m') : m' = m := by
    rw [allOrNothing_demand s hs context host args m hfail, Option.some.injEq] at hm'
    exact hm'.symm
  cases s with
  | sizes l => exact leavesBy_sizes l context host args
  | get l => exact leavesBy_get l context host args
  | exit | yield | write | random | clockTime | clockResolution =>
    exact fun m m' => hsame (by simp)

end Service

/-- What the functions of the table do to memory. It is seen only when it is there, stays as large
as it is, and changes only in the footprint of the call; after a call that does not succeed it is as
`Leaves` says. -/
theorem write_footprint {name : ImportName} {f : HostFunc} (hf : table.get? name = some f)
    (context : Context) (args : List Value) (host : Host) :
    ∃ s : Service, name = ⟨importSpace, s.name⟩ ∧ (f.call context args none host).memory = none ∧
      ∀ m, ∃ m', (f.call context args (some m) host).memory = some m' ∧ m'.pages = m.pages ∧
        m'.limit = m.limit ∧
        (∀ i, ¬ s.Footprint context args i → m'.byte i = m.byte i) ∧
        ((f.call context args (some m) host).result ≠ .ok [.i32 0] →
          s.Leaves context args (f.call context args (some m) host).result m m') := by
  obtain ⟨s, rfl, rfl⟩ := Service.table_get?_eq_some_iff.mp hf
  refine ⟨s, rfl, ?_, ?_⟩
  · obtain ⟨host', hcall⟩ := s.exists_call context args none host
    rw [hcall, Demand.reply, Demand.resolve_none]
  · intro m
    obtain ⟨host', hcall⟩ := s.exists_call context args (some m) host
    obtain ⟨m', hm', hpages, hlimit, hout⟩ := (s.within_footprint context host args).resolve m
    rw [hcall, Demand.reply]
    refine ⟨m', hm', hpages, hlimit, hout, ?_⟩
    intro hfail
    refine s.leavesBy context host args m m' ?_ hm'
    intro hsuccess
    rw [hsuccess] at hfail
    exact hfail rfl

/-- The third address would come right behind the memory. So two addresses and two texts have been
written. -/
theorem write_footprint_greeting :
    let patches := handOver 65528 0 (StringList.greeting.args.map terminated)
    let reply := StringList.args.get.call StringList.greeting [.i32 65528, .i32 0]
      (some (.zeroed 1 1)) .still
    reply.result = .ok [.i32 21] ∧
      reply.memory = some ((Memory.zeroed 1 1).storeAll (patches.take 4)) := by
  intro patches reply
  have hstops : Stops (.zeroed 1 1) patches (patches.take 4) :=
    ⟨by decide, ⟨65536, [4, 0, 0, 0]⟩, patches.drop 5, rfl, by decide⟩
  let written := writeStrings (.zeroed 1 1) 65528 0 (StringList.greeting.args.map terminated)
  have hsettled : written = (.fault, (Memory.zeroed 1 1).storeAll (patches.take 4)) :=
    (writeStrings_eq_settle ..).trans hstops.settle
  have hcall : reply = ⟨.ok [.i32 written.1.code], some written.2, .still⟩ :=
    StringList.call_get (by decide) 65528 0
  have hresult : reply.result = .ok [.i32 21] := by
    rw [hcall, hsettled]
    rfl
  obtain ⟨s, hname, _, h⟩ := write_footprint StringList.args.table_get?_get StringList.greeting
    [.i32 65528, .i32 0] .still
  obtain rfl : Service.get .args = s := Service.name_injective (congrArg ImportName.name hname)
  obtain ⟨m', hm', _, _, _, hleaves⟩ := h (.zeroed 1 1)
  have hfail : reply.result ≠ .ok [.i32 0] := by
    rw [hresult]
    decide
  obtain ⟨list, buf, done, hl, hb, hdone, rfl, _⟩ := (hleaves hfail).2 hresult
  cases hl
  cases hb
  have hstored : (Memory.zeroed 1 1).storeAll (patches.take 4) =
    (Memory.zeroed 1 1).storeAll done :=
    congrArg Prod.snd (hstops.settle.symm.trans hdone.settle)
  exact ⟨hresult, hstored ▸ hm'⟩

end WasmHost.Wasi

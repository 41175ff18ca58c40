import WasmHost.Plan
import WasmHost.Proofs.Bindings
import WasmHost.Proofs.Conversion

namespace WasmHost

namespace Import

/-- A function import for whose name there is a binding with the signature of the import. -/
def SatisfiedBy (bindings : HostTable) (i : Import) : Prop :=
  ∃ type func, i.type = .func type ∧ bindings.get? i.name = some func ∧
    Signature.ofFuncType type = .ok func.signature

/-- The error that an import fails with. -/
inductive FailsWith (bindings : HostTable) (i : Import) : BuildError → Prop
  | unbound (hb : bindings.get? i.name = none) : FailsWith bindings i (.unresolvedImport i.name)
  | notFunction (hi : i.type = .other) : FailsWith bindings i (.unresolvedImport i.name)
  | mismatch {type : FuncType} {func : HostFunc} {declared : Signature} (hi : i.type = .func type)
      (hb : bindings.get? i.name = some func) (hd : Signature.ofFuncType type = .ok declared)
      (hne : declared ≠ func.signature) :
      FailsWith bindings i (.signatureMismatch i.name declared.text func.signature)
  | unsupported {type : FuncType} {func : HostFunc} {t : ValueType} (hi : i.type = .func type)
      (hb : bindings.get? i.name = some func)
      (ht : (type.params ++ type.results).find? (fun t => t.kind? = none) = some t) :
      FailsWith bindings i
        (.signatureMismatch i.name ("unsupported value type: " ++ t.name) func.signature)

end Import

namespace Linker

variable {bindings : HostTable} {linker linker' : Linker} {imports : List Import} {i : Import}

theorem resolve_of_eq {type : FuncType} {func : HostFunc} (hi : i.type = .func type)
    (hb : bindings.get? i.name = some func) (hs : Signature.ofFuncType type = .ok func.signature) :
    resolve bindings i = .ok func := by
  simp only [resolve, hb, hi]
  rw [if_pos (Signature.toOption_eq_some_iff.mpr hs)]

theorem resolve_of_ne {type : FuncType} {func : HostFunc} (hi : i.type = .func type)
    (hb : bindings.get? i.name = some func) (hs : Signature.ofFuncType type ≠ .ok func.signature) :
    resolve bindings i =
      .error (.mismatch i.name (Signature.textOf (Signature.ofFuncType type)) func.signature) := by
  simp only [resolve, hb, hi]
  rw [if_neg fun h => hs (Signature.toOption_eq_some_iff.mp h)]

theorem resolve_of_unresolved (h : bindings.get? i.name = none ∨ i.type = .other) :
    resolve bindings i = .error (.unresolved i.name) := by
  unfold resolve
  rcases h with h | h
  · rw [h]
  · cases hb : bindings.get? i.name with
    | none => rfl
    | some func => rw [h]

theorem resolve_of_failsWith {e : BuildError} (h : i.FailsWith bindings e) :
    ∃ e', resolve bindings i = .error e' ∧ .ofLinkError e' = e := by
  cases h with
  | unbound hb => exact ⟨_, resolve_of_unresolved (.inl hb), rfl⟩
  | notFunction hi => exact ⟨_, resolve_of_unresolved (.inr hi), rfl⟩
  | @mismatch type func declared hi hb hd hne =>
    have hs : Signature.ofFuncType type ≠ .ok func.signature := by
      rw [hd]
      exact fun h => hne (Except.ok.inj h)
    exact ⟨_, resolve_of_ne hi hb hs, by rw [hd]; rfl⟩
  | @unsupported type func t hi hb ht =>
    have hd : Signature.ofFuncType type = .error ⟨t⟩ := Signature.ofFuncType_eq_error_iff.mpr ht
    exact ⟨_, resolve_of_ne hi hb (by simp [hd]), by rw [hd]; rfl⟩

/-- An import is satisfied, or it fails with one of the errors. -/
theorem satisfiedBy_or_failsWith (bindings : HostTable) (i : Import) :
    i.SatisfiedBy bindings ∨ ∃ e, i.FailsWith bindings e := by
  cases hb : bindings.get? i.name with
  | none => exact .inr ⟨_, .unbound hb⟩
  | some func =>
    cases hi : i.type with
    | other => exact .inr ⟨_, .notFunction hi⟩
    | func type =>
      cases hd : Signature.ofFuncType type with
      | error e => exact .inr ⟨_, .unsupported hi hb (Signature.ofFuncType_eq_error_iff.mp hd)⟩
      | ok declared =>
        by_cases hs : declared = func.signature
        · exact .inl ⟨type, func, hi, hb, hs ▸ hd⟩
        · exact .inr ⟨_, .mismatch hi hb hd hs⟩

/-- The names that were taken in are those that are defined, in the same order. -/
def Agrees (linker : Linker) : Prop := linker.used = linker.definitions.keys

/-- Keeps a name that was taken in, and takes in and defines any other. -/
def extend (linker : Linker) (name : ImportName) (func : HostFunc) : Linker :=
  if name ∈ linker.used then linker
  else { definitions := linker.definitions.insert name func, used := linker.used ++ [name] }

theorem Agrees.mem_used_iff {name : ImportName} (ha : linker.Agrees) :
    name ∈ linker.used ↔ linker.definitions.get? name ≠ none := by
  rw [ha, HostTable.mem_keys_iff]

theorem Agrees.get?_eq_none {name : ImportName} (ha : linker.Agrees) (h : name ∉ linker.used) :
    linker.definitions.get? name = none := by
  rw [ha] at h
  exact lookup_eq_none_iff_not_mem.mpr h

theorem Agrees.extend (ha : linker.Agrees) (name : ImportName) (func : HostFunc) :
    (linker.extend name func).Agrees := by
  unfold Linker.extend
  split
  · exact ha
  · rename_i hname
    rw [ha] at hname
    rw [Agrees, HostTable.keys_insert_of_not_mem hname, ← ha]

/-- While both agree, a name that was not taken in is not defined either, so that it can be
defined. -/
theorem addAll_cons_of_ok {func : HostFunc} (ha : linker.Agrees)
    (h : resolve bindings i = .ok func) :
    addAll bindings linker (i :: imports) =
      addAll bindings (linker.extend i.name func) imports := by
  simp only [addAll, h, extend, bind, Except.bind]
  split
  · rfl
  · rename_i hname
    simp only [define, ha.get?_eq_none hname]

theorem addAll_cons_of_error {e : LinkError} (h : resolve bindings i = .error e) :
    addAll bindings linker (i :: imports) = .error e := by
  simp only [addAll, h]
  rfl

/-- Imports are taken in turn: all of them are satisfied, or the first that is not decides. -/
theorem addAll_cases (bindings : HostTable) (ha : linker.Agrees) (imports : List Import) :
    ((∀ i ∈ imports, i.SatisfiedBy bindings) ∧
      ∃ linker', addAll bindings linker imports = .ok linker') ∨
    ∃ k i e, imports[k]? = some i ∧ (∀ j ∈ imports.take k, j.SatisfiedBy bindings) ∧
      i.FailsWith bindings (.ofLinkError e) ∧ addAll bindings linker imports = .error e := by
  induction imports generalizing linker with
  | nil => exact .inl ⟨by simp, linker, rfl⟩
  | cons i rest ih =>
    rcases satisfiedBy_or_failsWith bindings i with hi | ⟨e, hi⟩
    · obtain ⟨type, func, hi', hb, hs⟩ := id hi
      have hr : resolve bindings i = .ok func := resolve_of_eq hi' hb hs
      rw [addAll_cons_of_ok ha hr]
      rcases ih (ha.extend i.name func) with ⟨hall, hok⟩ | ⟨k, i', e, hk, hbefore, hfail, he⟩
      · exact .inl ⟨by simpa using ⟨hi, hall⟩, hok⟩
      · exact .inr ⟨k + 1, i', e, hk, by simpa using ⟨hi, hbefore⟩, hfail, he⟩
    · obtain ⟨e', hr, rfl⟩ := resolve_of_failsWith hi
      exact .inr ⟨0, i, e', rfl, by simp, hi, addAll_cons_of_error hr⟩

theorem not_satisfiedBy_of_failsWith {e : BuildError} (h : i.FailsWith bindings e) :
    ¬ i.SatisfiedBy bindings := by
  intro hsat
  obtain ⟨type, func, hi, hb, hs⟩ := hsat
  obtain ⟨e', hr, _⟩ := resolve_of_failsWith h
  rw [resolve_of_eq hi hb hs] at hr
  cases hr

theorem failsWith_unique {e e' : BuildError} (h : i.FailsWith bindings e)
    (h' : i.FailsWith bindings e') : e = e' := by
  obtain ⟨r, hr, rfl⟩ := resolve_of_failsWith h
  obtain ⟨r', hr', rfl⟩ := resolve_of_failsWith h'
  rw [Except.error.inj (hr.symm.trans hr')]

/-- There is only one first import that fails. -/
theorem first_failure_unique {k k' : Nat} {i i' : Import} {e e' : BuildError}
    (hk : imports[k]? = some i) (hk' : imports[k']? = some i')
    (hbefore : ∀ j ∈ imports.take k, j.SatisfiedBy bindings)
    (hbefore' : ∀ j ∈ imports.take k', j.SatisfiedBy bindings) (h : i.FailsWith bindings e)
    (h' : i'.FailsWith bindings e') : e = e' := by
  rcases Nat.lt_trichotomy k k' with hlt | rfl | hlt
  · have hmem : i ∈ imports.take k' :=
      List.mem_of_getElem? (by rw [List.getElem?_take_of_lt hlt, hk])
    exact absurd (hbefore' i hmem) (not_satisfiedBy_of_failsWith h)
  · obtain rfl : i = i' := Option.some.inj (hk.symm.trans hk')
    exact failsWith_unique h h'
  · have hmem : i' ∈ imports.take k :=
      List.mem_of_getElem? (by rw [List.getElem?_take_of_lt hlt, hk'])
    exact absurd (hbefore i' hmem) (not_satisfiedBy_of_failsWith h')

/-- What is defined was bound, and just the names that were taken in are defined. -/
structure Sound (bindings : HostTable) (linker : Linker) : Prop where
  bound : ∀ name, linker.definitions.get? name ≠ none →
    linker.definitions.get? name = bindings.get? name
  agrees : linker.Agrees

theorem get?_extend (ha : linker.Agrees) (name other : ImportName) (func : HostFunc) :
    (linker.extend name func).definitions.get? other =
      if other = name ∧ linker.definitions.get? name = none then some func
      else linker.definitions.get? other := by
  unfold extend
  split
  · rename_i hname
    rw [if_neg fun h => ha.mem_used_iff.mp hname h.2]
  · rename_i hname
    simp only [HostTable.get?_insert, ha.get?_eq_none hname, and_true]

theorem Sound.extend {func : HostFunc} (h : linker.Sound bindings)
    (hb : bindings.get? i.name = some func) :
    (linker.extend i.name func).Sound bindings where
  bound := by
    intro name hname
    rw [get?_extend h.agrees] at hname ⊢
    split
    · rename_i hn
      rw [hn.1, hb]
    · rename_i hn
      rw [if_neg hn] at hname
      exact h.bound name hname
  agrees := h.agrees.extend i.name func

/-- Linking keeps the linker sound and defines exactly the names that are imported. -/
theorem addAll_spec (h : addAll bindings linker imports = .ok linker')
    (hs : linker.Sound bindings) :
    linker'.Sound bindings ∧ ∀ name, linker'.definitions.get? name ≠ none ↔
      linker.definitions.get? name ≠ none ∨ name ∈ imports.map Import.name := by
  induction imports generalizing linker with
  | nil =>
    cases h
    exact ⟨hs, fun name => by simp⟩
  | cons i rest ih =>
    rcases satisfiedBy_or_failsWith bindings i with ⟨type, func, hi, hb, hsig⟩ | ⟨e, hi⟩
    · rw [addAll_cons_of_ok hs.agrees (resolve_of_eq hi hb hsig)] at h
      obtain ⟨hsound, hnames⟩ := ih h (hs.extend hb)
      refine ⟨hsound, ?_⟩
      intro name
      rw [hnames, get?_extend hs.agrees, List.map_cons, List.mem_cons]
      by_cases hn : name = i.name
      · subst hn
        by_cases hd : linker.definitions.get? i.name = none <;> simp [hd]
      · simp [hn]
    · obtain ⟨e', hr, _⟩ := resolve_of_failsWith hi
      rw [addAll_cons_of_error hr] at h
      cases h

theorem Sound.used_subset (h : linker.Sound bindings) : linker.used ⊆ bindings.keys := by
  intro name hname
  rw [h.agrees.mem_used_iff] at hname
  rw [HostTable.mem_keys_iff]
  rwa [← h.bound name hname]

theorem Sound.nodup_used (h : linker.Sound bindings) : linker.used.Nodup := by
  rw [h.agrees]
  exact linker.definitions.nodup_keys

theorem Sound.length_used_le (h : linker.Sound bindings) : linker.used.length ≤ bindings.size := by
  rw [← HostTable.length_keys]
  exact h.nodup_used.length_le_of_subset h.used_subset

theorem agrees_empty : Agrees {} := rfl

theorem sound_empty (bindings : HostTable) : Sound bindings {} :=
  ⟨fun _ hname => absurd rfl hname, agrees_empty⟩

end Linker

namespace Plan

theorem link_eq_error {plan : Plan} {mod : Module} {e : LinkError}
    (h : Linker.addAll plan.bindings {} mod.imports = .error e) :
    plan.link mod = .error (.ofLinkError e) := by
  rw [link, h]

theorem link_eq_ok_iff {plan : Plan} {mod : Module} {linker : Linker} :
    plan.link mod = .ok linker ↔ Linker.addAll plan.bindings {} mod.imports = .ok linker := by
  unfold link
  cases Linker.addAll plan.bindings {} mod.imports <;> simp

theorem link_sound {plan : Plan} {mod : Module} {linker : Linker} (h : plan.link mod = .ok linker) :
    linker.Sound plan.bindings ∧
      ∀ name, linker.definitions.get? name ≠ none ↔ name ∈ mod.imports.map Import.name := by
  obtain ⟨hsound, hnames⟩ :=
    Linker.addAll_spec (link_eq_ok_iff.mp h) (Linker.sound_empty plan.bindings)
  refine ⟨hsound, fun name => (hnames name).trans ?_⟩
  have hnone : ({} : Linker).definitions.get? name = none := rfl
  simp [hnone]

theorem link_eq_ok_iff_satisfied (plan : Plan) (mod : Module) :
    (∃ linker, plan.link mod = .ok linker) ↔ ∀ i ∈ mod.imports, i.SatisfiedBy plan.bindings := by
  rcases Linker.addAll_cases plan.bindings Linker.agrees_empty mod.imports with
    ⟨hall, linker, hok⟩ | ⟨k, i, e, hk, _, hi, he⟩
  · exact ⟨fun _ => hall, fun _ => ⟨linker, link_eq_ok_iff.mpr hok⟩⟩
  · constructor
    · intro hlinked
      obtain ⟨linker, hl⟩ := hlinked
      rw [link_eq_error he] at hl
      cases hl
    · intro hall
      exact absurd (hall i (List.mem_of_getElem? hk)) (Linker.not_satisfiedBy_of_failsWith hi)

theorem link_eq_error_iff (plan : Plan) (mod : Module) (e : BuildError) :
    plan.link mod = .error e ↔
      ∃ (k : Nat) (i : Import), mod.imports[k]? = some i ∧
        (∀ j ∈ mod.imports.take k, j.SatisfiedBy plan.bindings) ∧
        i.FailsWith plan.bindings e := by
  rcases Linker.addAll_cases plan.bindings Linker.agrees_empty mod.imports with
    ⟨hall, linker, hok⟩ | ⟨k, i, e', hk, hbefore, hi, he⟩
  · rw [link_eq_ok_iff.mpr hok]
    constructor
    · intro h
      cases h
    · intro hfail
      obtain ⟨k, i, hk, _, hi⟩ := hfail
      exact absurd (hall i (List.mem_of_getElem? hk)) (Linker.not_satisfiedBy_of_failsWith hi)
  · rw [link_eq_error he, Except.error.injEq]
    constructor
    · intro heq
      rw [← heq]
      exact ⟨k, i, hk, hbefore, hi⟩
    · intro hfail
      obtain ⟨k', i', hk', hbefore', hi'⟩ := hfail
      exact Linker.first_failure_unique hk hk' hbefore hbefore' hi hi'

theorem get?_of_link {plan : Plan} {mod : Module} {linker : Linker} (h : plan.link mod = .ok linker)
    (name : ImportName) :
    linker.definitions.get? name =
      if name ∈ mod.imports.map Import.name then plan.bindings.get? name else none := by
  obtain ⟨hsound, hnames⟩ := link_sound h
  split
  · rename_i hname
    exact hsound.bound name ((hnames name).mpr hname)
  · rename_i hname
    by_cases hd : linker.definitions.get? name = none
    · exact hd
    · exact absurd ((hnames name).mp hd) hname

theorem link_ne_definedTwice (plan : Plan) (mod : Module) (name : ImportName) :
    plan.link mod ≠ .error (.ofLinkError (.definedTwice name)) := by
  intro h
  obtain ⟨k, i, _, _, hi⟩ := (link_eq_error_iff plan mod _).mp h
  cases hi

theorem build_of_link_error {plan : Plan} {mod : Module} {engine : Engine} {files : Files}
    {loaded : Loaded} {e : BuildError} (hload : plan.load files = .ok loaded)
    (hcompile : compile engine loaded = .ok mod) (h : plan.link mod = .error e) (host : Host) :
    plan.build engine files host = (.error e, host) := by
  have hp : plan.prepare engine files = .error e := by
    simp only [prepare, hload, hcompile, h, bind, Except.bind]
  rw [build, hp]

/-- Linking succeeds exactly when every import is satisfied; else it fails with the error of the
first import that is not. What is linked is, for each imported name, the binding of that name, and
no name twice. The names that were taken in are just those that are defined, so that what is left of
the bindings can be counted by them. -/
theorem link_exact (plan : Plan) (mod : Module) :
    ((∃ linker, plan.link mod = .ok linker) ↔ ∀ i ∈ mod.imports, i.SatisfiedBy plan.bindings) ∧
    (∀ e, plan.link mod = .error e ↔
      ∃ (k : Nat) (i : Import), mod.imports[k]? = some i ∧
        (∀ j ∈ mod.imports.take k, j.SatisfiedBy plan.bindings) ∧
        i.FailsWith plan.bindings e) ∧
    (∀ name, plan.link mod ≠ .error (.ofLinkError (.definedTwice name))) ∧
    (∀ linker, plan.link mod = .ok linker →
      (∀ name, linker.definitions.get? name =
        if name ∈ mod.imports.map Import.name then plan.bindings.get? name else none) ∧
      linker.definitions.keys.Nodup ∧ linker.used = linker.definitions.keys ∧
      linker.used.Nodup ∧ linker.used ⊆ plan.bindings.keys ∧
      linker.unused plan.bindings + linker.definitions.size = plan.bindings.size) ∧
    (∀ engine files host loaded e, plan.load files = .ok loaded → compile engine loaded = .ok mod →
      plan.link mod = .error e → plan.build engine files host = (.error e, host)) := by
  refine ⟨link_eq_ok_iff_satisfied plan mod, link_eq_error_iff plan mod,
    link_ne_definedTwice plan mod, ?_, ?_⟩
  · intro linker hl
    have hsound := (link_sound hl).1
    have hsize : linker.used.length = linker.definitions.size := by
      rw [hsound.agrees, HostTable.length_keys]
    refine ⟨get?_of_link hl, linker.definitions.nodup_keys, hsound.agrees, hsound.nodup_used,
      hsound.used_subset, ?_⟩
    rw [Linker.unused, ← hsize]
    exact Nat.sub_add_cancel hsound.length_used_le
  · intro engine files host loaded e hload hcompile h
    exact build_of_link_error hload hcompile h host

def takesInt32 : HostFunc where
  signature := ⟨[.i32], []⟩
  run _ := pure ()

def single : Plan where
  source := .bytes []
  bindings := HostTable.empty.insert ⟨"env", "f"⟩ takesInt32

def importing (types : List FuncType) : Module where
  imports := types.map fun type => ⟨⟨"env", "f"⟩, .func type⟩

theorem link_single :
    (∃ linker, single.link (importing [⟨[.number .i32], []⟩, ⟨[.number .i32], []⟩]) = .ok linker) ∧
    single.link (importing [⟨[.number .i32], []⟩, ⟨[], []⟩, ⟨[.v128], []⟩]) =
      .error (.signatureMismatch ⟨"env", "f"⟩ (Signature.text {}) ⟨[.i32], []⟩) := by
  have hs : Import.SatisfiedBy single.bindings ⟨⟨"env", "f"⟩, .func ⟨[.number .i32], []⟩⟩ :=
    ⟨_, _, rfl, rfl, rfl⟩
  constructor
  · apply (link_exact single _).1.mpr
    intro i hi
    simp only [importing, List.map_cons, List.map_nil, List.mem_cons, List.not_mem_nil, or_false,
      or_self] at hi
    rw [hi]
    exact hs
  · apply ((link_exact single _).2.1 _).mpr
    refine ⟨1, _, rfl, ?_, @Import.FailsWith.mismatch _ _ _ takesInt32 {} rfl rfl rfl (by decide)⟩
    intro j hj
    obtain rfl := List.mem_singleton.mp hj
    exact hs

end Plan

end WasmHost

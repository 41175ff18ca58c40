import WasmHost.Proofs.LaunchExit
import WasmHost.Proofs.Loading
import WasmHost.Proofs.Path
import WasmHost.Proofs.Slices

namespace WasmHost

namespace Module

/-- Segments are written when each of them lies in the memory. -/
theorem exists_writeSegments {m : Memory} {segments : List Segment}
    (h : ∀ s ∈ segments, s.offset.toNat + s.bytes.length ≤ m.size) :
    ∃ m', writeSegments m segments = .ok m' := by
  induction segments generalizing m with
  | nil => exact ⟨m, rfl⟩
  | cons s rest ih =>
    rw [List.forall_mem_cons] at h
    rw [writeSegments, Memory.write?_of_le h.1]
    refine ih fun t ht => ?_
    rw [Memory.size_store]
    exact h.2 t ht

theorem writeSegments_eq_error {m : Memory} {segments : List Segment} {s : Segment}
    (hs : s ∈ segments) (h : m.size < s.offset.toNat + s.bytes.length) :
    writeSegments m segments = .error .memoryOutOfBounds := by
  induction segments generalizing m with
  | nil => cases hs
  | cons t rest ih =>
    rw [writeSegments, Memory.write?]
    by_cases ht : t.offset.toNat + t.bytes.length ≤ m.size
    · rw [if_pos ht]
      have hrest : s ∈ rest := by
        rcases List.mem_cons.mp hs with rfl | hrest
        · omega
        · exact hrest
      refine ih hrest ?_
      rwa [Memory.size_store]
    · rw [if_neg ht]

theorem placeElements_eq_ok {tables : List Nat} {elements : List ElementSegment}
    (h : ∀ e ∈ elements, e.offset.toNat + e.length ≤ tables.getD e.table 0) :
    placeElements tables elements = .ok () := by
  induction elements with
  | nil => rfl
  | cons e rest ih =>
    rw [List.forall_mem_cons] at h
    rw [placeElements, if_pos h.1]
    exact ih h.2

theorem placeElements_eq_error {tables : List Nat} {elements : List ElementSegment}
    {e : ElementSegment} (he : e ∈ elements)
    (h : tables.getD e.table 0 < e.offset.toNat + e.length) :
    placeElements tables elements = .error .tableOutOfBounds := by
  induction elements with
  | nil => cases he
  | cons d rest ih =>
    rw [placeElements]
    by_cases hd : d.offset.toNat + d.length ≤ tables.getD d.table 0
    · rw [if_pos hd]
      have hrest : e ∈ rest := by
        rcases List.mem_cons.mp he with rfl | hrest
        · omega
        · exact hrest
      exact ih hrest
    · rw [if_neg hd]

/-- Why tables and memory cannot be filled: an element segment does not lie in its table, or all of
them do and a data segment does not lie in the memory. -/
inductive Unfit (mod : Module) (m : Memory) : Trap → Prop
  | element {e : ElementSegment} (he : e ∈ mod.elements)
      (h : mod.tables.getD e.table 0 < e.offset.toNat + e.length) :
      Unfit mod m .tableOutOfBounds
  | segment {s : Segment}
      (he : ∀ e ∈ mod.elements, e.offset.toNat + e.length ≤ mod.tables.getD e.table 0)
      (hs : s ∈ mod.segments) (h : m.size < s.offset.toNat + s.bytes.length) :
      Unfit mod m .memoryOutOfBounds

variable {mod : Module} {m : Memory} {t : Trap}

theorem Unfit.place_eq (h : mod.Unfit m t) : mod.place m = .error t := by
  cases h with
  | element he h => rw [place, placeElements_eq_error he h]
  | segment he hs h =>
    rw [place, placeElements_eq_ok he]
    exact writeSegments_eq_error hs h

theorem unfit_or_exists_place (mod : Module) (m : Memory) :
    (∃ t, mod.Unfit m t) ∨ ∃ m', mod.place m = .ok m' := by
  by_cases he : ∀ e ∈ mod.elements, e.offset.toNat + e.length ≤ mod.tables.getD e.table 0
  · by_cases hs : ∀ s ∈ mod.segments, s.offset.toNat + s.bytes.length ≤ m.size
    · right
      rw [place, placeElements_eq_ok he]
      exact exists_writeSegments hs
    · simp only [not_forall, Nat.not_le] at hs
      obtain ⟨s, hmem, hs⟩ := hs
      exact .inl ⟨_, .segment he hmem hs⟩
  · simp only [not_forall, Nat.not_le] at he
    obtain ⟨e, hmem, he⟩ := he
    exact .inl ⟨_, .element hmem he⟩

end Module

/-- When no start function is run, instantiation is over once tables and memory are filled. -/
theorem Config.run_instantiate_of_none {σ : Type} {mod : Module} {m : Machine σ}
    (imports : Imports σ) (h : starting? mod m = none) :
    (mod.instantiate imports).run m = match mod.place m.memory with
      | .ok memory => .ok () { m with memory }
      | .error t => .error (.trap t) m := by
  simp only [Module.instantiate, EStateM.run_bind, EStateM.run_get]
  cases hw : mod.place m.memory with
  | error t => rfl
  | ok memory =>
    cases hs : mod.start with
    | none => rfl
    | some index => simp [starting?, hw, hs] at h

namespace Plan

/-- Bytes that the expected checksum is of, if one is expected. -/
def Vouches (plan : Plan) (bytes : Bytes) : Prop :=
  ∀ expected, plan.checksum = some expected → expected.toNat = adler32 bytes

/-- Why a plan is turned down before anything of its module runs. Each reason presumes that none of
those before it applies, and nothing about those behind it. -/
inductive Rejects (plan : Plan) (engine : Engine) (files : Files) : BuildError → Prop
  | source {e : IoError} (h : plan.source.contents files = .error e) :
      Rejects plan engine files (.source e)
  | checksum {bytes : Bytes} {expected actual : UInt32} (h : plan.source.contents files = .ok bytes)
      (hc : plan.checksum = some expected) (hne : expected.toNat ≠ adler32 bytes)
      (ha : actual.toNat = adler32 bytes) :
      Rejects plan engine files (.checksumMismatch expected actual)
  | malformed {bytes : Bytes} {message : String} (h : plan.source.contents files = .ok bytes)
      (hv : plan.Vouches bytes) (hm : engine.compile bytes = .error message) :
      Rejects plan engine files (.malformedModule message)
  | imports {bytes : Bytes} {mod : Module} {k : Nat} {i : Import} {e : BuildError}
      (h : plan.source.contents files = .ok bytes) (hv : plan.Vouches bytes)
      (hm : engine.compile bytes = .ok mod) (hi : mod.imports[k]? = some i)
      (hbefore : ∀ j ∈ mod.imports.take k, j.SatisfiedBy plan.bindings)
      (hf : i.FailsWith plan.bindings e) : Rejects plan engine files e

/-- A plan with nothing against it until its module is instantiated. -/
structure Accepts (plan : Plan) (engine : Engine) (files : Files) (mod : Module) : Prop where
  contents : ∃ bytes, plan.source.contents files = .ok bytes ∧ plan.Vouches bytes ∧
    engine.compile bytes = .ok mod
  imports : ∀ i ∈ mod.imports, i.SatisfiedBy plan.bindings

/-- What instantiation fails with: a segment that does not fit, or else what the start function ends
with. -/
inductive FailsToStart (plan : Plan) (mod : Module) (host : Host) : Stop → Prop
  | fill {t : Trap} (h : mod.Unfit mod.blankMemory t) : FailsToStart plan mod host (.trap t)
  | start {linker : Linker} {c : Config Host} {stop : Stop} {m : Machine Host}
      (hl : plan.link mod = .ok linker)
      (hc : Config.starting? mod (plan.machineAt mod host) = some c)
      (h : Config.Reaches mod (linker.imports mod (plan.contextAt host)) c
          (.halt (.error stop) m)) :
      FailsToStart plan mod host stop

/-- What the guest's code passes through while a plan is carried out. -/
inductive Passes (plan : Plan) (engine : Engine) (files : Files) (host : Host) : Config Host → Prop
  | start {mod : Module} {linker : Linker} {c₀ c : Config Host}
      (hp : plan.prepare engine files = .ok (mod, linker))
      (h₀ : Config.starting? mod (plan.machineAt mod host) = some c₀)
      (h : Config.Reaches mod (linker.imports mod (plan.contextAt host)) c₀ c) :
      Passes plan engine files host c

section

variable {plan : Plan} {engine : Engine} {files : Files} {mod : Module} {linker : Linker}
  {host : Host}

theorem load_of_error {e : IoError} (h : plan.source.contents files = .error e) :
    plan.load files = .error (.source e) := by
  rw [load, Source.load_eq, h]
  rfl

theorem load_of_vouches {bytes : Bytes} (h : plan.source.contents files = .ok bytes)
    (hv : plan.Vouches bytes) :
    plan.load files = .ok (.ofBytes bytes) := by
  rw [load, Source.load_eq, h]
  cases hc : plan.checksum with
  | none => simp [Except.map]
  | some expected =>
    have heq : expected = (Loaded.ofBytes bytes).checksum := by
      rw [← UInt32.toNat_inj, Loaded.toNat_checksum_ofBytes]
      exact hv expected hc
    simp [Except.map, ← heq]

theorem load_of_mismatch {bytes : Bytes} {expected : UInt32}
    (h : plan.source.contents files = .ok bytes) (hc : plan.checksum = some expected)
    (hne : expected.toNat ≠ adler32 bytes) :
    plan.load files = .error (.checksumMismatch expected (Loaded.ofBytes bytes).checksum) := by
  have hne' : expected ≠ (Loaded.ofBytes bytes).checksum := by
    intro heq
    rw [heq, Loaded.toNat_checksum_ofBytes] at hne
    exact hne rfl
  rw [load, Source.load_eq, h]
  simp [Except.map, hc, hne']

/-- With bytes that are vouched for, all depends on the module that they are. -/
theorem prepare_of_vouches {bytes : Bytes} (h : plan.source.contents files = .ok bytes)
    (hv : plan.Vouches bytes) (hm : engine.compile bytes = .ok mod) :
    plan.prepare engine files = do
      let linker ← plan.link mod
      meter engine
      return (mod, linker) := by
  have hcompile : compile engine (.ofBytes bytes) = .ok mod := by
    rw [compile, Loaded.ofBytes, hm]
  rw [prepare, load_of_vouches h hv]
  simp only [hcompile, bind, Except.bind]

theorem Rejects.prepare_eq {e : BuildError} (h : plan.Rejects engine files e) :
    plan.prepare engine files = .error e := by
  cases h with
  | source h =>
    rw [prepare, load_of_error h]
    rfl
  | @checksum bytes expected actual h hc hne ha =>
    have hactual : (Loaded.ofBytes bytes).checksum = actual := by
      rw [← UInt32.toNat_inj, Loaded.toNat_checksum_ofBytes, ha]
    rw [prepare, load_of_mismatch h hc hne, hactual]
    rfl
  | malformed h hv hm =>
    rw [prepare, load_of_vouches h hv]
    simp only [compile, Loaded.ofBytes, hm, bind, Except.bind]
  | imports h hv hm hi hbefore hf =>
    rw [prepare_of_vouches h hv hm, (link_eq_error_iff plan _ e).mpr ⟨_, _, hi, hbefore, hf⟩]
    rfl

theorem Accepts.exists_prepare_eq (h : plan.Accepts engine files mod) (hm : engine.metered = true) :
    ∃ linker, plan.link mod = .ok linker ∧ plan.prepare engine files = .ok (mod, linker) := by
  obtain ⟨⟨bytes, hc, hv, hcompile⟩, himports⟩ := h
  obtain ⟨linker, hl⟩ := (link_eq_ok_iff_satisfied plan mod).mpr himports
  refine ⟨linker, hl, ?_⟩
  rw [prepare_of_vouches hc hv hcompile, hl, meter, if_pos hm]
  rfl

/-- An engine that does not count fuel is found out only when there is nothing else against a
plan. -/
theorem Accepts.prepare_of_not_metered (h : plan.Accepts engine files mod)
    (hm : engine.metered ≠ true) :
    plan.prepare engine files = .error (.fuel "fuel is not configured in this store") := by
  obtain ⟨⟨bytes, hc, hv, hcompile⟩, himports⟩ := h
  obtain ⟨linker, hl⟩ := (link_eq_ok_iff_satisfied plan mod).mpr himports
  rw [prepare_of_vouches hc hv hcompile, hl, meter, if_neg hm]
  rfl

theorem rejects_or_accepts (plan : Plan) (engine : Engine) (files : Files) :
    (∃ e, plan.Rejects engine files e) ∨ ∃ mod, plan.Accepts engine files mod := by
  cases hc : plan.source.contents files with
  | error e => exact .inl ⟨_, .source hc⟩
  | ok bytes =>
    by_cases hv : plan.Vouches bytes
    · cases hm : engine.compile bytes with
      | error message => exact .inl ⟨_, .malformed hc hv hm⟩
      | ok mod =>
        cases hl : plan.link mod with
        | error e =>
          obtain ⟨k, i, hi, hbefore, hf⟩ := (link_eq_error_iff plan mod e).mp hl
          exact .inl ⟨e, .imports hc hv hm hi hbefore hf⟩
        | ok linker =>
          exact .inr ⟨mod, ⟨bytes, hc, hv, hm⟩, (link_eq_ok_iff_satisfied plan mod).mp ⟨linker, hl⟩⟩
    · simp only [Vouches, not_forall] at hv
      obtain ⟨expected, hexpected, hne⟩ := hv
      exact .inl ⟨_, .checksum hc hexpected hne (Loaded.toNat_checksum_ofBytes bytes)⟩

theorem Rejects.build_eq {e : BuildError} (h : plan.Rejects engine files e) (host : Host) :
    plan.build engine files host = (.error e, host) := by
  rw [build, h.prepare_eq]

theorem Rejects.not_passes {e : BuildError} (h : plan.Rejects engine files e) (c : Config Host) :
    ¬ plan.Passes engine files host c := by
  intro hp
  cases hp with
  | start hp _ _ =>
    rw [h.prepare_eq] at hp
    cases hp

theorem FailsToStart.unfit_or_exists_halt {stop : Stop} (h : plan.FailsToStart mod host stop)
    (hl : plan.link mod = .ok linker) :
    (∃ t, mod.Unfit mod.blankMemory t ∧ stop = .trap t) ∨
    ∃ c m, Config.starting? mod (plan.machineAt mod host) = some c ∧
      Config.Reaches mod (linker.imports mod (plan.contextAt host)) c (.halt (.error stop) m) := by
  cases h with
  | fill h => exact .inl ⟨_, h, rfl⟩
  | start hl' hc h =>
    obtain rfl := Except.ok.inj (hl.symm.trans hl')
    exact .inr ⟨_, _, hc, h⟩

/-- Nothing is run of a module whose tables and memory cannot be filled. -/
theorem starting?_of_unfit {t : Trap} (h : mod.Unfit mod.blankMemory t) :
    Config.starting? mod (plan.machineAt mod host) = none := by
  have hplace : mod.place (plan.machineAt mod host).memory = .error t := h.place_eq
  rw [Config.starting?, hplace]

/-- Instantiation gives an instance when there is nothing for it to fail with, and else fails with
just that. -/
theorem instantiate_cases (hl : plan.link mod = .ok linker) (host : Host) :
    (∃ inst, (plan.instantiate mod linker host).1 = .ok inst) ∧
      (∀ stop, ¬ plan.FailsToStart mod host stop) ∨
    ∃ stop, (plan.instantiate mod linker host).1 = .error (.instantiate stop) ∧
      ∀ stop', plan.FailsToStart mod host stop' ↔ stop' = stop := by
  rw [instantiate_eq]
  rcases mod.unfit_or_exists_place mod.blankMemory with ⟨t, hunfit⟩ | ⟨memory, hplace⟩
  · have hplace : mod.place (plan.machineAt mod host).memory = .error t := hunfit.place_eq
    have hnone : Config.starting? mod (plan.machineAt mod host) = none := starting?_of_unfit hunfit
    right
    refine ⟨.trap t, ?_, fun stop' => ⟨fun hfail => ?_, fun he => he ▸ .fill hunfit⟩⟩
    · rw [Config.run_instantiate_of_none _ hnone, hplace]
    · rcases hfail.unfit_or_exists_halt hl with ⟨t', hunfit', he⟩ | ⟨c, m, hc, _⟩
      · rw [he, Except.error.inj (hunfit'.place_eq.symm.trans hunfit.place_eq)]
      · rw [hnone] at hc
        cases hc
  · have hfits (t : Trap) : ¬ mod.Unfit mod.blankMemory t := by
      intro hunfit
      rw [hunfit.place_eq] at hplace
      cases hplace
    cases hc : Config.starting? mod (plan.machineAt mod host) with
    | none =>
      have hplace : mod.place (plan.machineAt mod host).memory = .ok memory := hplace
      left
      refine ⟨?_, fun stop hfail => ?_⟩
      · rw [Config.run_instantiate_of_none _ hc, hplace]
        exact ⟨_, rfl⟩
      · rcases hfail.unfit_or_exists_halt hl with ⟨t, hunfit, _⟩ | ⟨c, m, hc', _⟩
        · exact hfits t hunfit
        · rw [hc] at hc'
          cases hc'
    | some c =>
      obtain ⟨result, m, hh, hrun⟩ :=
        Config.exists_halt_starting (linker.imports mod (plan.contextAt host)) hc
      -- Runs are determined, so what the start function ends with is what instantiation ends with.
      have hend {stop : Stop} (hfail : plan.FailsToStart mod host stop) : result = .error stop := by
        rcases hfail.unfit_or_exists_halt hl with ⟨t, hunfit, _⟩ | ⟨c', m', hc', h'⟩
        · exact absurd hunfit (hfits t)
        · obtain rfl := Option.some.inj (hc.symm.trans hc')
          exact (Config.halt_unique hh h').1
      rw [hrun]
      cases result with
      | ok values =>
        left
        exact ⟨⟨_, rfl⟩, fun stop hfail => by cases hend hfail⟩
      | error stop =>
        right
        refine ⟨stop, rfl, fun stop' => ⟨fun hfail => ?_, fun he => he ▸ .start hl hc hh⟩⟩
        exact (Except.error.inj (hend hfail)).symm

theorem Accepts.build_cases (h : plan.Accepts engine files mod) (hm : engine.metered = true)
    (host : Host) :
    (∃ inst, (plan.build engine files host).1 = .ok inst) ∧
      (∀ stop, ¬ plan.FailsToStart mod host stop) ∨
    ∃ stop, (plan.build engine files host).1 = .error (.instantiate stop) ∧
      ∀ stop', plan.FailsToStart mod host stop' ↔ stop' = stop := by
  obtain ⟨linker, hl, hp⟩ := h.exists_prepare_eq hm
  rw [build, hp]
  exact instantiate_cases hl host

theorem Accepts.unique {mod' : Module} (h : plan.Accepts engine files mod)
    (h' : plan.Accepts engine files mod') :
    mod = mod' := by
  obtain ⟨⟨bytes, hc, _, hm⟩, _⟩ := h
  obtain ⟨⟨bytes', hc', _, hm'⟩, _⟩ := h'
  obtain rfl := Except.ok.inj (hc.symm.trans hc')
  exact Except.ok.inj (hm.symm.trans hm')

end

section

variable {plan plan' : Plan} {engine engine' : Engine} {files : Files}

end

end Plan

end WasmHost

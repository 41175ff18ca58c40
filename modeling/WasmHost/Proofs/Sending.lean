import WasmHost.Proofs.LaunchExit
import WasmHost.Proofs.Path
import WasmHost.Proofs.Silence

namespace WasmHost

/-- The functions that are offered under WASI names are those of the WASI table; others send
nothing. -/
def HostTable.SendsAsWasi (bindings : HostTable) : Prop :=
  ∀ name f, bindings.get? name = some f →
    Wasi.table.get? name = some f ∨ Wasi.table.get? name = none ∧ f.Silent

/-- Each import is satisfied, the one that writes output by the WASI function, every other by one
that sends nothing. -/
def Linker.Wired (linker : Linker) (mod : Module) : Prop :=
  ∀ (slot : Nat) (i : ImportName × FuncType), mod.functionImports[slot]? = some i →
    ∃ f, linker.definitions.get? i.1 = some f ∧ if i.1 = Wasi.writeName then f = Wasi.writeFunc
      else f.Silent

theorem Plan.wired {plan : Plan} {mod : Module} {linker : Linker} (hb : plan.bindings.SendsAsWasi)
    (hl : plan.link mod = .ok linker) : linker.Wired mod := by
  intro slot i hi
  obtain ⟨hsound, hnames⟩ := Plan.link_sound hl
  have hne : linker.definitions.get? i.1 ≠ none :=
    (hnames _).mpr (Module.name_mem_of_functionImports hi)
  obtain ⟨f, hf⟩ := Option.ne_none_iff_exists'.mp hne
  have hbound := hb i.1 f ((hsound.bound _ hne).symm.trans hf)
  refine ⟨f, hf, ?_⟩
  split
  · rename_i hname
    rw [hname, Wasi.table_get?_writeName] at hbound
    rcases hbound with h | ⟨h, _⟩
    · exact (Option.some.inj h).symm
    · cases h
  · rename_i hname
    rcases hbound with h | ⟨_, h⟩
    · exact Wasi.silent_of_table h hname
    · exact h

namespace Config

variable {mod : Module} {linker : Linker} {context : Context} {name : String} {c d : Config Host}
  {cs ds : List (Config Host)}

/-- The bytes that the next step gathers for the buffer of a name, if it is a call that writes
output. -/
def written? (mod : Module) (context : Context) (name : String) (c : Config Host) : Option Bytes :=
  match c.control with
  | .host offered slot args =>
    match mod.functionImports[slot]? with
    | some i =>
      if i.1 = Wasi.writeName then
        Wasi.gathered? context name args (if offered then some c.machine.memory else none)
      else none
    | none => none
  | _ => none

/-- A step adds to each buffer what it gathers for it, and takes nothing away. -/
theorem contents_of_step (hl : linker.Wired mod)
    (h : c.step mod (linker.imports mod context) = some d) :
    d.machine.host.streams.contents name =
      c.machine.host.streams.contents name ++ (written? mod context name c).getD [] := by
  rw [host_of_step h]
  obtain ⟨control, konts, m⟩ := c
  cases control with
  | host offered slot args =>
    cases hi : mod.functionImports[slot]? with
    | none => simp [reply?, written?, Linker.imports, hi]
    | some i =>
      obtain ⟨f, hf, hkind⟩ := hl slot i hi
      have hreply : reply? (linker.imports mod context) ⟨.host offered slot args, konts, m⟩ =
          some (f.call context args (if offered then some m.memory else none) m.host) := by
        simp only [reply?, Linker.imports, hi, hf, Option.bind_some]
      rw [hreply, Option.map_some, Option.getD_some]
      by_cases hname : i.1 = Wasi.writeName
      · rw [if_pos hname] at hkind
        subst hkind
        simp only [written?, hi, hname, if_true]
        exact Wasi.contents_call_write context args _ m.host name
      · rw [if_neg hname] at hkind
        simp only [written?, hi, hname, if_false, Option.getD_none, List.append_nil]
        rw [Streams.contents, Streams.captured?, hkind]
        rfl
  | _ => simp [reply?, written?]

/-- What calls have gathered for the buffer of a name, in the order of the calls. -/
def log (mod : Module) (context : Context) (name : String) (cs : List (Config Host)) : Bytes :=
  (cs.filterMap (written? mod context name)).flatten

theorem log_cons (c : Config Host) (cs : List (Config Host)) :
    log mod context name (c :: cs) =
      (written? mod context name c).getD [] ++ log mod context name cs := by
  unfold log
  cases hw : written? mod context name c <;> simp [hw]

theorem log_append (cs ds : List (Config Host)) :
    log mod context name (cs ++ ds) = log mod context name cs ++ log mod context name ds := by
  simp [log]

/-- At each of these moments, and after them, a buffer holds what it held before and then all that
has been gathered for it until then. -/
structure Logged (mod : Module) (context : Context) (name : String) (before : Bytes)
    (cs : List (Config Host)) (after : Bytes) : Prop where
  moment : ∀ i (hi : i < cs.length),
    cs[i].machine.host.streams.contents name = before ++ log mod context name (cs.take i)
  final : after = before ++ log mod context name cs

namespace Logged

variable {before middle after : Bytes}

theorem nil (mod : Module) (context : Context) (name : String) (before : Bytes) :
    Logged mod context name before [] before :=
  ⟨fun i hi => absurd hi (Nat.not_lt_zero i), by simp [log]⟩

theorem append (h : Logged mod context name before cs middle)
    (h' : Logged mod context name middle ds after) :
    Logged mod context name before (cs ++ ds) after := by
  constructor
  · intro i hi
    by_cases hcs : i < cs.length
    · rw [List.getElem_append_left hcs, h.moment i hcs, List.take_append_of_le_length hcs.le]
    · have hle : cs.length ≤ i := Nat.le_of_not_lt hcs
      have hds : i - cs.length < ds.length := by
        rw [List.length_append] at hi
        omega
      rw [List.getElem_append_right hle, h'.moment _ hds, h.final, List.take_append,
        List.take_of_length_le hle, log_append, List.append_assoc]
  · rw [h'.final, h.final, log_append, List.append_assoc]

theorem cons (hc : c.machine.host.streams.contents name = before)
    (h : Logged mod context name (before ++ (written? mod context name c).getD []) cs after) :
    Logged mod context name before (c :: cs) after := by
  constructor
  · intro i hi
    cases i with
    | zero =>
      rw [List.take_zero]
      simpa [log] using hc
    | succ i =>
      rw [List.getElem_cons_succ, h.moment i (Nat.lt_of_succ_lt_succ hi), List.take_succ_cons,
        log_cons, List.append_assoc]
  · rw [h.final, log_cons, List.append_assoc]

/-- What is in a buffer stays, and what is added comes behind it. -/
theorem grows (h : Logged mod context name before cs after) {i j : Nat} (hij : i ≤ j)
    (hj : j < cs.length) :
    cs[i].machine.host.streams.contents name <+: cs[j].machine.host.streams.contents name := by
  have hi : i < cs.length := by omega
  have hsplit : cs.take j = cs.take i ++ (cs.take j).drop i := by
    have htake := List.take_append_drop i (cs.take j)
    rw [List.take_take, Nat.min_eq_left hij] at htake
    exact htake.symm
  rw [h.moment i hi, h.moment j hj, hsplit, log_append, ← List.append_assoc]
  exact List.prefix_append _ _

end Logged

theorem Path.logged (hl : linker.Wired mod) (h : Path mod (linker.imports mod context) c cs d)
    (name : String) :
    Logged mod context name (c.machine.host.streams.contents name) cs
      (d.machine.host.streams.contents name) := by
  induction h with
  | nil c => exact .nil mod context name _
  | @cons c d e cs hs _ ih =>
    rw [contents_of_step hl hs] at ih
    exact .cons rfl ih

end Config

end WasmHost

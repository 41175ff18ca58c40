import WasmHost.Proofs.Conduct
import WasmHost.Proofs.Environment
import WasmHost.Proofs.TableHistory

namespace WasmHost

/-- What a setting can be about. -/
inductive SettingField
  | engine
  | args
  | env
  | stdout
  | stderr
  | bindings
  | budget
  | checksum
deriving DecidableEq

theorem foldl_exchange {σ α : Type} {set : σ → α → σ} {a b : α}
    (h : ∀ s, set (set s a) b = set (set s b) a) (s : σ) (before after : List α) :
    (before ++ a :: b :: after).foldl set s = (before ++ b :: a :: after).foldl set s := by
  simp only [List.foldl_append, List.foldl_cons, h]

namespace ContextSetting

def field : ContextSetting → SettingField
  | .arg _ | .args _ => .args
  | .env _ _ => .env
  | .stdout _ => .stdout
  | .stderr _ => .stderr

@[simp] def addedArgs : ContextSetting → List String
  | .arg value => [value]
  | .args values => values
  | _ => []

@[simp] def addedEnv : ContextSetting → List (String × String)
  | .env key value => [(key, value)]
  | _ => []

@[simp] def stdout? : ContextSetting → Option Sink
  | .stdout sink => some sink
  | _ => none

@[simp] def stderr? : ContextSetting → Option Sink
  | .stderr sink => some sink
  | _ => none

end ContextSetting

namespace ContextDraft

variable {draft : ContextDraft}

/-- All arguments and all variables in the order in which they were given, and the sinks that were
given last. -/
def normalForm (settings : List ContextSetting) : ContextDraft where
  args := settings.flatMap ContextSetting.addedArgs
  env := settings.flatMap ContextSetting.addedEnv
  stdout := (settings.filterMap ContextSetting.stdout?).getLast?.getD .inherited
  stderr := (settings.filterMap ContextSetting.stderr?).getLast?.getD .inherited

theorem setAll_append (draft : ContextDraft) (xs ys : List ContextSetting) :
    draft.setAll (xs ++ ys) = (draft.setAll xs).setAll ys :=
  List.foldl_append

theorem setAll_eq (draft : ContextDraft) (settings : List ContextSetting) :
    draft.setAll settings =
      { args := draft.args ++ settings.flatMap ContextSetting.addedArgs
        env := draft.env ++ settings.flatMap ContextSetting.addedEnv
        stdout := (settings.filterMap ContextSetting.stdout?).getLast?.getD draft.stdout
        stderr := (settings.filterMap ContextSetting.stderr?).getLast?.getD draft.stderr } := by
  induction settings generalizing draft with
  | nil => simp [setAll]
  | cons s rest ih =>
    have hstep : draft.setAll (s :: rest) = (draft.set s).setAll rest := rfl
    rw [hstep, ih]
    cases s <;> simp [set, List.getLast?_cons]

/-- Variables that are given one by one are added as they are, in their order. -/
theorem setAll_env (draft : ContextDraft) (env : List (String × String)) :
    draft.setAll (env.map fun (key, value) => .env key value) =
      { draft with env := draft.env ++ env } := by
  induction env generalizing draft with
  | nil => simp [setAll]
  | cons entry rest ih => exact (ih _).trans (by simp [set])

theorem setAll_eq_normalForm (settings : List ContextSetting) :
    setAll {} settings = normalForm settings := by
  simp [setAll_eq, normalForm]

theorem set_comm {a b : ContextSetting} (h : a.field ≠ b.field) :
    (draft.set a).set b = (draft.set b).set a := by
  cases a <;> cases b <;> first | rfl | exact absurd rfl h

theorem setAll_set_comm {a : ContextSetting} {settings : List ContextSetting}
    (h : ∀ b ∈ settings, a.field ≠ b.field) :
    (draft.set a).setAll settings = (draft.setAll settings).set a := by
  induction settings generalizing draft with
  | nil => rfl
  | cons b rest ih =>
    rw [List.forall_mem_cons] at h
    have hstep : (draft.set a).setAll (b :: rest) = ((draft.set a).set b).setAll rest := rfl
    rw [hstep, set_comm h.1, ih h.2]
    rfl

theorem setAll_comm {xs ys : List ContextSetting} (h : ∀ a ∈ xs, ∀ b ∈ ys, a.field ≠ b.field) :
    (draft.setAll xs).setAll ys = (draft.setAll ys).setAll xs := by
  induction xs generalizing draft with
  | nil => rfl
  | cons a rest ih =>
    rw [List.forall_mem_cons] at h
    have hstep : draft.setAll (a :: rest) = (draft.set a).setAll rest := rfl
    rw [hstep, ih h.2, setAll_set_comm h.1]
    rfl

theorem setAll_exchange {a b : ContextSetting} (h : a.field ≠ b.field)
    (before after : List ContextSetting) :
    draft.setAll (before ++ a :: b :: after) = draft.setAll (before ++ b :: a :: after) :=
  foldl_exchange (fun _ => set_comm h) draft before after

end ContextDraft

namespace PlanSetting

/-- What a setting of a plan is about; one of the context can be about several things. -/
def fields : PlanSetting → List SettingField
  | .offer _ _ | .offerTable _ => [.bindings]
  | .context settings => settings.map ContextSetting.field
  | .budget _ => [.budget]
  | .checksum _ => [.checksum]

@[simp] def contextSettings : PlanSetting → List ContextSetting
  | .context settings => settings
  | _ => []

@[simp] def budget? : PlanSetting → Option Budget
  | .budget b => some b
  | _ => none

@[simp] def checksum? : PlanSetting → Option UInt32
  | .checksum expected => some expected
  | _ => none

end PlanSetting

namespace Plan

variable {plan : Plan}

/-- All settings of the context on one context, all that was offered in one table, and of budgets
and checksums those that were given last. -/
def normalForm (source : Source) (settings : List PlanSetting) : Plan where
  source
  bindings := HostTable.empty.insertAll (offersOf settings)
  context := .normalForm (settings.flatMap PlanSetting.contextSettings)
  budget := (settings.filterMap PlanSetting.budget?).getLast?.getD .unlimited
  checksum := (settings.filterMap PlanSetting.checksum?).getLast?

theorem setAll_eq (plan : Plan) (settings : List PlanSetting) :
    plan.setAll settings =
      { source := plan.source
        bindings := plan.bindings.insertAll (offersOf settings)
        context := plan.context.setAll (settings.flatMap PlanSetting.contextSettings)
        budget := (settings.filterMap PlanSetting.budget?).getLast?.getD plan.budget
        checksum := (settings.filterMap PlanSetting.checksum?).getLast?.or plan.checksum } := by
  induction settings generalizing plan with
  | nil => rfl
  | cons s rest ih =>
    have hstep : plan.setAll (s :: rest) = (plan.set s).setAll rest := rfl
    rw [hstep, ih]
    cases s <;> simp [set, offersOf, PlanSetting.offers, HostTable.insertAll, ContextDraft.setAll,
      List.getLast?_cons]

theorem setAll_eq_normalForm (source : Source) (settings : List PlanSetting) :
    (start source).setAll settings = normalForm source settings := by
  rw [setAll_eq, normalForm, ← ContextDraft.setAll_eq_normalForm]
  simp [start, HostTable.empty]

theorem set_comm {a b : PlanSetting} (h : a.fields.Disjoint b.fields) :
    (plan.set a).set b = (plan.set b).set a := by
  cases a with
  | context xs =>
    cases b with
    | context ys =>
      have hfields : ∀ x ∈ xs, ∀ y ∈ ys, x.field ≠ y.field := by
        intro x hx y hy heq
        exact h (List.mem_map_of_mem hx) (heq ▸ List.mem_map_of_mem hy)
      simp only [set, ContextDraft.setAll_comm hfields]
    | _ => rfl
  | _ =>
    cases b <;>
      first | rfl | exact absurd (List.mem_singleton.mpr rfl) (h (List.mem_singleton.mpr rfl))

theorem setAll_exchange {a b : PlanSetting} (h : a.fields.Disjoint b.fields)
    (before after : List PlanSetting) :
    plan.setAll (before ++ a :: b :: after) = plan.setAll (before ++ b :: a :: after) :=
  foldl_exchange (fun _ => set_comm h) plan before after

end Plan

namespace LaunchSetting

def field : LaunchSetting → SettingField
  | .engine _ => .engine
  | .args _ => .args
  | .env _ _ => .env
  | .budget _ => .budget
  | .stdout _ => .stdout
  | .stderr _ => .stderr
  | .table _ => .bindings
  | .checksum _ => .checksum

@[simp] def engine? : LaunchSetting → Option Engine
  | .engine e => some e
  | _ => none

@[simp] def addedArgs : LaunchSetting → List String
  | .args values => values
  | _ => []

@[simp] def addedEnv : LaunchSetting → List (String × String)
  | .env key value => [(key, value)]
  | _ => []

@[simp] def budget? : LaunchSetting → Option Budget
  | .budget b => some b
  | _ => none

@[simp] def stdout? : LaunchSetting → Option Sink
  | .stdout sink => some sink
  | _ => none

@[simp] def stderr? : LaunchSetting → Option Sink
  | .stderr sink => some sink
  | _ => none

@[simp] def table? : LaunchSetting → Option HostTable
  | .table t => some t
  | _ => none

@[simp] def checksum? : LaunchSetting → Option UInt32
  | .checksum expected => some expected
  | _ => none

end LaunchSetting

namespace Launch

variable {l : Launch}

/-- All arguments and all variables in the order in which they were given, and of everything else
what was given last. -/
def normalForm (source : Source) (settings : List LaunchSetting) : Launch where
  source
  engine := (settings.filterMap LaunchSetting.engine?).getLast?
  args := settings.flatMap LaunchSetting.addedArgs
  env := settings.flatMap LaunchSetting.addedEnv
  budget := (settings.filterMap LaunchSetting.budget?).getLast?.getD .unlimited
  stdout := (settings.filterMap LaunchSetting.stdout?).getLast?.getD .inherited
  stderr := (settings.filterMap LaunchSetting.stderr?).getLast?.getD .inherited
  table := (settings.filterMap LaunchSetting.table?).getLast?
  checksum := (settings.filterMap LaunchSetting.checksum?).getLast?

theorem setAll_eq (l : Launch) (settings : List LaunchSetting) :
    l.setAll settings =
      { source := l.source
        engine := (settings.filterMap LaunchSetting.engine?).getLast?.or l.engine
        args := l.args ++ settings.flatMap LaunchSetting.addedArgs
        env := l.env ++ settings.flatMap LaunchSetting.addedEnv
        budget := (settings.filterMap LaunchSetting.budget?).getLast?.getD l.budget
        stdout := (settings.filterMap LaunchSetting.stdout?).getLast?.getD l.stdout
        stderr := (settings.filterMap LaunchSetting.stderr?).getLast?.getD l.stderr
        table := (settings.filterMap LaunchSetting.table?).getLast?.or l.table
        checksum := (settings.filterMap LaunchSetting.checksum?).getLast?.or l.checksum } := by
  induction settings generalizing l with
  | nil => simp [setAll]
  | cons s rest ih =>
    have hstep : l.setAll (s :: rest) = (l.set s).setAll rest := rfl
    rw [hstep, ih]
    cases s <;> simp [set, List.getLast?_cons]

theorem setAll_eq_normalForm (source : Source) (settings : List LaunchSetting) :
    (start source).setAll settings = normalForm source settings := by
  simp [setAll_eq, normalForm, start]

theorem set_comm {a b : LaunchSetting} (h : a.field ≠ b.field) :
    (l.set a).set b = (l.set b).set a := by
  cases a <;> cases b <;> first | rfl | exact absurd rfl h

theorem setAll_exchange {a b : LaunchSetting} (h : a.field ≠ b.field)
    (before after : List LaunchSetting) :
    l.setAll (before ++ a :: b :: after) = l.setAll (before ++ b :: a :: after) :=
  foldl_exchange (fun _ => set_comm h) l before after

/-- The plan of a run has just what the run was set up with, and the table of the run. -/
theorem plan_eq (l : Launch) :
    l.plan =
      { source := l.source
        bindings := l.table.getD Wasi.table
        context := { args := l.args, env := l.env, stdout := l.stdout, stderr := l.stderr }
        budget := l.budget
        checksum := l.checksum } := by
  have hcontext : ContextDraft.setAll {} ([.args l.args, .stdout l.stdout, .stderr l.stderr] ++
      l.env.map fun (key, value) => .env key value) =
        { args := l.args, env := l.env, stdout := l.stdout, stderr := l.stderr } := by
    rw [ContextDraft.setAll_append, ContextDraft.setAll_env]
    rfl
  rw [← hcontext, ← (l.table.getD Wasi.table).insertAll_empty_toList, plan, planSettings]
  cases l.checksum <;> rfl

end Launch

namespace Wasi

/-- The texts of a list when a guest has these arguments and variables. -/
def StringList.texts (args : List String) (env : List (String × String)) : StringList → List String
  | .args => args
  | .environ => envStrings env

theorem StringList.strings_eq (which : StringList) (context : Context) :
    which.strings context = which.texts context.args context.env := by
  cases which <;> rfl

/-- Regions of a memory, for the addresses of texts and for the texts, that lie in it and apart from
each other. -/
structure RoomFor (texts : List String) (m : Memory) (list buf : UInt32) : Prop where
  pages : m.pages ≤ Memory.maxPages
  listFits : list.toNat + 4 * texts.length ≤ m.size
  textsFit : buf.toNat + textSize texts ≤ m.size
  apart : list.toNat + 4 * texts.length ≤ buf.toNat ∨ buf.toNat + textSize texts ≤ list.toNat

/-- What a guest gets from a host function for a list of texts. A call that succeeds hands over just
these texts. It does succeed, unless one of them has a NUL inside; then the guest is refused and its
memory stays as it was. -/
structure GivesTexts (f : List Value → Option Memory → Host → Reply Host) (texts : List String) :
    Prop where
  handed : ∀ {m m' : Memory} {host host' : Host} {list buf : UInt32}, RoomFor texts m list buf →
    f [.i32 list, .i32 buf] (some m) host = ⟨.ok [.i32 0], some m', host'⟩ →
    HandedOver m m' list.toNat buf.toNat texts ∧
      m'.readStrings list.toNat texts.length = some (texts.map Bytes.ofString)
  succeeds : (∀ s ∈ texts, '\x00' ∉ s.toList) →
    ∀ {m : Memory} {list buf : UInt32}, RoomFor texts m list buf →
    ∀ host, ∃ m', f [.i32 list, .i32 buf] (some m) host = ⟨.ok [.i32 0], some m', host⟩
  refused : (∃ s ∈ texts, '\x00' ∈ s.toList) → ∀ args memory host,
    f args memory host = ⟨.ok [.i32 28], memory, host⟩

theorem StringList.givesTexts (which : StringList) (context : Context) :
    GivesTexts (which.get.call context) (which.texts context.args context.env) := by
  rw [← which.strings_eq context]
  refine ⟨?_, ?_, ?_⟩
  · intro m m' host host' list buf hroom hcall
    have h := handedOver_of_call hroom.pages hroom.listFits hroom.textsFit hroom.apart hcall
    exact ⟨h, h.readStrings⟩
  · intro h0 m list buf hroom host
    obtain ⟨m', hcall, _⟩ :=
      exists_handedOver hroom.pages h0 hroom.listFits hroom.textsFit hroom.apart
    exact ⟨m', hcall⟩
  · intro hnul args memory host
    obtain ⟨s, hs, h0⟩ := hnul
    exact (call_of_nul hs h0 args memory).2

end Wasi

namespace Plan

/-- Guest code that imports the function for a list of texts is given these texts by it. -/
def Shows (plan : Plan) (which : Wasi.StringList) (texts : List String) : Prop :=
  ∀ engine files host mod imports, plan.Serves engine files host mod imports →
    ∀ slot type, mod.functionImports[slot]? = some (⟨Wasi.importSpace, which.getName⟩, type) →
      Wasi.GivesTexts (imports slot) texts

section

variable {plan : Plan} {engine : Engine} {files : Files} {host : Host} {mod : Module}
  {imports : Imports Host}

theorem shows_of_get? {which : Wasi.StringList}
    (h : plan.bindings.get? ⟨Wasi.importSpace, which.getName⟩ = some which.get) :
    plan.Shows which (which.texts plan.context.args plan.context.env) := by
  intro engine files host mod imports hs slot type hi
  obtain ⟨linker, hl, rfl⟩ := hs.exists_linker
  obtain ⟨f, hf, _, himports⟩ := exists_imports_eq hl hi
  obtain rfl := Option.some.inj (hf.symm.trans h)
  rw [himports]
  exact which.givesTexts (plan.contextAt host)

end

/-- However the settings of the context are spread over the settings of a plan, two that stand next
to each other and are about different things can be exchanged. -/
theorem setAll_eq_of_exchanged {settings settings' : List PlanSetting}
    {before after : List ContextSetting} {a b : ContextSetting}
    (hoffers : offersOf settings' = offersOf settings)
    (hbudgets : settings'.filterMap PlanSetting.budget? = settings.filterMap PlanSetting.budget?)
    (hchecksums : settings'.filterMap PlanSetting.checksum? =
        settings.filterMap PlanSetting.checksum?)
    (hs : settings.flatMap PlanSetting.contextSettings = before ++ a :: b :: after)
    (hs' : settings'.flatMap PlanSetting.contextSettings = before ++ b :: a :: after)
    (h : a.field ≠ b.field) (plan : Plan) : plan.setAll settings' = plan.setAll settings := by
  rw [setAll_eq, setAll_eq, hoffers, hbudgets, hchecksums, hs, hs', ContextDraft.setAll_exchange h]

end Plan

namespace Launch

/-- Whatever is set in whatever order, on a run or on a plan, all arguments and all variables are
used in the order in which they were given, settings of the context add up, and of everything else
what was given last is used, or what is there without settings. That is what a run carries out:
these bindings are linked, host functions see this context, this budget is spent, and this checksum
is asked for. Neighbours that are about different things can be exchanged. A guest that asks for its
arguments and its environment is given the very texts that were set. -/
theorem settings_normal_form (source : Source) :
    (∀ settings : List LaunchSetting,
      let l := (start source).setAll settings
      let engine? := (settings.filterMap LaunchSetting.engine?).getLast?
      let args := settings.flatMap LaunchSetting.addedArgs
      let env := settings.flatMap LaunchSetting.addedEnv
      let stdout := (settings.filterMap LaunchSetting.stdout?).getLast?.getD .inherited
      let stderr := (settings.filterMap LaunchSetting.stderr?).getLast?.getD .inherited
      let budget := (settings.filterMap LaunchSetting.budget?).getLast?.getD .unlimited
      let table := (settings.filterMap LaunchSetting.table?).getLast?.getD Wasi.table
      let checksum := (settings.filterMap LaunchSetting.checksum?).getLast?
      let plan : Plan := ⟨source, table, ⟨args, env, stdout, stderr⟩, budget, checksum⟩
      l = normalForm source settings ∧
      l.plan = plan ∧
      plan.Uses source table ⟨args, env, stdout, stderr⟩ budget checksum ∧
      (∀ create files host,
        Conducts (engine?.elim create .ok) plan files host (l.run create files host)) ∧
      (∀ before a b after, settings = before ++ a :: b :: after → a.field ≠ b.field →
        ∀ create files host,
        ((start source).setAll (before ++ b :: a :: after)).run create files host =
          l.run create files host) ∧
      ∀ which : Wasi.StringList, settings.filterMap LaunchSetting.table? = [] ∨
        table.get? ⟨Wasi.importSpace, which.getName⟩ = some which.get →
          plan.Shows which (which.texts args env)) ∧
    ∀ settings : List PlanSetting,
      let plan := (Plan.start source).setAll settings
      let contextSettings := settings.flatMap PlanSetting.contextSettings
      plan = Plan.normalForm source settings ∧
      plan.Uses source (HostTable.empty.insertAll (offersOf settings)) (.normalForm contextSettings)
        ((settings.filterMap PlanSetting.budget?).getLast?.getD .unlimited)
        (settings.filterMap PlanSetting.checksum?).getLast? ∧
      (∀ before a b after, settings = before ++ a :: b :: after → a.fields.Disjoint b.fields →
        ∀ engine files host,
          ((Plan.start source).setAll (before ++ b :: a :: after)).build engine files host =
          plan.build engine files host) ∧
      (∀ settings' before a b after, contextSettings = before ++ a :: b :: after →
        settings'.flatMap PlanSetting.contextSettings = before ++ b :: a :: after →
          a.field ≠ b.field →
        offersOf settings' = offersOf settings →
        settings'.filterMap PlanSetting.budget? = settings.filterMap PlanSetting.budget? →
        settings'.filterMap PlanSetting.checksum? = settings.filterMap PlanSetting.checksum? →
        ∀ engine files host, ((Plan.start source).setAll settings').build engine files host =
          plan.build engine files host) ∧
      ∀ which : Wasi.StringList, lastOffer settings ⟨Wasi.importSpace, which.getName⟩ =
        some which.get →
        plan.Shows which (which.texts (contextSettings.flatMap ContextSetting.addedArgs)
          (contextSettings.flatMap ContextSetting.addedEnv)) := by
  constructor
  · intro settings l engine? args env stdout stderr budget table checksum plan
    have hl : l = normalForm source settings := setAll_eq_normalForm source settings
    have hplan : l.plan = plan := by
      rw [plan_eq, hl]
      rfl
    refine ⟨hl, hplan, plan.uses, ?_, ?_, ?_⟩
    · intro create files host
      have hengine : l.engineOf create = engine?.elim create .ok := by
        rw [hl]
        rfl
      rw [← hengine, ← hplan]
      exact l.conducts create files host
    · intro before a b after hsettings h create files host
      simp only [l, hsettings]
      rw [setAll_exchange h]
    · intro which hwhich
      apply plan.shows_of_get?
      rcases hwhich with hnone | hget
      · have htable : table = Wasi.table := by
          simp [table, hnone]
        rw [← which.table_get?_get, ← htable]
      · exact hget
  · intro settings plan contextSettings
    have hplan : plan = Plan.normalForm source settings := Plan.setAll_eq_normalForm source settings
    refine ⟨hplan, ?_, ?_, ?_, ?_⟩
    · rw [hplan]
      exact (Plan.normalForm source settings).uses
    · intro before a b after hsettings h engine files host
      simp only [plan, hsettings]
      rw [Plan.setAll_exchange h]
    · intro settings' before a b after hs hs' h hoffers hbudgets hchecksums engine files host
      rw [Plan.setAll_eq_of_exchanged hoffers hbudgets hchecksums hs hs' h]
    · intro which hwhich
      rw [← Plan.get?_bindings_setAll source] at hwhich
      have hshows := Plan.shows_of_get? hwhich
      rw [Plan.setAll_eq_normalForm source settings] at hshows
      rw [hplan]
      exact hshows

/-- A module that imports the functions for both lists of texts. -/
def askingModule : Module where
  imports := [⟨⟨Wasi.importSpace, "args_get"⟩,
    .func ⟨[.number .i32, .number .i32], [.number .i32]⟩⟩,
    ⟨⟨Wasi.importSpace, "environ_get"⟩, .func ⟨[.number .i32, .number .i32], [.number .i32]⟩⟩]
  exports := [("memory", .memory)]
  memory := some { pages := 1 }

/-- Settings that come twice, with others in between. -/
def scattered : List LaunchSetting :=
  [.args ["a"], .stdout .discard, .env "k" "1", .stderr (.capture "err"), .args ["b"],
    .stdout (.capture "out"),
    .env "k" "2"]

theorem settings_normal_form_scattered :
    let l := (start (.bytes [])).setAll scattered
    let engine : Engine := ⟨true, fun _ => .ok askingModule⟩
    l.plan.context =
      { args := ["a", "b"], env := [("k", "1"), ("k", "2")], stdout := .capture "out",
        stderr := .capture "err" } ∧
    ((start (.bytes [])).setAll (.stdout .discard :: .args ["a"] :: scattered.drop 2)).run
      (.ok engine) noFiles .still =
      l.run (.ok engine) noFiles .still ∧
    (∃ inst, (l.plan.build engine noFiles .still).1 = .ok inst ∧
      inst.context = ⟨["a", "b"], [("k", "1"), ("k", "2")], .capture "out", .capture "err", 0⟩) ∧
    ∃ imports m', l.plan.Serves engine noFiles .still askingModule imports ∧
      imports 1 [.i32 16, .i32 64] (some (.zeroed 1 1)) .still = ⟨.ok [.i32 0], some m', .still⟩ ∧
      m'.readStrings 16 2 = some [[0x6b, 0x3d, 0x31], [0x6b, 0x3d, 0x32]] := by
  intro l engine
  obtain ⟨hlaunch, _⟩ := settings_normal_form (.bytes [])
  obtain ⟨_, hplan, huses, _, hexchange, hshows⟩ := hlaunch scattered
  have hplan : l.plan = _ := hplan
  have hserves : ∃ imports, l.plan.Serves engine noFiles .still askingModule imports :=
    ⟨_, .start (rfl : l.plan.prepare engine noFiles = .ok (askingModule, _))⟩
  have hbuilt : ∃ inst, (l.plan.build engine noFiles .still).1 = .ok inst := ⟨_, rfl⟩
  obtain ⟨imports, hserves⟩ := hserves
  obtain ⟨inst, hinst⟩ := hbuilt
  rw [hplan] at hserves hinst ⊢
  obtain ⟨hcontext, _⟩ := huses.kept engine noFiles .still inst hinst
  have hgives :=
    hshows .environ (.inl rfl) engine noFiles .still askingModule imports hserves 1 _ rfl
  have hroom : Wasi.RoomFor ["k=1", "k=2"] (.zeroed 1 1) 16 64 := by
    constructor <;> decide
  obtain ⟨m', hcall⟩ := hgives.succeeds (by decide) hroom .still
  obtain ⟨_, hread⟩ := hgives.handed hroom hcall
  exact ⟨rfl, hexchange [] _ _ _ rfl (by decide) (.ok engine) noFiles .still,
    ⟨inst, hinst, hcontext⟩, imports, m',
    hserves, hcall, hread⟩

end Launch

end WasmHost

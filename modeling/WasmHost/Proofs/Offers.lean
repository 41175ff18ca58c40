import WasmHost.Proofs.Linking

namespace WasmHost

/-- The functions that a setting offers, in the order in which they are taken in. -/
def PlanSetting.offers : PlanSetting → List (ImportName × HostFunc)
  | .offer name func => [(name, func)]
  | .offerTable table => table.toList
  | _ => []

/-- A setting that is not about imports. -/
def PlanSetting.isOther : PlanSetting → Bool
  | .offer _ _ | .offerTable _ => false
  | _ => true

/-- All functions that are offered, one after the other, singly or in tables. -/
def offersOf (settings : List PlanSetting) : List (ImportName × HostFunc) :=
  settings.flatMap PlanSetting.offers

/-- The function that is offered last under a name. -/
def lastOffer (settings : List PlanSetting) (name : ImportName) : Option HostFunc :=
  (offersOf settings).reverse.lookup name

theorem lookup_filter_key {α β : Type} [DecidableEq α] (key : α) (entries : List (α × β)) :
    (entries.filter fun entry => entry.1 = key).lookup key = entries.lookup key := by
  induction entries with
  | nil => rfl
  | cons entry rest ih =>
    obtain ⟨name, f⟩ := entry
    by_cases h : name = key
    · subst h
      simp
    · simp [h, List.lookup_cons, beq_eq_false_iff_ne.mpr (Ne.symm h), ih]

/-- Only what is offered under a name matters for it. -/
theorem lastOffer_congr {settings settings' : List PlanSetting} {name : ImportName}
    (h : ((offersOf settings).filter fun offer => offer.1 = name) =
      (offersOf settings').filter fun offer => offer.1 = name) :
    lastOffer settings name = lastOffer settings' name := by
  rw [lastOffer, lastOffer, ← lookup_filter_key, List.filter_reverse, h, ← List.filter_reverse,
    lookup_filter_key]

/-- A setting that offers a function under a name decides when no later one does, whatever was
offered before. -/
theorem lastOffer_of_split {before after : List PlanSetting} {s : PlanSetting} {name : ImportName}
    {f : HostFunc} (hs : s.offers.reverse.lookup name = some f)
    (hafter : ∀ offer ∈ offersOf after, offer.1 ≠ name) :
    lastOffer (before ++ s :: after) name = some f := by
  have hnone : (offersOf after).reverse.lookup name = none := by
    rw [List.lookup_eq_none_iff]
    intro offer hoffer
    have hne := hafter offer (List.mem_reverse.mp hoffer)
    simpa using hne.symm
  simp only [lastOffer, offersOf, List.flatMap_append, List.flatMap_cons, List.reverse_append,
    List.append_assoc]
  rw [List.lookup_append, ← offersOf, hnone, List.lookup_append, hs]
  rfl

namespace HostTable

theorem insertAll_append (table : HostTable) (xs ys : List (ImportName × HostFunc)) :
    table.insertAll (xs ++ ys) = (table.insertAll xs).insertAll ys :=
  List.foldl_append

theorem get?_insertAll (table : HostTable) (entries : List (ImportName × HostFunc))
    (name : ImportName) :
    (table.insertAll entries).get? name = (entries.reverse.lookup name).or (table.get? name) := by
  induction entries generalizing table with
  | nil => rfl
  | cons entry rest ih =>
    obtain ⟨key, f⟩ := entry
    have hstep : table.insertAll ((key, f) :: rest) = (table.insert key f).insertAll rest := rfl
    rw [hstep, ih, get?_insert, List.reverse_cons, List.lookup_append, Option.or_assoc]
    by_cases h : name = key
    · simp [h]
    · simp [h, List.lookup_cons, beq_eq_false_iff_ne.mpr h]

end HostTable

namespace Plan

theorem bindings_setAll (plan : Plan) (settings : List PlanSetting) :
    (plan.setAll settings).bindings = plan.bindings.insertAll (offersOf settings) := by
  induction settings generalizing plan with
  | nil => rfl
  | cons s rest ih =>
    have hstep : plan.setAll (s :: rest) = (plan.set s).setAll rest := rfl
    have hset : (plan.set s).bindings = plan.bindings.insertAll s.offers := by
      cases s <;> rfl
    rw [hstep, ih, hset, ← HostTable.insertAll_append]
    rfl

/-- Whatever was set when, a name is bound to the function that was offered last. -/
theorem get?_bindings_setAll (source : Source) (settings : List PlanSetting) (name : ImportName) :
    ((start source).setAll settings).bindings.get? name = lastOffer settings name := by
  have hempty : (start source).bindings.get? name = none := rfl
  rw [bindings_setAll, HostTable.get?_insertAll, hempty, Option.or_none, lastOffer]

/-- A plan without its bindings. -/
def unbound (plan : Plan) : Plan := { plan with bindings := .empty }

theorem unbound_setAll (plan : Plan) (settings : List PlanSetting) :
    (plan.setAll settings).unbound =
      (plan.unbound.setAll (settings.filter PlanSetting.isOther)).unbound := by
  induction settings generalizing plan with
  | nil => rfl
  | cons s rest ih =>
    have hstep : plan.setAll (s :: rest) = (plan.set s).setAll rest := rfl
    rw [hstep, ih]
    cases s <;> rfl

theorem eq_of_unbound_eq {plan plan' : Plan} (h : plan.unbound = plan'.unbound) :
    plan' = { plan with bindings := plan'.bindings } := by
  cases plan
  cases plan'
  simp only [unbound, mk.injEq] at h ⊢
  simp [h]

end Plan

theorem Linker.resolve_congr {bindings bindings' : HostTable} {i : Import}
    (h : bindings.get? i.name = bindings'.get? i.name) :
    resolve bindings i = resolve bindings' i := by
  rw [resolve, resolve, h]

/-- Linking looks at the bindings of imported names only. -/
theorem Linker.addAll_congr {bindings bindings' : HostTable} {imports : List Import}
    (linker : Linker) (h : ∀ i ∈ imports, bindings.get? i.name = bindings'.get? i.name) :
    addAll bindings linker imports = addAll bindings' linker imports := by
  induction imports generalizing linker with
  | nil => rfl
  | cons i rest ih =>
    rw [List.forall_mem_cons] at h
    simp only [addAll, resolve_congr h.1, fun linker => ih linker h.2]

/-- Bindings of names that are not imported change nothing. -/
theorem Plan.build_congr {plan : Plan} {bindings : HostTable} {engine : Engine} {files : Files}
    (h : ∀ loaded mod, plan.load files = .ok loaded → compile engine loaded = .ok mod →
      ∀ i ∈ mod.imports, bindings.get? i.name = plan.bindings.get? i.name) (host : Host) :
    { plan with bindings }.build engine files host = plan.build engine files host := by
  have hprepare : { plan with bindings }.prepare engine files = plan.prepare engine files := by
    have hload : { plan with bindings }.load files = plan.load files := rfl
    rw [prepare, prepare, hload]
    cases hl : plan.load files with
    | error e => rfl
    | ok loaded =>
      cases hm : compile engine loaded with
      | error e => simp only [hm, bind, Except.bind]
      | ok mod =>
        have hlink : { plan with bindings }.link mod = plan.link mod := by
          rw [link, link, Linker.addAll_congr {} (h loaded mod hl hm)]
        simp only [hm, hlink, bind, Except.bind]
  rw [build, build, hprepare]
  rfl

end WasmHost

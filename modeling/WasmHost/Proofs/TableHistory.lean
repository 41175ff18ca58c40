import Mathlib.Data.Finset.Card
import WasmHost.Wasi
import WasmHost.Proofs.Offers

namespace WasmHost

/-- Where names do not occur again, the first entry of a name is also its last one. -/
theorem lookup_reverse_of_nodup {entries : List (ImportName × HostFunc)}
    (hn : (entries.map Prod.fst).Nodup) (key : ImportName) :
    entries.reverse.lookup key = entries.lookup key := by
  induction entries with
  | nil => rfl
  | cons entry rest ih =>
    obtain ⟨name, f⟩ := entry
    obtain ⟨hname, hrest⟩ := List.nodup_cons.mp hn
    rw [List.reverse_cons, List.lookup_append, ih hrest]
    by_cases hk : key = name
    · subst hk
      have hnone : rest.lookup key = none := lookup_eq_none_iff_not_mem.mpr hname
      rw [hnone, List.lookup_cons_self, List.lookup_cons_self, Option.none_or]
    · rw [List.lookup_cons, List.lookup_cons, beq_eq_false_iff_ne.mpr hk, List.lookup_nil,
        Option.or_none]

theorem eraseDups_of_nodup {keys : List ImportName} (hn : keys.Nodup) : keys.eraseDups = keys := by
  induction keys with
  | nil => rfl
  | cons key rest ih =>
    obtain ⟨hkey, hrest⟩ := List.nodup_cons.mp hn
    have hall : rest.filter (fun b => !b == key) = rest := by
      rw [List.filter_eq_self]
      intro b hb
      have hne : b ≠ key := ne_of_mem_of_not_mem hb hkey
      simpa using hne
    rw [List.eraseDups_cons, hall, ih hrest]

namespace HostTable

variable {table table' : HostTable} {key : ImportName}

/-- A name that is there keeps its place, and the other entries are as before. -/
theorem toList_insert_of_mem (h : key ∈ table.keys) (func : HostFunc) :
    (table.insert key func).toList = table.toList.map fun e =>
      (e.1, if e.1 = key then func else e.2) := by
  obtain ⟨entries, hn⟩ := table
  simp only [insert, toList, keys] at h ⊢
  induction entries with
  | nil => simp at h
  | cons entry rest ih =>
    obtain ⟨name, f⟩ := entry
    obtain ⟨hname, hrest⟩ := List.nodup_cons.mp hn
    by_cases hk : name = key
    · subst hk
      have hothers : rest.map (fun e => (e.1, if e.1 = name then func else e.2)) = rest.map id := by
        apply List.map_congr_left
        intro e he
        have hne : e.1 ≠ name := ne_of_mem_of_not_mem (List.mem_map_of_mem he) hname
        rw [if_neg hne]
        rfl
      rw [insertEntry, if_pos rfl, List.map_cons, hothers, if_pos rfl, List.map_id]
    · have hmem : key ∈ rest.map Prod.fst := by
        rcases List.mem_cons.mp h with hkey | hmem
        · exact absurd hkey.symm hk
        · exact hmem
      rw [insertEntry, if_neg hk, ih hrest hmem, List.map_cons, if_neg hk]

/-- A new name comes last. -/
theorem toList_insert_of_not_mem (h : key ∉ table.keys) (func : HostFunc) :
    (table.insert key func).toList = table.toList ++ [(key, func)] := by
  obtain ⟨entries, hn⟩ := table
  simp only [insert, toList, keys] at h ⊢
  induction entries with
  | nil => rfl
  | cons entry rest ih =>
    rw [List.map_cons, List.mem_cons, not_or] at h
    rw [insertEntry, if_neg (Ne.symm h.1), ih (List.nodup_cons.mp hn).2 h.2, List.cons_append]

theorem insertAll_cons (table : HostTable) (entry : ImportName × HostFunc)
    (rest : List (ImportName × HostFunc)) :
    table.insertAll (entry :: rest) = (table.insert entry.1 entry.2).insertAll rest := rfl

/-- The names stand in the order in which they first came. -/
theorem keys_insertAll (table : HostTable) (entries : List (ImportName × HostFunc)) :
    (table.insertAll entries).keys = (table.keys ++ entries.map Prod.fst).eraseDups := by
  induction entries generalizing table with
  | nil =>
    rw [List.map_nil, List.append_nil, eraseDups_of_nodup table.nodup_keys]
    rfl
  | cons entry rest ih =>
    obtain ⟨key, f⟩ := entry
    rw [insertAll_cons, ih, List.map_cons]
    by_cases h : key ∈ table.keys
    · rw [keys_insert_of_mem h, List.eraseDups_append, List.eraseDups_append, List.cons_removeAll,
        List.contains_iff_mem.mpr h]
      simp
    · rw [keys_insert_of_not_mem h, List.append_assoc]
      rfl

/-- What a table lists is told by its names and by what is found under them. -/
theorem toList_eq (table : HostTable) :
    table.toList = table.keys.filterMap fun key => (table.get? key).map fun func =>
      (key, func) := by
  obtain ⟨entries, hn⟩ := table
  simp only [toList, keys, get?]
  induction entries with
  | nil => rfl
  | cons entry rest ih =>
    obtain ⟨name, f⟩ := entry
    obtain ⟨hname, hrest⟩ := List.nodup_cons.mp hn
    have htail : (rest.map Prod.fst).filterMap
      (fun key => (((name, f) :: rest).lookup key).map fun func => (key, func)) =
        (rest.map Prod.fst).filterMap fun key => (rest.lookup key).map fun func => (key, func) := by
      apply List.filterMap_congr
      intro key hkey
      have hne : key ≠ name := ne_of_mem_of_not_mem hkey hname
      rw [List.lookup_cons, beq_eq_false_iff_ne.mpr hne]
    rw [List.map_cons, List.filterMap_cons, List.lookup_cons_self, htail, ← ih hrest]
    rfl

theorem eq_of_get? (hk : table'.keys = table.keys) (hg : ∀ key, table'.get? key = table.get? key) :
    table' = table := by
  have hlist : table'.toList = table.toList := by
    rw [toList_eq, toList_eq, hk]
    simp only [hg]
  obtain ⟨entries, _⟩ := table
  obtain ⟨entries', _⟩ := table'
  obtain rfl : entries' = entries := hlist
  rfl

/-- A table that is put into an empty one is taken over as it is. -/
theorem insertAll_empty_toList (table : HostTable) : empty.insertAll table.toList = table := by
  apply eq_of_get?
  · rw [keys_insertAll]
    exact eraseDups_of_nodup table.nodup
  · intro key
    rw [get?_insertAll, get?_empty, Option.or_none]
    exact lookup_reverse_of_nodup table.nodup key

/-- A list without repeated names replaces, where they stand, the functions of the names that are
there, and appends the others as they come. -/
theorem toList_insertAll (table : HostTable) {entries : List (ImportName × HostFunc)}
    (he : (entries.map Prod.fst).Nodup) :
    (table.insertAll entries).toList =
      table.toList.map (fun e => (e.1, (entries.lookup e.1).getD e.2)) ++
        entries.filter fun e => e.1 ∉ table.keys := by
  induction entries generalizing table with
  | nil => simp [insertAll]
  | cons entry rest ih =>
    obtain ⟨key, f⟩ := entry
    obtain ⟨hkey, hrest⟩ := List.nodup_cons.mp he
    have hnone : rest.lookup key = none := lookup_eq_none_iff_not_mem.mpr hkey
    have hother : ∀ e : ImportName × HostFunc, e.1 ≠ key →
      ((key, f) :: rest).lookup e.1 = rest.lookup e.1 := by
      intro e hne
      rw [List.lookup_cons, beq_eq_false_iff_ne.mpr hne]
    rw [insertAll_cons, ih _ hrest]
    by_cases h : key ∈ table.keys
    · rw [toList_insert_of_mem h, keys_insert_of_mem h, List.map_map,
        List.filter_cons_of_neg (by simpa using h)]
      congr 1
      apply List.map_congr_left
      intro e _
      by_cases hk : e.1 = key
      · simp [hk, hnone]
      · simp only [Function.comp_apply, if_neg hk, hother e hk]
    · have hmap : table.toList.map (fun e => (e.1, (rest.lookup e.1).getD e.2)) =
          table.toList.map fun e => (e.1, (((key, f) :: rest).lookup e.1).getD e.2) := by
        apply List.map_congr_left
        intro e hmem
        have hne : e.1 ≠ key := ne_of_mem_of_not_mem (List.mem_map_of_mem hmem) h
        rw [hother e hne]
      have hfilter : rest.filter (fun e => e.1 ∉ table.keys ++ [key]) = rest.filter fun e =>
        e.1 ∉ table.keys := by
        apply List.filter_congr
        intro e hmem
        have hne : e.1 ≠ key := ne_of_mem_of_not_mem (List.mem_map_of_mem hmem) hkey
        simp [hne]
      rw [toList_insert_of_not_mem h, keys_insert_of_not_mem h, List.map_append, hmap, hfilter,
        List.filter_cons_of_pos (by simpa using h), List.append_assoc]
      simp [hnone]

/-- Something that is done to a table: a function is inserted, or those of the catalogue are
installed. -/
inductive Change
  | insert (key : ImportName) (func : HostFunc)
  | install

/-- What a change inserts, one after the other. -/
def Change.entries : Change → List (ImportName × HostFunc)
  | .insert key func => [(key, func)]
  | .install => Wasi.entries

def change (table : HostTable) : Change → HostTable
  | .insert key func => table.insert key func
  | .install => Wasi.install table

def changeAll (table : HostTable) (changes : List Change) : HostTable := changes.foldl change table

/-- All that was ever inserted into a table: what it had, and what came with the changes. -/
def history (table : HostTable) (changes : List Change) : List (ImportName × HostFunc) :=
  table.toList ++ changes.flatMap Change.entries

theorem change_eq (table : HostTable) (c : Change) :
    table.change c = table.insertAll c.entries := by
  cases c <;> rfl

theorem changeAll_eq (table : HostTable) (changes : List Change) :
    table.changeAll changes = table.insertAll (changes.flatMap Change.entries) := by
  induction changes generalizing table with
  | nil => rfl
  | cons c rest ih =>
    have hstep : table.changeAll (c :: rest) = (table.change c).changeAll rest := rfl
    rw [hstep, ih, change_eq, ← insertAll_append]
    rfl

theorem keys_changeAll (table : HostTable) (changes : List Change) :
    (table.changeAll changes).keys = ((table.history changes).map Prod.fst).eraseDups := by
  rw [changeAll_eq, keys_insertAll, history, List.map_append]
  rfl

theorem get?_changeAll (table : HostTable) (changes : List Change) (key : ImportName) :
    (table.changeAll changes).get? key = (table.history changes).reverse.lookup key := by
  have htable : table.toList.reverse.lookup key = table.get? key :=
    lookup_reverse_of_nodup table.nodup key
  rw [changeAll_eq, get?_insertAll, history, List.reverse_append, List.lookup_append, htable]

theorem size_changeAll (table : HostTable) (changes : List Change) :
    (table.changeAll changes).size = ((table.history changes).map Prod.fst).toFinset.card := by
  have hkeys : (table.changeAll changes).keys.toFinset =
    ((table.history changes).map Prod.fst).toFinset := by
    ext key
    rw [keys_changeAll, List.mem_toFinset, List.mem_toFinset, List.mem_eraseDups]
  rw [← hkeys, List.toFinset_card_of_nodup (nodup_keys _), length_keys]

theorem get?_changeAll_eq_none_iff (table : HostTable) (changes : List Change) (key : ImportName) :
    (table.changeAll changes).get? key = none ↔ key ∉ (table.history changes).map Prod.fst := by
  rw [get?_changeAll, lookup_eq_none_iff_not_mem, List.map_reverse, List.mem_reverse]

end HostTable

namespace Wasi

theorem nodup_entries : (entries.map Prod.fst).Nodup := by
  decide

/-- Installing again finds all names in place, with the same functions. -/
theorem install_install (t : HostTable) : install (install t) = install t := by
  apply HostTable.eq_of_get?
  · have hmem : ∀ key ∈ entries.map Prod.fst, key ∈ (install t).keys := by
      intro key hkey
      rw [install, HostTable.keys_insertAll, List.mem_eraseDups]
      exact List.mem_append_right _ hkey
    have hnone : (entries.map Prod.fst).removeAll (install t).keys = [] := by
      rw [List.removeAll, List.filter_eq_nil_iff]
      intro key hkey
      simpa using hmem key hkey
    rw [install, HostTable.keys_insertAll, List.eraseDups_append, hnone,
      eraseDups_of_nodup (HostTable.nodup_keys _)]
    exact List.append_nil _
  · intro key
    rw [install, HostTable.get?_insertAll, install, HostTable.get?_insertAll, ← Option.or_assoc,
      Option.or_self]

end Wasi

/-- After a table was offered, what it has under a name is bound to it, and the other names are
bound as before. -/
theorem Plan.get?_offerTable (t : HostTable) (plan : Plan) (key : ImportName) :
    (plan.set (.offerTable t)).bindings.get? key = (t.get? key).or (plan.bindings.get? key) := by
  have hlast : t.toList.reverse.lookup key = t.get? key := lookup_reverse_of_nodup t.nodup key
  rw [Plan.set, HostTable.get?_insertAll, hlast]

namespace HostTable

/-- Whatever is done to a table, it has each name once and holds just what was inserted: it has as
many entries as there were names, finds the last function of a name, and lists the names in the
order in which they first came. The catalogue takes the places of those of its names that are there,
brings the others behind all, in its own order, and changes nothing when it comes again. A table
that is offered decides for the names that it has, and for no others. -/
theorem insertion_order (table : HostTable) (changes : List Change) :
    let t := table.changeAll changes
    let history := table.history changes
    t.keys.Nodup ∧
    (∀ key, t.get? key = history.reverse.lookup key) ∧
    (∀ key, t.get? key = none ↔ key ∉ history.map Prod.fst) ∧
    t.size = (history.map Prod.fst).toFinset.card ∧
    t.toList = (history.map Prod.fst).eraseDups.filterMap (fun key =>
      (history.reverse.lookup key).map fun func => (key, func)) ∧
    (Wasi.install t).toList = t.toList.map (fun e => (e.1, (Wasi.entries.lookup e.1).getD e.2)) ++
      Wasi.entries.filter (fun e => e.1 ∉ t.keys) ∧
    Wasi.install (Wasi.install t) = Wasi.install t ∧
    ∀ (plan : Plan) (key : ImportName),
      (plan.set (.offerTable t)).bindings.get? key = (t.get? key).or (plan.bindings.get? key) := by
  intro t history
  refine ⟨t.nodup_keys, get?_changeAll table changes, get?_changeAll_eq_none_iff table changes,
    size_changeAll table changes, ?_, t.toList_insertAll Wasi.nodup_entries, Wasi.install_install t,
    Plan.get?_offerTable t⟩
  rw [toList_eq, keys_changeAll]
  simp only [t, get?_changeAll]
  rfl

/-- The catalogue comes last, behind a function under one of its names and one under another
name. -/
def replacing : List Change :=
  [.insert ⟨Wasi.importSpace, "random_get"⟩ Plan.takesInt32, .insert ⟨"env", "f"⟩ Plan.takesInt32,
    .install]

/-- The name that was there keeps its place in front, with the function of the catalogue. -/
theorem insertion_order_replacing :
    (empty.changeAll replacing).size = 11 ∧
      (empty.changeAll replacing).toList.map Prod.fst =
        ⟨Wasi.importSpace, "random_get"⟩ :: ⟨"env", "f"⟩ ::
        (Wasi.entries.map Prod.fst).filter (· ≠ ⟨Wasi.importSpace, "random_get"⟩) ∧
      (empty.changeAll replacing).get? ⟨Wasi.importSpace, "random_get"⟩ =
        Wasi.table.get? ⟨Wasi.importSpace, "random_get"⟩ ∧
      (empty.changeAll replacing).get? ⟨"env", "g"⟩ = none := by
  obtain ⟨_, hget, hnone, hsize, hlist, _⟩ := insertion_order empty replacing
  refine ⟨?_, ?_, ?_, ?_⟩
  · rw [hsize]
    decide
  · rw [hlist]
    decide
  · rw [hget]
    rfl
  · rw [hnone]
    decide

end HostTable

end WasmHost

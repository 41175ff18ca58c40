import WasmHost.HostFunc

namespace WasmHost

/-- The name under which a module imports something: a namespace, and a name in it. -/
structure ImportName where
  space : String
  name : String
deriving DecidableEq

/-- Replaces the function of a name where it stands, or appends a name that is new. -/
def insertEntry (key : ImportName) (func : HostFunc) :
    List (ImportName × HostFunc) → List (ImportName × HostFunc)
  | [] => [(key, func)]
  | entry :: rest =>
    if entry.1 = key then (key, func) :: rest else entry :: insertEntry key func rest

theorem map_fst_insertEntry (key : ImportName) (func : HostFunc)
    (entries : List (ImportName × HostFunc)) :
    (insertEntry key func entries).map Prod.fst =
      if key ∈ entries.map Prod.fst then entries.map Prod.fst
      else entries.map Prod.fst ++ [key] := by
  induction entries with
  | nil => rfl
  | cons entry rest ih =>
    by_cases h : entry.1 = key
    · simp [insertEntry, h]
    · rw [insertEntry, if_neg h, List.map_cons, ih]
      split <;> simp_all [Ne.symm h]

theorem nodup_insertEntry {entries : List (ImportName × HostFunc)}
    (h : (entries.map Prod.fst).Nodup) (key : ImportName) (func : HostFunc) :
    ((insertEntry key func entries).map Prod.fst).Nodup := by
  rw [map_fst_insertEntry]
  split
  · exact h
  · rename_i hkey
    rw [List.nodup_append]
    refine ⟨h, by simp, ?_⟩
    intro name hname other hother
    rw [List.mem_singleton] at hother
    rintro rfl
    exact hkey (hother ▸ hname)

theorem lookup_insertEntry (key other : ImportName) (func : HostFunc)
    (entries : List (ImportName × HostFunc)) :
    (insertEntry key func entries).lookup other = if other = key then some func
      else entries.lookup other := by
  induction entries with
  | nil =>
    by_cases h : other = key
    · simp [insertEntry, h]
    · simp [insertEntry, List.lookup_cons, h, beq_eq_false_iff_ne.mpr h]
  | cons entry rest ih =>
    obtain ⟨name, f⟩ := entry
    by_cases hk : name = key
    · subst hk
      by_cases h : other = name
      · simp [insertEntry, h]
      · simp [insertEntry, List.lookup_cons, h, beq_eq_false_iff_ne.mpr h]
    · by_cases h : other = name
      · subst h; simp [insertEntry, hk]
      · simp only [insertEntry, hk, if_false, List.lookup_cons, beq_eq_false_iff_ne.mpr h, ih]

/-- Host functions by the name they are imported under, each name once, in the order in which the
names were first used. -/
structure HostTable where
  entries : List (ImportName × HostFunc)
  nodup : (entries.map Prod.fst).Nodup

namespace HostTable

def empty : HostTable := ⟨[], List.nodup_nil⟩

def insert (table : HostTable) (key : ImportName) (func : HostFunc) : HostTable :=
  ⟨insertEntry key func table.entries, nodup_insertEntry table.nodup key func⟩

def get? (table : HostTable) (key : ImportName) : Option HostFunc := table.entries.lookup key

def size (table : HostTable) : Nat := table.entries.length

def isEmpty (table : HostTable) : Bool := table.entries.isEmpty

def toList (table : HostTable) : List (ImportName × HostFunc) := table.entries

def insertAll (table : HostTable) (entries : List (ImportName × HostFunc)) : HostTable :=
  entries.foldl (fun table entry => table.insert entry.1 entry.2) table

@[simp] theorem get?_empty (key : ImportName) : empty.get? key = none := rfl

theorem get?_insert (table : HostTable) (key other : ImportName) (func : HostFunc) :
    (table.insert key func).get? other = if other = key then some func else table.get? other :=
  lookup_insertEntry key other func table.entries

end HostTable

end WasmHost

import WasmHost.HostTable

namespace WasmHost

theorem lookup_eq_none_iff_not_mem {entries : List (ImportName × HostFunc)} {key : ImportName} :
    entries.lookup key = none ↔ key ∉ entries.map Prod.fst := by
  rw [List.lookup_eq_none_iff, List.mem_map]
  constructor
  · intro h hmem
    obtain ⟨entry, he, rfl⟩ := hmem
    simpa using h entry he
  · intro h entry he
    rw [bne_iff_ne]
    rintro rfl
    exact h ⟨entry, he, rfl⟩

namespace HostTable

def keys (table : HostTable) : List ImportName := table.entries.map Prod.fst

theorem nodup_keys (table : HostTable) : table.keys.Nodup := table.nodup

@[simp] theorem length_keys (table : HostTable) : table.keys.length = table.size := by
  simp [keys, size]

theorem mem_keys_iff {table : HostTable} {key : ImportName} :
    key ∈ table.keys ↔ table.get? key ≠ none := by
  rw [get?, Ne, lookup_eq_none_iff_not_mem, Decidable.not_not, keys]

theorem keys_insert_of_mem {table : HostTable} {key : ImportName} (h : key ∈ table.keys)
    (func : HostFunc) :
    (table.insert key func).keys = table.keys :=
  (map_fst_insertEntry key func table.entries).trans (if_pos h)

theorem keys_insert_of_not_mem {table : HostTable} {key : ImportName} (h : key ∉ table.keys)
    (func : HostFunc) :
    (table.insert key func).keys = table.keys ++ [key] :=
  (map_fst_insertEntry key func table.entries).trans (if_neg h)

end HostTable

end WasmHost

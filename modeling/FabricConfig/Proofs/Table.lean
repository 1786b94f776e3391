import FabricConfig.Table
import Mathlib.Data.Set.Card

/-! Laws of tables and of the lists of entries behind them. -/

namespace FabricConfig

open Text (ByteLt)

variable {α : Type}

theorem Text.ByteLt.ne {a b : String} (h : ByteLt a b) : a ≠ b := by
  rintro rfl
  exact ByteLt.irrefl a h

theorem Text.ByteLt.asymm {a b : String} (h : ByteLt a b) : ¬ ByteLt b a :=
  fun h' => ByteLt.irrefl a (h.trans h')

/-! ### Entries -/

theorem insertEntry_of_forall_lt {key : String} (value : α) {entries : List (String × α)}
    (h : ∀ entry ∈ entries, ByteLt entry.1 key) :
    insertEntry key value entries = entries ++ [(key, value)] := by
  induction entries with
  | nil => rfl
  | cons entry entries ih =>
      have hentry : ByteLt entry.1 key := h entry List.mem_cons_self
      have hentries := ih fun other hother => h other (List.mem_cons_of_mem entry hother)
      simp [insertEntry, hentry.ne.symm, hentry.asymm, hentries]

theorem insertEntry_insertEntry (key : String) (value newer : α) (entries : List (String × α)) :
    insertEntry key newer (insertEntry key value entries) = insertEntry key newer entries := by
  induction entries with
  | nil => simp [insertEntry]
  | cons entry entries ih =>
      by_cases heq : key = entry.1
      · simp [insertEntry, heq]
      · by_cases hlt : ByteLt key entry.1
        · simp [insertEntry, heq, hlt]
        · simp [insertEntry, heq, hlt, ih]

theorem lookup_cons_eq_ite (key : String) (entry : String × α) (entries : List (String × α)) :
    (entry :: entries).lookup key = if key = entry.1 then some entry.2 else entries.lookup key := by
  obtain ⟨first, stored⟩ := entry
  by_cases h : key = first
  · simp [h]
  · have hne : (key == first) = false := by simpa using h
    simp [List.lookup_cons, h, hne]

theorem lookup_insertEntry_self (key : String) (value : α) (entries : List (String × α)) :
    (insertEntry key value entries).lookup key = some value := by
  induction entries with
  | nil => simp [insertEntry]
  | cons entry entries ih =>
      by_cases heq : key = entry.1
      · simp [insertEntry, heq]
      · by_cases hlt : ByteLt key entry.1
        · simp [insertEntry, heq, hlt]
        · simp [insertEntry, heq, hlt, lookup_cons_eq_ite, ih]

theorem lookup_insertEntry_of_ne {key other : String} (h : other ≠ key) (value : α)
    (entries : List (String × α)) :
    (insertEntry key value entries).lookup other = entries.lookup other := by
  induction entries with
  | nil => simp [insertEntry, lookup_cons_eq_ite, h]
  | cons entry entries ih =>
      by_cases heq : key = entry.1
      · simp [insertEntry, lookup_cons_eq_ite, heq, heq ▸ h]
      · by_cases hlt : ByteLt key entry.1
        · simp [insertEntry, lookup_cons_eq_ite, heq, hlt, h]
        · simp [insertEntry, lookup_cons_eq_ite, heq, hlt, ih]

theorem isSome_lookup_iff {key : String} {entries : List (String × α)} :
    (entries.lookup key).isSome ↔ key ∈ entries.map Prod.fst := by
  induction entries with
  | nil => simp
  | cons entry entries ih =>
      by_cases hkey : key = entry.1
      · simp [lookup_cons_eq_ite, hkey]
      · rw [lookup_cons_eq_ite, if_neg hkey, ih]
        simp [hkey]

/-! ### Entries in order -/

namespace Ascending

variable {entries first second : List (String × α)}

theorem nodup (h : Ascending entries) : entries.Nodup :=
  h.imp fun hlt heq => hlt.ne (congrArg Prod.fst heq)

/-- Every key is there once, so its entry is the one that is found. -/
theorem mem_iff_lookup (h : Ascending entries) {key : String} {value : α} :
    (key, value) ∈ entries ↔ entries.lookup key = some value := by
  induction entries with
  | nil => simp
  | cons entry entries ih =>
      obtain ⟨first, stored⟩ := entry
      obtain ⟨hhead, htail⟩ := List.pairwise_cons.mp h
      by_cases hkey : key = first
      · subst hkey
        have hnot : (key, value) ∉ entries := fun hmem => ByteLt.irrefl key (hhead _ hmem)
        simp [hnot, eq_comm]
      · simp [lookup_cons_eq_ite, hkey, ih htail]

/-- Entries in order are determined by what is found among them. -/
theorem eq_of_lookup (hfirst : Ascending first) (hsecond : Ascending second)
    (h : ∀ key, first.lookup key = second.lookup key) : first = second := by
  have hmem : ∀ entry, entry ∈ first ↔ entry ∈ second := by
    rintro ⟨key, value⟩
    rw [hfirst.mem_iff_lookup, hsecond.mem_iff_lookup, h]
  have hperm : first.Perm second :=
    (List.perm_ext_iff_of_nodup hfirst.nodup hsecond.nodup).mpr hmem
  exact hperm.eq_of_pairwise (fun a b _ _ hab hba => absurd hba hab.asymm) hfirst hsecond

end Ascending

/-! ### Entries that are sorted at once -/

theorem lookup_eq_head?_filter (key : String) (entries : List (String × α)) :
    entries.lookup key = (entries.filter fun entry => entry.1 == key).head?.map Prod.snd := by
  induction entries with
  | nil => rfl
  | cons entry entries ih =>
      by_cases hkey : key = entry.1
      · simp [lookup_cons_eq_ite, hkey]
      · simp [lookup_cons_eq_ite, hkey, Ne.symm hkey, ih]

/-- Sorting does not touch the order of entries with one key. -/
theorem filter_sortEntries (key : String) (entries : List (String × α)) :
    (sortEntries entries).filter (fun entry => entry.1 == key) =
      entries.filter fun entry => entry.1 == key := by
  have hsorted : (entries.filter fun entry => entry.1 == key).Pairwise
      fun a b => inOrder a b = true := by
    refine List.pairwise_filter.mpr (List.pairwise_of_forall fun a b ha hb => ?_)
    rw [inOrder_iff, beq_iff_eq.mp ha, beq_iff_eq.mp hb]
    exact ByteLt.irrefl key
  have hsublist : (entries.filter fun entry => entry.1 == key).Sublist (sortEntries entries) :=
    List.sublist_mergeSort inOrder_trans inOrder_total hsorted List.filter_sublist
  have hperm : (sortEntries entries).Perm entries := List.mergeSort_perm entries inOrder
  have hfiltered := hsublist.filter fun entry => entry.1 == key
  rw [List.filter_filter] at hfiltered
  simp only [Bool.and_self] at hfiltered
  exact (hfiltered.eq_of_length (hperm.filter _).length_eq.symm).symm

theorem lookup_reverse_sortEntries (key : String) (entries : List (String × α)) :
    (sortEntries entries).reverse.lookup key = entries.reverse.lookup key := by
  rw [lookup_eq_head?_filter, lookup_eq_head?_filter, List.filter_reverse, List.filter_reverse,
    filter_sortEntries]

/-- Of entries in order, the last one with a key is the one that is kept. -/
theorem lookup_keepLast {entries : List (String × α)}
    (h : entries.Pairwise fun a b => inOrder a b = true) (key : String) :
    (keepLast entries).lookup key = entries.reverse.lookup key := by
  have hascending := ascending_keepLast h
  fun_induction keepLast entries with
  | case1 => rfl
  | case2 => rfl
  | case3 first next rest heq ih =>
      rw [ih h.of_cons hascending]
      -- the later neighbour hides the first entry
      by_cases hkey : key = next.1
      · simp [List.lookup_append, lookup_cons_eq_ite, hkey]
      · simp [List.lookup_append, lookup_cons_eq_ite, hkey, heq]
  | case4 first next rest hne ih =>
      obtain ⟨hfirst, hrest⟩ := List.pairwise_cons.mp h
      rw [lookup_cons_eq_ite, List.reverse_cons, List.lookup_append, ← ih hrest hascending.of_cons]
      by_cases hkey : key = first.1
      · -- all keys that follow are larger than the first one
        have hfresh : (keepLast (next :: rest)).lookup first.1 = none := by
          rw [List.lookup_eq_none_iff]
          intro entry hmem
          exact bne_iff_ne.mpr ((List.pairwise_cons.mp hascending).1 entry hmem).ne
        simp [lookup_cons_eq_ite, hkey, hfresh]
      · simp [lookup_cons_eq_ite, hkey]

/-! ### Tables -/

namespace Table

variable (table : Table α)

theorem ext_entries {a b : Table α} (h : a.entries = b.entries) : a = b := by
  cases a
  cases b
  congr

@[simp] theorem get?_insert_self (key : String) (value : α) :
    (table.insert key value).get? key = some value :=
  lookup_insertEntry_self key value table.entries

theorem get?_insert_of_ne {key other : String} (h : other ≠ key) (value : α) :
    (table.insert key value).get? other = table.get? other :=
  lookup_insertEntry_of_ne h value table.entries

theorem insert_insert (key : String) (value newer : α) :
    (table.insert key value).insert key newer = table.insert key newer :=
  ext_entries (insertEntry_insertEntry key value newer table.entries)

/-- Tables are determined by what is found in them. -/
theorem ext_get? {a b : Table α} (h : ∀ key, a.get? key = b.get? key) : a = b :=
  ext_entries (a.ascending.eq_of_lookup b.ascending h)

theorem insert_comm {key other : String} (h : key ≠ other) (value newer : α) :
    (table.insert key value).insert other newer = (table.insert other newer).insert key value := by
  apply ext_get?
  intro name
  by_cases hkey : name = key
  · subst hkey
    rw [get?_insert_of_ne _ h, get?_insert_self, get?_insert_self]
  · rw [get?_insert_of_ne _ hkey]
    by_cases hother : name = other
    · subst hother
      rw [get?_insert_self, get?_insert_self]
    · rw [get?_insert_of_ne _ hother, get?_insert_of_ne _ hkey, get?_insert_of_ne _ hother]

theorem get?_foldl_insert (entries : List (String × α)) (table : Table α) (key : String) :
    (entries.foldl (fun table entry => table.insert entry.1 entry.2) table).get? key =
      (entries.reverse.lookup key).or (table.get? key) := by
  induction entries generalizing table with
  | nil => rfl
  | cons entry entries ih =>
      rw [List.foldl_cons, ih, List.reverse_cons, List.lookup_append, Option.or_assoc]
      by_cases hkey : key = entry.1
      · simp [lookup_cons_eq_ite, hkey]
      · simp [lookup_cons_eq_ite, hkey, get?_insert_of_ne _ hkey]

/-- The last of the entries with a key is the one that stays. -/
theorem get?_ofList (entries : List (String × α)) (key : String) :
    (ofList entries).get? key = entries.reverse.lookup key := by
  rw [ofList, get?_foldl_insert]
  exact Option.or_none

/-- Sorting all entries at once and storing them one after the other come to the same map. -/
theorem collect_eq_ofList (entries : List (String × α)) : collect entries = ofList entries := by
  refine ext_get? fun key => ?_
  calc (collect entries).get? key
      = (sortEntries entries).reverse.lookup key :=
        lookup_keepLast (pairwise_sortEntries entries) key
    _ = entries.reverse.lookup key := lookup_reverse_sortEntries key entries
    _ = (ofList entries).get? key := (get?_ofList entries key).symm

theorem pairwise_keys : table.keys.Pairwise ByteLt :=
  List.pairwise_map.mpr table.ascending

theorem mem_keys_iff {key : String} : key ∈ table.keys ↔ ∃ value, table.get? key = some value := by
  rw [keys, ← isSome_lookup_iff, Option.isSome_iff_exists]
  rfl

theorem get?_of_mem {entry : String × α} (h : entry ∈ table.entries) :
    table.get? entry.1 = some entry.2 :=
  table.ascending.mem_iff_lookup.mp h

theorem size_eq_zero_iff : table.size = 0 ↔ ∀ key value, table.get? key ≠ some value := by
  have hkeys : table.size = table.keys.length := (List.length_map Prod.fst).symm
  rw [hkeys, List.length_eq_zero_iff, List.eq_nil_iff_forall_not_mem]
  simp only [mem_keys_iff, not_exists, ne_eq]

/-- Keys are not repeated, so there are as many as entries. -/
theorem size_eq_ncard : table.size = {key | ∃ value, table.get? key = some value}.ncard := by
  have hkeys : {key | ∃ value, table.get? key = some value} = (table.keys.toFinset : Set String) := by
    ext key
    simp [← mem_keys_iff]
  have hnodup : table.keys.Nodup := table.pairwise_keys.imp ByteLt.ne
  rw [hkeys, Set.ncard_coe_finset, List.toFinset_card_of_nodup hnodup, keys, List.length_map, size]

end Table

end FabricConfig

import FabricConfig.Text.ByteOrder

/-! Finite maps from strings, kept as lists of entries in the byte order of their keys. -/

namespace FabricConfig

open Text (ByteLt)

/-- Stores a value under a key in a list of entries in byte order; an older value is replaced. -/
def insertEntry {α : Type} (key : String) (value : α) :
    List (String × α) → List (String × α)
  | [] => [(key, value)]
  | (k, v) :: rest =>
    if key = k then (key, value) :: rest
    else if ByteLt key k then (key, value) :: (k, v) :: rest
    else (k, v) :: insertEntry key value rest

/-- The keys ascend in byte order. -/
def Ascending {α : Type} (entries : List (String × α)) : Prop :=
  entries.Pairwise fun a b => ByteLt a.1 b.1

theorem mem_insertEntry {α : Type} {key : String} {value : α} {entries : List (String × α)}
    {entry : String × α} (h : entry ∈ insertEntry key value entries) :
    entry = (key, value) ∨ entry ∈ entries := by
  induction entries with
  | nil => simpa [insertEntry] using h
  | cons head rest ih =>
    obtain ⟨k, v⟩ := head
    unfold insertEntry at h
    split at h
    · rcases List.mem_cons.1 h with h | h
      · exact .inl h
      · exact .inr (List.mem_cons_of_mem _ h)
    · split at h
      · exact List.mem_cons.1 h
      · rcases List.mem_cons.1 h with h | h
        · exact .inr (h ▸ List.mem_cons_self)
        · exact (ih h).imp id (List.mem_cons_of_mem _)

theorem ascending_insertEntry {α : Type} (key : String) (value : α)
    {entries : List (String × α)} (h : Ascending entries) :
    Ascending (insertEntry key value entries) := by
  induction entries with
  | nil => simp [insertEntry, Ascending]
  | cons head rest ih =>
    obtain ⟨k, v⟩ := head
    obtain ⟨hhead, hrest⟩ := List.pairwise_cons.1 h
    unfold insertEntry
    split
    · next heq => exact List.pairwise_cons.2 ⟨heq ▸ hhead, hrest⟩
    · next hne =>
      split
      · next hlt =>
        refine List.pairwise_cons.2 ⟨?_, h⟩
        intro entry hmem
        rcases List.mem_cons.1 hmem with rfl | hmem
        · exact hlt
        · exact hlt.trans (hhead entry hmem)
      · next hnlt =>
        refine List.pairwise_cons.2 ⟨?_, ih hrest⟩
        intro entry hmem
        rcases mem_insertEntry hmem with rfl | hmem
        · exact ByteLt.of_not_lt hne hnlt
        · exact hhead entry hmem

/-- Whether an entry may stand before another one. -/
def inOrder {α : Type} (a b : String × α) : Bool :=
  !decide (ByteLt b.1 a.1)

/-- Entries in the byte order of their keys. Those with one key stay in their order. -/
def sortEntries {α : Type} (entries : List (String × α)) : List (String × α) :=
  entries.mergeSort inOrder

/-- Of neighbours with one key, only the last one. -/
def keepLast {α : Type} : List (String × α) → List (String × α)
  | [] => []
  | [entry] => [entry]
  | entry :: next :: rest =>
    if entry.1 = next.1 then keepLast (next :: rest) else entry :: keepLast (next :: rest)

@[simp]
theorem inOrder_iff {α : Type} {a b : String × α} : inOrder a b = true ↔ ¬ ByteLt b.1 a.1 := by
  simp [inOrder]

theorem inOrder_trans {α : Type} (a b c : String × α) (hab : inOrder a b = true)
    (hbc : inOrder b c = true) : inOrder a c = true :=
  inOrder_iff.2 (ByteLt.not_lt_trans (inOrder_iff.1 hab) (inOrder_iff.1 hbc))

theorem inOrder_total {α : Type} (a b : String × α) : (inOrder a b || inOrder b a) = true := by
  have hasymm : ByteLt b.1 a.1 → ¬ ByteLt a.1 b.1 := fun h h' => ByteLt.irrefl _ (h.trans h')
  simpa [Decidable.imp_iff_not_or] using hasymm

theorem pairwise_sortEntries {α : Type} (entries : List (String × α)) :
    (sortEntries entries).Pairwise fun a b => inOrder a b = true :=
  List.pairwise_mergeSort inOrder_trans inOrder_total entries

theorem mem_of_mem_keepLast {α : Type} {entries : List (String × α)} {entry : String × α}
    (h : entry ∈ keepLast entries) : entry ∈ entries := by
  fun_induction keepLast entries with
  | case1 => exact h
  | case2 => exact h
  | case3 first next rest heq ih => exact List.mem_cons_of_mem _ (ih h)
  | case4 first next rest hne ih =>
    rcases List.mem_cons.1 h with rfl | h
    · exact List.mem_cons_self
    · exact List.mem_cons_of_mem _ (ih h)

theorem ascending_keepLast {α : Type} {entries : List (String × α)}
    (h : entries.Pairwise fun a b => inOrder a b = true) : Ascending (keepLast entries) := by
  fun_induction keepLast entries with
  | case1 => exact .nil
  | case2 entry => exact List.pairwise_singleton _ entry
  | case3 first next rest heq ih => exact ih h.of_cons
  | case4 first next rest hne ih =>
    refine List.pairwise_cons.2 ⟨?_, ih h.of_cons⟩
    intro entry hmem
    obtain ⟨hfirst, hrest⟩ := List.pairwise_cons.1 h
    have hnext : ByteLt first.1 next.1 :=
      ByteLt.of_not_lt (Ne.symm hne) (inOrder_iff.1 (hfirst next List.mem_cons_self))
    rcases List.mem_cons.1 (mem_of_mem_keepLast hmem) with rfl | hmem
    · exact hnext
    · exact hnext.trans_not_lt (inOrder_iff.1 ((List.pairwise_cons.1 hrest).1 entry hmem))

/-- A finite map from strings. -/
structure Table (α : Type) where
  entries : List (String × α)
  ascending : Ascending entries

namespace Table

variable {α : Type}

/-- The map without entries. -/
def empty : Table α :=
  ⟨[], .nil⟩

instance : Inhabited (Table α) := ⟨empty⟩

/-- Stores a value under a key; an older value is replaced. -/
def insert (table : Table α) (key : String) (value : α) : Table α :=
  ⟨insertEntry key value table.entries, ascending_insertEntry key value table.ascending⟩

/-- The value stored under a key. -/
def get? (table : Table α) (key : String) : Option α :=
  table.entries.lookup key

/-- The keys in byte order. -/
def keys (table : Table α) : List String :=
  table.entries.map Prod.fst

/-- The number of keys. -/
def size (table : Table α) : Nat :=
  table.entries.length

/-- Stores all entries of a list one after the other, so that the last of several under one key
stays. -/
def ofList (entries : List (String × α)) : Table α :=
  entries.foldl (fun table entry => table.insert entry.1 entry.2) empty

/-- Builds a map from all entries at once: they are sorted by their keys, and of those with one key
the last one stays. -/
def collect (entries : List (String × α)) : Table α :=
  ⟨keepLast (sortEntries entries), ascending_keepLast (pairwise_sortEntries entries)⟩

end Table

end FabricConfig

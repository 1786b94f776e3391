import FabricConfig.Command.FileSystem
import FabricConfig.Proofs.Table
import Mathlib.Tactic.SplitIfs

/-! Paths of the file system, and where they lead after a change. If a file is put in the place of a
file, all paths lead where they led before. If a file is made where there was none, this file is the
only new place that a path can lead to. -/

namespace FabricConfig

namespace FileSystem

variable {system : FileSystem} {id : Nat} {making : Bool}

/-! ### Nodes -/

theorem file?_eq_some_iff {file : File} :
    system.file? id = some file ↔ system.nodes[id]? = some (.file file) := by
  unfold file?
  cases system.nodes[id]? with
  | none => simp
  | some node => cases node <;> simp [Node.file?]

theorem lt_of_getElem? {node : Node} (h : system.nodes[id]? = some node) :
    id < system.nodes.length :=
  (List.getElem?_eq_some_iff.mp h).1

/-- Numbers in a directory are numbers of nodes. -/
theorem lt_of_get? {directory : Directory} (h : system.directory? id = some directory)
    {name : String} {next : Nat} (hnext : directory.entries.get? name = some next) :
    next < system.nodes.length := by
  have hentry : (name, next) ∈ directory.entries.entries :=
    directory.entries.ascending.mem_iff_lookup.mpr hnext
  exact system.closed _ (List.mem_of_getElem? (directory?_eq_some_iff.mp h)) next
    (List.mem_cons_of_mem _ (List.mem_map_of_mem hentry))

theorem parent_lt {directory : Directory} (h : system.directory? id = some directory) :
    directory.parent < system.nodes.length :=
  system.closed _ (List.mem_of_getElem? (directory?_eq_some_iff.mp h)) _ List.mem_cons_self

section

variable {file old : File} (hold : system.file? id = some old)
include hold

/-- What is known of nodes that are no files does not change. -/
theorem bind_overwrite {β : Type} (f : Node → Option β) (hf : ∀ file, f (.file file) = none)
    (other : Nat) :
    (system.overwrite id file).nodes[other]?.bind f = system.nodes[other]?.bind f := by
  have hnode := file?_eq_some_iff.mp hold
  by_cases hne : id = other
  · subst hne
    simp only [overwrite, List.getElem?_set_self (lt_of_getElem? hnode), hnode, Option.bind_some, hf]
  · simp only [overwrite, List.getElem?_set_ne hne]

theorem directory?_overwrite (other : Nat) :
    (system.overwrite id file).directory? other = system.directory? other :=
  bind_overwrite hold _ (fun _ => rfl) other

theorem link?_overwrite (other : Nat) :
    (system.overwrite id file).link? other = system.link? other :=
  bind_overwrite hold _ (fun _ => rfl) other

theorem file?_overwrite (other : Nat) :
    (system.overwrite id file).file? other =
      if other = id then some file else system.file? other := by
  have hlt := lt_of_getElem? (file?_eq_some_iff.mp hold)
  by_cases hne : other = id
  · subst hne
    simp [file?, overwrite, hlt, Node.file?]
  · simp [file?, overwrite, hne, Ne.symm hne]

end

section

variable {directory : Directory} (h : system.directory? id = some directory) (name : String)
  (file : File)

theorem bind_create {β : Type} (f : Node → Option β) {other : Nat}
    (hdirectory : other = id → ∀ directory, f (.directory directory) = none)
    (hfile : other = system.nodes.length → f (.file file) = none) :
    (system.create id directory h name file).nodes[other]?.bind f =
      system.nodes[other]?.bind f := by
  have hnode := directory?_eq_some_iff.mp h
  have hlt := lt_of_getElem? hnode
  simp only [create]
  rcases Nat.lt_trichotomy other system.nodes.length with hother | hother | hother
  · rw [List.getElem?_append_left (by simpa using hother)]
    by_cases hne : other = id
    · subst hne
      simp only [List.getElem?_set_self hlt, hnode, Option.bind_some, hdirectory rfl]
    · rw [List.getElem?_set_ne (Ne.symm hne)]
  · subst hother
    simp [hfile rfl]
  · rw [List.getElem?_eq_none (by simpa using hother), List.getElem?_eq_none (Nat.le_of_lt hother)]

theorem link?_create (other : Nat) :
    (system.create id directory h name file).link? other = system.link? other :=
  bind_create h name file _ (fun _ _ => rfl) fun _ => rfl

theorem directory?_create (other : Nat) :
    (system.create id directory h name file).directory? other =
      if other = id then
        some { directory with entries := directory.entries.insert name system.nodes.length }
      else system.directory? other := by
  have hlt := lt_of_getElem? (directory?_eq_some_iff.mp h)
  by_cases hne : other = id
  · subst hne
    rw [if_pos rfl, directory?_eq_some_iff]
    simp only [create]
    rw [List.getElem?_append_left (by simpa using hlt), List.getElem?_set_self hlt]
  · rw [if_neg hne]
    exact bind_create h name file _ (fun heq => absurd heq hne) fun _ => rfl

theorem file?_create (other : Nat) :
    (system.create id directory h name file).file? other =
      if other = system.nodes.length then some file else system.file? other := by
  by_cases hne : other = system.nodes.length
  · subst hne
    rw [if_pos rfl, file?_eq_some_iff]
    simp [create]
  · rw [if_neg hne]
    exact bind_create h name file _ (fun _ _ => rfl) fun heq => absurd heq hne

end

end FileSystem

/-! ### Places -/

/-- A node of the file system, or a directory of it that has no entry of the name. -/
def Place.Within (system : FileSystem) : Place → Prop
  | .node id => id < system.nodes.length
  | .vacant id name => ∃ directory, system.directory? id = some directory ∧
      directory.entries.get? name = none

namespace FileSystem

variable {system : FileSystem} {making : Bool} {id next links : Nat} {part path : String}
  {parts rest : List String} {place : Place}

/-- What a step can lead to. -/
theorem hop_cases {result : Hop} (h : system.hop making id part rest = .ok result) :
    ∃ directory, system.directory? id = some directory ∧
      (result = .next id ∨ result = .next directory.parent ∨
        (result = .vacant ∧ directory.entries.get? part = none) ∨
        ∃ found, directory.entries.get? part = some found ∧
          (result = .next found ∨ ∃ target, result = .link target)) := by
  unfold hop at h
  split at h
  · contradiction
  · next directory hdirectory =>
    refine ⟨directory, hdirectory, ?_⟩
    split at h
    · contradiction
    · exact .inl (Except.ok.inj h).symm
    · exact .inr (.inl (Except.ok.inj h).symm)
    · split at h
      · next hnone =>
        split at h
        · exact .inr (.inr (.inl ⟨(Except.ok.inj h).symm, hnone⟩))
        · contradiction
      · next found hfound =>
        refine .inr (.inr (.inr ⟨found, hfound, ?_⟩))
        split at h
        · exact .inl (Except.ok.inj h).symm
        · exact .inr ⟨_, (Except.ok.inj h).symm⟩

theorem hop_next_lt (hid : id < system.nodes.length)
    (h : system.hop making id part rest = .ok (.next next)) : next < system.nodes.length := by
  obtain ⟨directory, hdirectory, h | h | ⟨h, -⟩ | ⟨found, hfound, h | ⟨_, h⟩⟩⟩ := hop_cases h
  · cases h
    exact hid
  · cases h
    exact parent_lt hdirectory
  · cases h
  · cases h
    exact lt_of_get? hdirectory hfound
  · cases h

theorem within_of_hop_vacant (h : system.hop making id part rest = .ok .vacant) :
    (Place.vacant id part).Within system := by
  obtain ⟨directory, hdirectory, h | h | ⟨-, hnone⟩ | ⟨_, -, h | ⟨_, h⟩⟩⟩ := hop_cases h
  · cases h
  · cases h
  · exact ⟨directory, hdirectory, hnone⟩
  · cases h
  · cases h

/-- A path that starts at a node stays within the file system. -/
theorem within_of_descend {leg : Leg} (hid : id < system.nodes.length)
    (h : system.descend making id parts = .ok leg) :
    (∀ place, leg = .arrived place → place.Within system) ∧
      ∀ directory target rest, leg = .link directory target rest →
        directory < system.nodes.length := by
  induction parts generalizing id with
  | nil =>
      cases h
      exact ⟨by rintro _ ⟨⟩; exact hid, by rintro _ _ _ ⟨⟩⟩
  | cons part rest ih =>
      unfold descend at h
      split at h
      · contradiction
      · next next hnext => exact ih (hop_next_lt hid hnext) h
      · next hvacant =>
        cases h
        exact ⟨by rintro _ ⟨⟩; exact within_of_hop_vacant hvacant, by rintro _ _ _ ⟨⟩⟩
      · next target hlink =>
        cases h
        exact ⟨by rintro _ ⟨⟩, by rintro _ _ _ ⟨⟩; exact hid⟩

theorem start_lt (hid : id < system.nodes.length) (path : String) :
    start id path < system.nodes.length := by
  unfold start
  split
  · exact Nat.zero_lt_of_lt hid
  · exact hid

theorem within_of_walk (hid : id < system.nodes.length)
    (h : system.walk making links id path rest = .ok place) : place.Within system := by
  fun_induction walk system making links id path rest with
  | case1 => contradiction
  | case2 => contradiction
  | case3 links id path rest hpath found hdescend =>
      cases h
      exact (within_of_descend (start_lt hid path) hdescend).1 _ rfl
  | case4 => contradiction
  | case5 id path rest hpath directory target remaining links hdescend ih =>
      exact ih ((within_of_descend (start_lt hid path) hdescend).2 _ _ _ rfl) h

theorem within_of_follow (h : system.follow making path = .ok place) : place.Within system := by
  unfold follow at h
  split at h
  · contradiction
  · split at h
    · contradiction
    · exact within_of_walk system.working_lt h

/-! ### Following without making -/

theorem motion_of_making {access : Access} {motion : Path.Motion}
    (h : Path.motion access true part rest = .ok motion) :
    Path.motion access false part rest = .ok motion := by
  unfold Path.motion at h ⊢
  split_ifs at h ⊢ <;> simp_all

theorem hop_of_making {result : Hop} (h : system.hop true id part rest = .ok result) :
    system.hop false id part rest = .ok result := by
  unfold hop at h ⊢
  cases hdirectory : system.directory? id with
  | none => simp [hdirectory] at h
  | some directory =>
      simp only [hdirectory] at h ⊢
      cases hmotion : Path.motion directory.access true part rest with
      | error fault => simp [hmotion] at h
      | ok motion =>
          rw [hmotion] at h
          rw [motion_of_making hmotion]
          exact h

theorem descend_of_making {leg : Leg} (h : system.descend true id parts = .ok leg) :
    system.descend false id parts = .ok leg := by
  induction parts generalizing id with
  | nil => exact h
  | cons part rest ih =>
      unfold descend at h ⊢
      cases hhop : system.hop true id part rest with
      | error fault => simp [hhop] at h
      | ok result =>
          rw [hhop] at h
          rw [hop_of_making hhop]
          cases result with
          | next next => exact ih h
          | vacant => exact h
          | link target => exact h

theorem walk_of_arrived (hpath : path ≠ "")
    (h : system.descend making (start id path) (Path.parts path ++ rest) = .ok (.arrived place)) :
    system.walk making links id path rest = .ok place := by
  unfold walk
  rw [if_neg hpath, h]

theorem walk_of_link (hpath : path ≠ "") {directory : Nat} {target : String}
    {remaining : List String}
    (h : system.descend making (start id path) (Path.parts path ++ rest) =
      .ok (.link directory target remaining)) :
    system.walk making (links + 1) id path rest =
      system.walk making links directory target remaining := by
  conv_lhs => unfold walk
  rw [if_neg hpath, h]

theorem walk_of_making (h : system.walk true links id path rest = .ok place) :
    system.walk false links id path rest = .ok place := by
  fun_induction walk system true links id path rest with
  | case1 => contradiction
  | case2 => contradiction
  | case3 links id path rest hpath found hdescend =>
      rw [walk_of_arrived hpath (descend_of_making hdescend)]
      exact h
  | case4 => contradiction
  | case5 id path rest hpath directory target remaining links hdescend ih =>
      rw [walk_of_link hpath (descend_of_making hdescend)]
      exact ih h

/-- Where a file may be made, a path leads anyway. -/
theorem follow_of_making (h : system.follow true path = .ok place) :
    system.follow false path = .ok place := by
  unfold follow at h ⊢
  split_ifs at h ⊢
  exact walk_of_making h

/-! ### After a file was overwritten -/

/-- Two file systems that differ in the content of files only. -/
structure SameTree (a b : FileSystem) : Prop where
  working_eq : b.working = a.working
  directory?_eq : ∀ id, b.directory? id = a.directory? id
  link?_eq : ∀ id, b.link? id = a.link? id

theorem sameTree_overwrite {old : File} (hold : system.file? id = some old) (file : File) :
    SameTree system (system.overwrite id file) :=
  ⟨rfl, directory?_overwrite hold, link?_overwrite hold⟩

namespace SameTree

variable {a b : FileSystem} (h : SameTree a b)
include h

theorem hop_eq (making : Bool) (id : Nat) (part : String) (rest : List String) :
    b.hop making id part rest = a.hop making id part rest := by
  simp only [hop, h.directory?_eq, h.link?_eq]

theorem descend_eq (making : Bool) (id : Nat) (parts : List String) :
    b.descend making id parts = a.descend making id parts := by
  induction parts generalizing id with
  | nil => rfl
  | cons part rest ih => simp only [descend, h.hop_eq, ih]

theorem walk_eq (making : Bool) (links id : Nat) (path : String) (rest : List String) :
    b.walk making links id path rest = a.walk making links id path rest := by
  unfold walk
  rw [h.descend_eq]
  rcases a.descend making (start id path) (Path.parts path ++ rest) with
    fault | place | ⟨directory, target, remaining⟩
  · rfl
  · rfl
  · cases links with
    | zero => rfl
    | succ links => simp only [walk_eq making links]

theorem follow_eq (making : Bool) (path : String) :
    b.follow making path = a.follow making path := by
  simp only [follow, h.walk_eq, h.working_eq]

end SameTree

/-! ### After a file was made -/

/-- Results before and after a file was made. Where it could be made before, it is there now. What
leads elsewhere has not changed, except that it may fail for another reason. -/
inductive Grown {α : Type} (vacant made : α) : Except FileFault α → Except FileFault α → Prop
  | same {result : Except FileFault α} (h : result ≠ .ok vacant) : Grown vacant made result result
  | made : Grown vacant made (.ok vacant) (.ok made)
  | fault {before after : FileFault} : Grown vacant made (.error before) (.error after)

theorem Grown.eq_made {α : Type} {vacant made : α} {after : Except FileFault α}
    (h : Grown vacant made (.ok vacant) after) : after = .ok made := by
  cases h with
  | same h => contradiction
  | made => rfl

theorem Grown.cases_of_ne {α : Type} {vacant made : α} {before after : Except FileFault α}
    (h : Grown vacant made before after) (hne : before ≠ .ok vacant) :
    (∃ fault fault', before = .error fault ∧ after = .error fault') ∨
      ∃ a, before = .ok a ∧ after = .ok a := by
  cases h with
  | same =>
      cases before with
      | error fault => exact .inl ⟨fault, fault, rfl, rfl⟩
      | ok a => exact .inr ⟨a, rfl, rfl⟩
  | made => contradiction
  | fault => exact .inl ⟨_, _, rfl, rfl⟩

section

variable {directory : Directory} (h : system.directory? id = some directory) {name : String}
  (hname : directory.entries.get? name = none) (file : File)

theorem hop_create_of_ne {other : Nat} (hne : ¬ (other = id ∧ part = name)) (making : Bool)
    (rest : List String) :
    (system.create id directory h name file).hop making other part rest =
      system.hop making other part rest := by
  unfold hop
  rw [directory?_create]
  by_cases hother : other = id
  · subst hother
    have hpart : part ≠ name := fun hpart => hne ⟨rfl, hpart⟩
    simp only [if_true, h, link?_create, Table.get?_insert_of_ne _ hpart]
  · simp only [hother, if_false, link?_create]

include hname in
/-- The new name led nowhere before, and leads to the new file now. -/
theorem hop_create_self (making : Bool) (rest : List String) :
    (∃ result, result ≠ .ok .vacant ∧ system.hop making id name rest = result ∧
        (system.create id directory h name file).hop making id name rest = result) ∨
      (system.create id directory h name file).hop making id name rest =
          .ok (.next system.nodes.length) ∧
        (rest = [] ∧ system.hop making id name rest = .ok .vacant ∨
          rest ≠ [] ∧ system.hop making id name rest = .error .notFound) := by
  have hlink : system.link? system.nodes.length = none := by simp [link?]
  unfold hop
  simp only [directory?_create, if_true, h, hname, link?_create, Table.get?_insert_self, hlink]
  cases Path.motion directory.access making name rest with
  | error fault => exact .inl ⟨_, by simp, rfl, rfl⟩
  | ok motion =>
      cases motion with
      | stay => exact .inl ⟨_, by simp, rfl, rfl⟩
      | up => exact .inl ⟨_, by simp, rfl, rfl⟩
      | down => cases rest <;> simp

/-- Nothing can be in a file. -/
theorem descend_create_length {rest : List String} (hrest : rest ≠ []) (making : Bool) :
    (system.create id directory h name file).descend making system.nodes.length rest =
      .error .notADirectory := by
  have hlt := lt_of_getElem? (directory?_eq_some_iff.mp h)
  have hnone : (system.create id directory h name file).directory? system.nodes.length = none := by
    rw [directory?_create, if_neg hlt.ne']
    simp [directory?]
  cases rest with
  | nil => contradiction
  | cons part rest => simp only [descend, hop, hnone]

include hname in
theorem grown_descend (making : Bool) (first : Nat) (parts : List String) :
    Grown (.arrived (.vacant id name)) (.arrived (.node system.nodes.length))
      (system.descend making first parts)
      ((system.create id directory h name file).descend making first parts) := by
  induction parts generalizing first with
  | nil => exact .same (by simp [descend])
  | cons part rest ih =>
      unfold descend
      -- no other step than the one to the new name leads elsewhere now
      by_cases hpart : first = id ∧ part = name
      · obtain ⟨rfl, rfl⟩ := hpart
        rcases hop_create_self h hname file making rest with
          ⟨result, hne, hbefore, hafter⟩ | ⟨hafter, ⟨rfl, hbefore⟩ | ⟨hrest, hbefore⟩⟩
        · rw [hbefore, hafter]
          rcases result with fault | next | _ | target
          · exact .same (by simp)
          · exact ih next
          · contradiction
          · exact .same (by simp)
        · rw [hbefore, hafter]
          exact .made
        · rw [hbefore, hafter]
          simp only [descend_create_length h file hrest]
          exact .fault
      · rw [hop_create_of_ne h file hpart]
        rcases system.hop making first part rest with fault | next | _ | target
        · exact .same (by simp)
        · exact ih next
        · exact .same (by simpa using hpart)
        · exact .same (by simp)

include hname in
theorem grown_walk (making : Bool) (links first : Nat) (path : String) (rest : List String) :
    Grown (.vacant id name) (.node system.nodes.length)
      (system.walk making links first path rest)
      ((system.create id directory h name file).walk making links first path rest) := by
  have hleg := grown_descend h hname file making (start first path) (Path.parts path ++ rest)
  unfold walk
  split
  · exact .same (by simp)
  revert hleg
  generalize system.descend making (start first path) (Path.parts path ++ rest) = before
  generalize (system.create id directory h name file).descend making (start first path)
    (Path.parts path ++ rest) = after
  rintro (hne | _ | _)
  -- the first leg is the same, and the induction is on the links that are left after it
  · rcases before with fault | place | ⟨next, target, remaining⟩
    · exact .same (by simp)
    · exact .same (by simpa using hne)
    · cases links with
      | zero => exact .same (by simp)
      | succ links => exact grown_walk making links next target remaining
  · exact .made
  · exact .fault

include hname in
theorem grown_follow (making : Bool) (path : String) :
    Grown (.vacant id name) (.node system.nodes.length) (system.follow making path)
      ((system.create id directory h name file).follow making path) := by
  unfold follow
  split
  · exact .same (by simp)
  · split
    · exact .same (by simp)
    · exact grown_walk h hname file making _ _ path []

end

end FileSystem

end FabricConfig

import FabricConfig.Proofs.Json.Denotation

/-! Members that are null and members that are left out. A field that may be left out is left as it
is by a null, so that a null member can be put anywhere into an object without a change to what is
read from it, at any depth. -/

namespace FabricConfig.Json

/-- A tree has one member more than another, in the object that the keys of a path lead to. No other
member of that object has its key. -/
inductive Document.Inserts (key : String) (value : Document) :
    List String → Document → Document → Prop where
  | here {before after : List (Option String × Document)}
      (hnew : some key ∉ (before ++ after).map Prod.fst) :
      Inserts key value [] (.object (before ++ after) .closed)
        (.object (before ++ (some key, value) :: after) .closed)
  | inside {name : String} {path : List String} {d d' : Document}
      {before after : List (Option String × Document)} (h : Inserts key value path d d') :
      Inserts key value (name :: path) (.object (before ++ (some name, d) :: after) .closed)
        (.object (before ++ (some name, d') :: after) .closed)

/-- A decoder reads the same if null members with certain keys are put in at certain paths. -/
def Decoder.IgnoresNull {α : Type} (decoder : Decoder α) (keys : List String → List String) :
    Prop :=
  ∀ path key d d', key ∈ keys path → Document.Inserts key .null path d d' →
    ∀ a, decoder d = .ok a → decoder d' = .ok a

/-- Neither tree is null. -/
theorem Decoder.IgnoresNull.optional {α : Type} {decoder : Decoder α}
    {keys : List String → List String} (h : decoder.IgnoresNull keys) :
    (Decoder.optional decoder).IgnoresNull keys := by
  intro path key d d' hkey hinserts result hread
  have hdecode := h path key d d' hkey hinserts
  cases readAs_of_optional hread with
  | null => cases hinserts
  | given _ hd =>
      have hd' := hdecode _ hd
      cases hinserts <;> simp only [Decoder.optional, hd'] <;> rfl

namespace Record

variable {α : Type} {record : Record α} {other : String → Document → α → Except DecodeError α}
  {members before after : List (Option String × Document)} {seen seen' more : List String} {a b : α}

/-- A field with a given key that null leaves alone. It is `unset` until a member with its key is
read. -/
structure Omits (record : Record α) (other : String → Document → α → Except DecodeError α)
    (key : String) (unset : α → Prop) : Prop where
  null : ∃ field, record.field? key = some field ∧ ∀ a, unset a → field.store .null a = .ok a
  store : ∀ field ∈ record.fields, field.key ≠ key →
    ∀ d a b, field.store d a = .ok b → unset a → unset b
  other : ∀ name d a b, other name d a = .ok b → unset a → unset b
  blank : unset record.blank

theorem omits_of_get {β : Type} {key : String} {field : Field α} (get : α → Option β)
    (hfield : record.field? key = some field)
    (hnull : ∀ a, get a = none → field.store .null a = .ok a)
    (hstore : ∀ field ∈ record.fields, field.key ≠ key →
      ∀ d a b, field.store d a = .ok b → get b = get a)
    (hother : ∀ name d a b, other name d a = .ok b → get b = get a)
    (hblank : get record.blank = none) : record.Omits other key (get · = none) where
  null := ⟨field, hfield, hnull⟩
  store field hfield hkey d a b hd ha := (hstore field hfield hkey d a b hd).trans ha
  other name d a b hd ha := (hother name d a b hd).trans ha
  blank := hblank

/-- Keys that no member has may have been seen before. -/
theorem readMembers_of_seen (hseen : seen ⊆ more)
    (hmore : ∀ name ∈ more, some name ∈ members.map Prod.fst → name ∈ seen)
    (h : record.readMembers other seen a members = .ok (seen', b)) :
    ∃ more', record.readMembers other more a members = .ok (more', b) ∧ seen' ⊆ more' := by
  induction members generalizing seen more a with
  | nil =>
      obtain ⟨rfl, rfl⟩ := Prod.mk.inj (Except.ok.inj h)
      exact ⟨more, rfl, hseen⟩
  | cons member members ih =>
      obtain ⟨key, d⟩ := member
      obtain ⟨name, rfl, ⟨field, hfield, hname, next, hnext, h⟩ | ⟨hfield, next, hnext, h⟩⟩ :=
        readMembers_cons_eq_ok_iff.mp h
      · have hnew : name ∉ more := fun hmem => hname (hmore name hmem List.mem_cons_self)
        have hrest : ∀ other ∈ name :: more, some other ∈ members.map Prod.fst →
            other ∈ name :: seen := by
          intro other hother hmember
          rcases List.mem_cons.mp hother with rfl | hother
          · exact List.mem_cons_self
          · exact List.mem_cons_of_mem _ (hmore other hother (List.mem_cons_of_mem _ hmember))
        obtain ⟨more', hread, hsub⟩ := ih (List.cons_subset_cons name hseen) hrest h
        exact ⟨more', readMembers_cons_eq_ok_iff.mpr
          ⟨name, rfl, .inl ⟨field, hfield, hnew, next, hnext, hread⟩⟩, hsub⟩
      · obtain ⟨more', hread, hsub⟩ := ih hseen
          (fun other hother hmember => hmore other hother (List.mem_cons_of_mem _ hmember)) h
        exact ⟨more', readMembers_cons_eq_ok_iff.mpr
          ⟨name, rfl, .inr ⟨hfield, next, hnext, hread⟩⟩, hsub⟩

/-- A field that no member is for stays unset. -/
theorem Omits.unset_of_readMembers {key : String} {unset : α → Prop}
    (h : record.Omits other key unset) (hnew : some key ∉ members.map Prod.fst) (ha : unset a)
    (hread : record.readMembers other seen a members = .ok (seen', b)) : unset b := by
  induction members generalizing seen a with
  | nil =>
      obtain ⟨-, rfl⟩ := Prod.mk.inj (Except.ok.inj hread)
      exact ha
  | cons member members ih =>
      obtain ⟨found, d⟩ := member
      obtain ⟨hne, hlater⟩ := not_or.mp (mt List.mem_cons.mpr hnew)
      obtain ⟨name, rfl, ⟨field, hfield, rfl, next, hnext, hrest⟩ | ⟨-, next, hnext, hrest⟩⟩ :=
        readMembers_cons_eq_ok hread
      · have hkey : field.key ≠ key := fun heq => hne (congrArg some heq.symm)
        exact ih hlater (h.store field hfield hkey d a next hnext ha) hrest
      · exact ih hlater (h.other name d a next hnext ha) hrest

/-- A null may be put between any two members. -/
theorem Omits.readMembers_insert {key : String} {unset : α → Prop}
    (h : record.Omits other key unset) (hnew : some key ∉ (before ++ after).map Prod.fst)
    (hseen : key ∉ seen) (ha : unset a)
    (hread : record.readMembers other seen a (before ++ after) = .ok (seen', b)) :
    ∃ more, record.readMembers other seen a (before ++ (some key, .null) :: after) =
      .ok (more, b) ∧ seen' ⊆ more := by
  rw [List.map_append, List.mem_append, not_or] at hnew
  rw [readMembers_append] at hread
  obtain ⟨⟨middle, next⟩, hbefore, hafter⟩ := bind_eq_ok_iff.mp hread
  obtain ⟨field, hfield, hnull⟩ := h.null
  have hunset : unset next := h.unset_of_readMembers hnew.1 ha hbefore
  have hmiddle : key ∉ middle := fun hmem =>
    (exists_mem_of_mem_seen hbefore hmem).elim hseen hnew.1
  have hlater : ∀ name ∈ key :: middle, some name ∈ after.map Prod.fst → name ∈ middle := by
    intro name hname hmember
    rcases List.mem_cons.mp hname with rfl | hname
    · exact absurd hmember hnew.2
    · exact hname
  obtain ⟨more, hmore, hsub⟩ :=
    readMembers_of_seen (List.subset_cons_self key middle) hlater hafter
  refine ⟨more, ?_, hsub⟩
  rw [readMembers_append, hbefore, ok_bind]
  exact (readMembers_field hfield hmiddle (hnull next hunset) after).trans hmore

theorem Omits.readObject_insert {key : String} {unset : α → Prop}
    (h : record.Omits other key unset) (hnew : some key ∉ (before ++ after).map Prod.fst)
    (hread : record.readObject other (before ++ after) .closed = .ok a) :
    record.readObject other (before ++ (some key, .null) :: after) .closed = .ok a := by
  obtain ⟨-, seen, hmembers, hmissing⟩ := readObject_eq_ok_iff.mp hread
  obtain ⟨more, hmore, hsub⟩ := h.readMembers_insert hnew List.not_mem_nil h.blank hmembers
  refine readObject_eq_ok_iff.mpr ⟨rfl, more, hmore, missing?_eq_none_iff.mpr ?_⟩
  exact fun field hfield hrequired => hsub (missing?_eq_none_iff.mp hmissing field hfield hrequired)

/-- A member may be replaced by one that its field makes the same of. -/
theorem readMembers_replace {name : String} {d d' : Document} {field : Field α}
    (hfield : record.field? name = some field)
    (hstore : ∀ a b, field.store d a = .ok b → field.store d' a = .ok b) {r : List String × α}
    (h : record.readMembers other seen a (before ++ (some name, d) :: after) = .ok r) :
    record.readMembers other seen a (before ++ (some name, d') :: after) = .ok r := by
  induction before generalizing seen a with
  | nil =>
      obtain ⟨_, hname, ⟨found, hfound, hnew, next, hnext, hrest⟩ | ⟨hnone, -⟩⟩ :=
        readMembers_cons_eq_ok_iff.mp h
      · obtain rfl := Option.some.inj hname
        obtain rfl := Option.some.inj (hfield.symm.trans hfound)
        exact readMembers_cons_eq_ok_iff.mpr
          ⟨name, rfl, .inl ⟨field, hfield, hnew, next, hstore a next hnext, hrest⟩⟩
      · obtain rfl := Option.some.inj hname
        rw [hfield] at hnone
        contradiction
  | cons member before ih =>
      obtain ⟨found, e⟩ := member
      obtain ⟨other, rfl, ⟨field, hfield, hnew, next, hnext, hrest⟩ |
        ⟨hnone, next, hnext, hrest⟩⟩ := readMembers_cons_eq_ok_iff.mp h
      · exact readMembers_cons_eq_ok_iff.mpr
          ⟨other, rfl, .inl ⟨field, hfield, hnew, next, hnext, ih hrest⟩⟩
      · exact readMembers_cons_eq_ok_iff.mpr ⟨other, rfl, .inr ⟨hnone, next, hnext, ih hrest⟩⟩

/-- Null members are ignored by a record if its fields can be left out and are themselves read by
decoders that ignore null members. -/
theorem ignoresNull {decoder : Decoder α} {keys : List String → List String}
    (hdecoder : ∀ members, decoder (.object members .closed) =
      record.readObject other members .closed)
    (htop : ∀ key ∈ keys [], ∃ unset, record.Omits other key unset)
    (hinner : ∀ name path, keys (name :: path) ≠ [] → ∃ field, record.field? name = some field ∧
      ∀ key ∈ keys (name :: path), ∀ d d', Document.Inserts key .null path d d' →
        ∀ a b, field.store d a = .ok b → field.store d' a = .ok b) :
    decoder.IgnoresNull keys := by
  intro path key d d' hkey hinserts a hread
  cases hinserts with
  | here hnew =>
      obtain ⟨unset, homits⟩ := htop key hkey
      rw [hdecoder] at hread ⊢
      exact homits.readObject_insert hnew hread
  | @inside name path d d' before after hinserts =>
      obtain ⟨field, hfield, hstore⟩ := hinner name path (List.ne_nil_of_mem hkey)
      rw [hdecoder] at hread ⊢
      obtain ⟨-, seen, hmembers, hmissing⟩ := readObject_eq_ok_iff.mp hread
      have hreplaced := readMembers_replace hfield (hstore key hkey d d' hinserts) hmembers
      exact readObject_eq_ok_iff.mpr ⟨rfl, seen, hreplaced, hmissing⟩

end Record

end FabricConfig.Json

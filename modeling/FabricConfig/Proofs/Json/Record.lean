import FabricConfig.Json.Record
import FabricConfig.Proofs.Json.Tree
import FabricConfig.Proofs.Named
import Mathlib.Data.List.Forall2

/-! Laws of decoders of tables and records: what one member does to a record, and what all members
together leave true of it. -/

namespace FabricConfig.Json

theorem content_eq_ok_iff {key : Option String} {name : String} :
    content key = .ok name ↔ key = some name := by
  cases key with
  | none => simp [content, unreadable]
  | some s => simp [content]

theorem Stop.eq_closed_of_check {stop : Stop} {done : Unit} (h : stop.check = .ok done) :
    stop = .closed := by
  cases stop with
  | closed => rfl
  | unseparated found => contradiction
  | noKey found => contradiction

namespace Decoder

theorem optional_document {α : Type} {decoder : Decoder α} {value : Json} {a : α}
    (hnull : value ≠ .null) (h : decoder value.document = .ok a) :
    optional decoder value.document = .ok (some a) := by
  have hsome : some <$> decoder value.document = .ok (some a) := by
    rw [h]
    rfl
  cases value with
  | null => exact absurd rfl hnull
  | _ => exact hsome

theorem named_name {α : Type} [Named α] [LawfulNamed α] (origin : Origin) (a : α) :
    (named origin : Decoder α) (Json.name a).document = .ok a := by
  cases origin <;> simp [Json.name, document, named, content, variant]

theorem tableMembers_memberDocuments {α : Type} {decoder : Decoder α} {toJson : α → Json}
    (h : ∀ a, decoder (toJson a).document = .ok a) (entries : List (String × α)) (table : Table α) :
    tableMembers decoder table
        (memberDocuments (entries.map fun entry => (entry.1, toJson entry.2))) =
      .ok (entries.foldl (fun table entry => table.insert entry.1 entry.2) table) := by
  induction entries generalizing table with
  | nil => rfl
  | cons entry entries ih =>
      simp only [List.map_cons, memberDocuments, tableMembers, content, ok_bind, h, ih,
        List.foldl_cons]

/-- The members of an object are stored one after the other. -/
theorem table_document {α : Type} {decoder : Decoder α} {toJson : α → Json}
    (h : ∀ a, decoder (toJson a).document = .ok a) (entries : List (String × α)) :
    table decoder (object (entries.map fun entry => (entry.1, toJson entry.2))).document =
      .ok (.ofList entries) := by
  simp only [document, table, tableMembers_memberDocuments h, ok_bind, Stop.check]
  rfl

/-- A member of an object is read as an entry of a table. -/
def IsEntry {α : Type} (decoder : Decoder α) (member : Option String × Document)
    (entry : String × α) : Prop :=
  member.1 = some entry.1 ∧ decoder member.2 = .ok entry.2

/-- A member is read as one entry only. -/
theorem isEntry_rightUnique {α : Type} (decoder : Decoder α) :
    Relator.RightUnique decoder.IsEntry := by
  rintro member ⟨name, a⟩ ⟨name', b⟩ ⟨hname, ha⟩ ⟨hname', hb⟩
  obtain rfl := Option.some.inj (hname.symm.trans hname')
  obtain rfl := Except.ok.inj (ha.symm.trans hb)
  rfl

/-- Every member is read as an entry, and the entries are stored in the order of the members. -/
theorem exists_entries_of_tableMembers {α : Type} {decoder : Decoder α}
    {members : List (Option String × Document)} {table after : Table α}
    (h : tableMembers decoder table members = .ok after) :
    ∃ entries, List.Forall₂ decoder.IsEntry members entries ∧
      after = entries.foldl (fun table entry => table.insert entry.1 entry.2) table := by
  induction members generalizing table with
  | nil => exact ⟨[], .nil, (Except.ok.inj h).symm⟩
  | cons member members ih =>
      rw [tableMembers] at h
      obtain ⟨key, hkey, h⟩ := bind_eq_ok_iff.mp h
      obtain ⟨a, ha, h⟩ := bind_eq_ok_iff.mp h
      obtain ⟨entries, hentries, rfl⟩ := ih h
      exact ⟨(key, a) :: entries, .cons ⟨content_eq_ok_iff.mp hkey, ha⟩ hentries, rfl⟩

/-- Every member of a table is one of its values. -/
theorem exists_of_tableMembers {α : Type} {decoder : Decoder α}
    {members : List (Option String × Document)} {table after : Table α}
    (h : tableMembers decoder table members = .ok after) :
    ∀ member ∈ members, ∃ a, decoder member.2 = .ok a := by
  obtain ⟨entries, hentries, -⟩ := exists_entries_of_tableMembers h
  have hread : List.Forall₂ (fun member entry => (∃ a, decoder member.2 = .ok a) ∧
      decoder.IsEntry member entry) members entries :=
    hentries.imp fun member entry hentry => ⟨⟨entry.2, hentry.2⟩, hentry⟩
  exact ((List.forall₂_and_left members entries).mp hread).1

/-- A table is only read from an object that is complete. -/
theorem exists_entries_of_table {α : Type} {decoder : Decoder α} {d : Document} {result : Table α}
    (h : table decoder d = .ok result) :
    ∃ members entries, d = .object members .closed ∧
      List.Forall₂ decoder.IsEntry members entries ∧ result = .ofList entries := by
  unfold table at h
  split at h
  · rename_i members stop
    obtain ⟨stored, hmembers, h⟩ := bind_eq_ok_iff.mp h
    obtain ⟨done, hstop, h⟩ := bind_eq_ok_iff.mp h
    obtain rfl := Except.ok.inj h
    obtain rfl := Stop.eq_closed_of_check hstop
    obtain ⟨entries, hentries, rfl⟩ := exists_entries_of_tableMembers hmembers
    exact ⟨members, entries, rfl, hentries, rfl⟩
  · obtain ⟨found, -, hmismatch⟩ := bind_eq_ok_iff.mp h
    contradiction

end Decoder

namespace Record

variable {α : Type} {record : Record α} {other : String → Document → α → Except DecodeError α}

theorem field?_eq_none_iff {key : String} :
    record.field? key = none ↔ key ∉ record.fields.map Field.key := by
  rw [field?, List.find?_eq_none]
  simp only [beq_iff_eq, List.mem_map, not_exists, not_and]

/-- A member that belongs to a field is stored in it. -/
theorem readMembers_field {field : Field α} {key : String} {d : Document} {seen : List String}
    {a b : α} (hfield : record.field? key = some field) (hseen : key ∉ seen)
    (hstore : field.store d a = .ok b) (rest : List (Option String × Document)) :
    record.readMembers other seen a ((some key, d) :: rest) =
      record.readMembers other (key :: seen) b rest := by
  simp [readMembers, content, hfield, hseen, hstore]

/-- A member that belongs to no field is left to `other`. -/
theorem readMembers_other {key : String} {d : Document} {seen : List String} {a b : α}
    (hkey : key ∉ record.fields.map Field.key) (hother : other key d a = .ok b)
    (rest : List (Option String × Document)) :
    record.readMembers other seen a ((some key, d) :: rest) =
      record.readMembers other seen b rest := by
  simp [readMembers, content, field?_eq_none_iff.mpr hkey, hother]

/-- Members are read one after the other. -/
theorem readMembers_append (first second : List (Option String × Document)) (seen : List String)
    (a : α) :
    record.readMembers other seen a (first ++ second) =
      record.readMembers other seen a first >>= fun (seen, a) =>
        record.readMembers other seen a second := by
  induction first generalizing seen a with
  | nil => rfl
  | cons member first ih =>
      obtain ⟨key, d⟩ := member
      cases key with
      | none => rfl
      | some name =>
          simp only [List.cons_append, readMembers, content, ok_bind]
          cases record.field? name with
          | none => cases other name d a <;> simp [ih]
          | some field =>
              by_cases hseen : name ∈ seen
              · simp [hseen]
              · cases hstore : field.store d a <;> simp [hseen, hstore, ih]

/-- Reading `members` turns the record `a` into `b`, provided that none of `keys` was seen before.
-/
def Stores (record : Record α) (other : String → Document → α → Except DecodeError α)
    (keys : List String) (members : List (String × Json)) (a b : α) : Prop :=
  ∀ seen, (∀ key ∈ keys, key ∉ seen) → ∀ rest, ∃ seen', seen' ⊆ keys ++ seen ∧
    record.readMembers other seen a (memberDocuments members ++ rest) =
      record.readMembers other seen' b rest

/-- A member that may be left out stores its value or leaves the record as it is. -/
theorem stores_optional {β : Type} {toJson : β → Json} {decoder : Decoder β} {key : String}
    {required : Bool} {set : Option β → α → α} {value : Option β} {a b : α}
    (hfield : record.field? key =
      some ⟨key, required, fun d a => return set (← Decoder.optional decoder d) a⟩)
    (hnone : set none a = a) (hset : set value a = b) (hnull : ∀ v, toJson v ≠ .null)
    (hdecode : ∀ v, decoder (toJson v).document = .ok v) :
    record.Stores other [key] (member? key toJson value) a b := by
  intro seen hseen rest
  cases value with
  | none =>
      rw [← hset, hnone]
      exact ⟨seen, List.subset_cons_self key seen, rfl⟩
  | some v =>
      have hkey : key ∉ seen := hseen key List.mem_cons_self
      refine ⟨key :: seen, List.Subset.refl _, readMembers_field hfield hkey ?_ rest⟩
      dsimp only
      rw [Decoder.optional_document (hnull v) (hdecode v), ← hset]
      rfl

theorem Stores.trans {keys keys' : List String} {members members' : List (String × Json)} {a b c : α}
    (h : record.Stores other keys members a b) (h' : record.Stores other keys' members' b c)
    (hkeys : ∀ key ∈ keys', key ∉ keys) :
    record.Stores other (keys ++ keys') (members ++ members') a c := by
  intro seen hseen rest
  obtain ⟨seen₁, hsub₁, hread₁⟩ := h seen (fun key hkey => hseen key (List.mem_append_left _ hkey))
    (memberDocuments members' ++ rest)
  have hseen₁ : ∀ key ∈ keys', key ∉ seen₁ := by
    intro key hkey hmem
    rcases List.mem_append.mp (hsub₁ hmem) with hold | hold
    · exact hkeys key hkey hold
    · exact hseen key (List.mem_append_right _ hkey) hold
  obtain ⟨seen₂, hsub₂, hread₂⟩ := h' seen₁ hseen₁ rest
  refine ⟨seen₂, ?_, ?_⟩
  · intro key hkey
    have hmem := hsub₂ hkey
    have := @hsub₁ key
    simp only [List.mem_append] at hmem this ⊢
    tauto
  · rw [memberDocuments_append, List.append_assoc, hread₁, hread₂]

theorem missing?_eq_none_iff {seen : List String} :
    record.missing? seen = none ↔
      ∀ field ∈ record.fields, field.required = true → field.key ∈ seen := by
  rw [missing?, Option.map_eq_none_iff, List.find?_eq_none]
  refine forall₂_congr fun field _ => ?_
  cases field.required <;> simp

theorem readObject_eq_ok_iff {members : List (Option String × Document)} {stop : Stop} {a : α} :
    record.readObject other members stop = .ok a ↔
      stop = .closed ∧ ∃ seen, record.readMembers other [] record.blank members = .ok (seen, a) ∧
        record.missing? seen = none := by
  constructor
  · intro h
    obtain ⟨⟨seen, b⟩, hmembers, h⟩ := bind_eq_ok_iff.mp h
    obtain ⟨_, hstop, h⟩ := bind_eq_ok_iff.mp h
    split at h
    · contradiction
    · rename_i hmissing
      obtain rfl := Except.ok.inj h
      exact ⟨Stop.eq_closed_of_check hstop, seen, hmembers, hmissing⟩
  · rintro ⟨rfl, seen, hmembers, hmissing⟩
    simp only [readObject, hmembers, ok_bind, Stop.check, hmissing, pure_eq_ok]

/-- A record without required fields is complete whatever members it has. -/
theorem Stores.readObject {keys : List String} {members : List (String × Json)} {a : α}
    (h : record.Stores other keys members record.blank a)
    (hrequired : ∀ field ∈ record.fields, field.required = false) :
    record.readObject other (memberDocuments members) .closed = .ok a := by
  obtain ⟨seen, -, hread⟩ := h [] (fun key _ => List.not_mem_nil) []
  have hmissing : record.missing? seen = none :=
    missing?_eq_none_iff.mpr fun field hfield h => absurd h (by simp [hrequired field hfield])
  rw [List.append_nil] at hread
  rw [Record.readObject, hread]
  simp only [readMembers, ok_bind, Stop.check, hmissing]
  rfl

/-- What it takes to read a member: it belongs to a field that was not seen before, or to none. -/
theorem readMembers_cons_eq_ok_iff {key : Option String} {d : Document} {seen : List String} {a : α}
    {members : List (Option String × Document)} {r : List String × α} :
    record.readMembers other seen a ((key, d) :: members) = .ok r ↔
      ∃ name, key = some name ∧
        ((∃ field, record.field? name = some field ∧ name ∉ seen ∧ ∃ b, field.store d a = .ok b ∧
            record.readMembers other (name :: seen) b members = .ok r) ∨
          (record.field? name = none ∧ ∃ b, other name d a = .ok b ∧
            record.readMembers other seen b members = .ok r)) := by
  cases key with
  | none => simp [readMembers, content, unreadable]
  | some name =>
      simp only [readMembers, content, ok_bind, Option.some.injEq, exists_eq_left']
      cases record.field? name with
      | none => simp [bind_eq_ok_iff]
      | some field =>
          by_cases hseen : name ∈ seen
          · simp [hseen]
          · simp [hseen, bind_eq_ok_iff]

/-- A member that is read belongs to a field with its key, or to none. -/
theorem readMembers_cons_eq_ok {key : Option String} {d : Document} {seen : List String} {a : α}
    {members : List (Option String × Document)} {r : List String × α}
    (h : record.readMembers other seen a ((key, d) :: members) = .ok r) :
    ∃ name, key = some name ∧
      ((∃ field ∈ record.fields, field.key = name ∧ ∃ b, field.store d a = .ok b ∧
          record.readMembers other (name :: seen) b members = .ok r) ∨
        (name ∉ record.fields.map Field.key ∧ ∃ b, other name d a = .ok b ∧
          record.readMembers other seen b members = .ok r)) := by
  obtain ⟨name, rfl, ⟨field, hfield, -, hstore⟩ | ⟨hnone, hother⟩⟩ :=
    readMembers_cons_eq_ok_iff.mp h
  · exact ⟨name, rfl, .inl ⟨field, List.mem_of_find?_eq_some hfield,
      by simpa using List.find?_some hfield, hstore⟩⟩
  · exact ⟨name, rfl, .inr ⟨field?_eq_none_iff.mp hnone, hother⟩⟩

/-- Every member that belongs to a field was stored in one with its key. -/
theorem exists_store_of_readMembers {members : List (Option String × Document)}
    {seen : List String} {a : α} {r : List String × α}
    (h : record.readMembers other seen a members = .ok r) {key : String} {d : Document}
    (hmember : (some key, d) ∈ members) (hkey : key ∈ record.fields.map Field.key) :
    ∃ field ∈ record.fields, field.key = key ∧ ∃ b c, field.store d b = .ok c := by
  induction members generalizing seen a with
  | nil => exact absurd hmember List.not_mem_nil
  | cons member members ih =>
      obtain ⟨found, e⟩ := member
      obtain ⟨name, rfl, hfirst⟩ := readMembers_cons_eq_ok h
      rcases List.mem_cons.mp hmember with heq | hlater
      · obtain ⟨hname, rfl⟩ := Prod.mk.inj heq
        obtain rfl := Option.some.inj hname
        rcases hfirst with ⟨field, hfield, hkey, next, hnext, -⟩ | ⟨hnone, -⟩
        · exact ⟨field, hfield, hkey, a, next, hnext⟩
        · exact absurd hkey hnone
      · rcases hfirst with ⟨-, -, -, next, -, h⟩ | ⟨-, next, -, h⟩
        · exact ih h hlater
        · exact ih h hlater

/-- Two ways to write a record that store every member alike read the members alike. -/
theorem readMembers_congr {record' : Record α}
    {other' : String → Document → α → Except DecodeError α}
    {members : List (Option String × Document)}
    (h : ∀ key d, (some key, d) ∈ members → ∃ field field', record.field? key = some field ∧
      record'.field? key = some field' ∧ field.store d = field'.store d)
    (seen : List String) (a : α) :
    record.readMembers other seen a members = record'.readMembers other' seen a members := by
  induction members generalizing seen a with
  | nil => rfl
  | cons member members ih =>
      obtain ⟨name, d⟩ := member
      cases name with
      | none => rfl
      | some key =>
          obtain ⟨field, field', hfield, hfield', hstore⟩ := h key d List.mem_cons_self
          have hrest := ih fun key d hmember => h key d (List.mem_cons_of_mem _ hmember)
          simp only [readMembers, content, ok_bind, hfield, hfield', hstore, hrest]

/-- A key is only seen if a member has it. -/
theorem exists_mem_of_mem_seen {members : List (Option String × Document)}
    {seen seen' : List String} {a b : α}
    (h : record.readMembers other seen a members = .ok (seen', b)) {key : String}
    (hkey : key ∈ seen') : key ∈ seen ∨ some key ∈ members.map Prod.fst := by
  induction members generalizing seen a with
  | nil =>
      obtain ⟨rfl, -⟩ := Prod.mk.inj (Except.ok.inj h)
      exact .inl hkey
  | cons member members ih =>
      obtain ⟨found, d⟩ := member
      obtain ⟨name, rfl, ⟨-, -, -, next, -, h⟩ | ⟨-, next, -, h⟩⟩ := readMembers_cons_eq_ok h
      · rcases ih h with hseen | hlater
        · rcases List.mem_cons.mp hseen with rfl | hseen
          · exact .inr List.mem_cons_self
          · exact .inl hseen
        · exact .inr (List.mem_cons_of_mem _ hlater)
      · exact (ih h).imp id (List.mem_cons_of_mem _)

/-- A field is only read once. -/
theorem not_mem_of_readMembers {members : List (Option String × Document)} {seen : List String}
    {a : α} {r : List String × α} {key : String} {field : Field α}
    (hfield : record.field? key = some field) (hseen : key ∈ seen)
    (h : record.readMembers other seen a members = .ok r) : some key ∉ members.map Prod.fst := by
  induction members generalizing seen a with
  | nil => exact List.not_mem_nil
  | cons member members ih =>
      obtain ⟨found, d⟩ := member
      rw [List.map_cons, List.mem_cons, not_or]
      obtain ⟨name, rfl, ⟨-, -, hname, next, -, hrest⟩ | ⟨hnone, next, -, hrest⟩⟩ :=
        readMembers_cons_eq_ok_iff.mp h
      · refine ⟨?_, ih (List.mem_cons_of_mem name hseen) hrest⟩
        rintro ⟨⟩
        exact hname hseen
      · refine ⟨?_, ih hseen hrest⟩
        rintro ⟨⟩
        rw [hfield] at hnone
        contradiction

/-- What every single member leaves true of a record, all members leave true of it. -/
theorem invariant_of_readMembers {I : α → Prop} {members : List (Option String × Document)}
    (hstore : ∀ field ∈ record.fields, ∀ d a b, field.store d a = .ok b → I a → I b)
    (hother : ∀ key d a b, (some key, d) ∈ members → key ∉ record.fields.map Field.key →
      other key d a = .ok b → I a → I b)
    {seen seen' : List String} {a b : α}
    (h : record.readMembers other seen a members = .ok (seen', b)) (ha : I a) : I b := by
  induction members generalizing seen a with
  | nil =>
      obtain ⟨-, rfl⟩ := Prod.mk.inj (Except.ok.inj h)
      exact ha
  | cons member members ih =>
      obtain ⟨key, d⟩ := member
      have hrest := fun key d a b hmem => hother key d a b (List.mem_cons_of_mem _ hmem)
      obtain ⟨name, rfl, ⟨field, hfield, -, next, hnext, h⟩ | ⟨hname, next, hnext, h⟩⟩ :=
        readMembers_cons_eq_ok h
      · exact ih hrest h (hstore field hfield d a next hnext ha)
      · exact ih hrest h (hother name d a next List.mem_cons_self hname hnext ha)

theorem exists_of_readObject_eq_ok {members : List (Option String × Document)} {stop : Stop} {a : α}
    (h : record.readObject other members stop = .ok a) :
    ∃ seen, record.readMembers other [] record.blank members = .ok (seen, a) := by
  obtain ⟨-, seen, hmembers, -⟩ := readObject_eq_ok_iff.mp h
  exact ⟨seen, hmembers⟩

/-- Nothing can stand in for a required field. -/
theorem mem_keys_of_readObject {members : List (Option String × Document)} {stop : Stop} {a : α}
    (h : record.readObject other members stop = .ok a) {field : Field α}
    (hfield : field ∈ record.fields) (hrequired : field.required = true) :
    some field.key ∈ members.map Prod.fst := by
  obtain ⟨-, seen, hmembers, hmissing⟩ := readObject_eq_ok_iff.mp h
  have hseen := missing?_eq_none_iff.mp hmissing field hfield hrequired
  rcases exists_mem_of_mem_seen hmembers hseen with hnil | hmember
  · exact absurd hnil List.not_mem_nil
  · exact hmember

theorem invariant_of_readObject {I : α → Prop} {members : List (Option String × Document)}
    {stop : Stop}
    (hstore : ∀ field ∈ record.fields, ∀ d a b, field.store d a = .ok b → I a → I b)
    (hother : ∀ key d a b, (some key, d) ∈ members → key ∉ record.fields.map Field.key →
      other key d a = .ok b → I a → I b)
    (hblank : I record.blank) {a : α} (h : record.readObject other members stop = .ok a) : I a := by
  obtain ⟨seen, hmembers⟩ := exists_of_readObject_eq_ok h
  exact invariant_of_readMembers hstore hother hmembers hblank

end Record

end FabricConfig.Json

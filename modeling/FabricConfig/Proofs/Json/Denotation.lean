import FabricConfig.Proofs.Json.Reading
import FabricConfig.Proofs.Json.Record

/-! What a tree denotes: a value in which, at every depth, the last of several members with one key
counts. Reading gives what is denoted, and a field of a record that may be left out is read from the
last member with its key. -/

namespace FabricConfig.Json

/-! ### What a tree denotes -/

/-- The last of the members with a key. -/
def lastMember? (key : String) : List (Option String × Document) → Option Document
  | [] => none
  | (other, d) :: members =>
    (lastMember? key members).or (if other = some key then some d else none)

/-- A tree denotes a value. An object has the keys of the members in order, each once and with the
value of the last member that has it. -/
inductive Document.Denotes : Document → Json → Prop where
  | null : Denotes .null .null
  | bool (b : Bool) : Denotes (.bool b) (.bool b)
  | number (n : Number) : Denotes (.number (some n)) (.number n)
  | string (s : String) : Denotes (.string (some s)) (.string s)
  | array {items : List Document} {values : List Json} (h : List.Forall₂ Denotes items values) :
      Denotes (.array items .closed) (.array values)
  | object {members : List (Option String × Document)} {entries : List (String × Json)}
      (hascending : Ascending entries)
      (hkeys : ∀ key, (entries.lookup key).isSome = (lastMember? key members).isSome)
      (hvalues : ∀ key d value, lastMember? key members = some d →
        entries.lookup key = some value → Denotes d value) :
      Denotes (.object members .closed) (.object entries)

/-- The value that members give a key. -/
def Gives (members : List (Option String × Document)) (key : String) (value : Json) : Prop :=
  ∃ d, lastMember? key members = some d ∧ d.Denotes value

theorem mem_of_lastMember? {key : String} {members : List (Option String × Document)}
    {d : Document} (h : lastMember? key members = some d) : (some key, d) ∈ members := by
  induction members with
  | nil => contradiction
  | cons member members ih =>
      obtain ⟨other, first⟩ := member
      rw [lastMember?, Option.or_eq_some_iff] at h
      rcases h with h | ⟨-, h⟩
      · exact List.mem_cons_of_mem _ (ih h)
      · by_cases hother : other = some key
        · rw [if_pos hother] at h
          obtain rfl := Option.some.inj h
          exact hother ▸ List.mem_cons_self
        · rw [if_neg hother] at h
          contradiction

theorem isSome_lastMember?_iff {key : String} {members : List (Option String × Document)} :
    (lastMember? key members).isSome ↔ some key ∈ members.map Prod.fst := by
  induction members with
  | nil => simp [lastMember?]
  | cons member members ih =>
      by_cases hkey : member.1 = some key
      · simp [lastMember?, hkey]
      · simp [lastMember?, hkey, Ne.symm hkey, ih]

theorem lastMember?_of_not_mem {key : String} {members : List (Option String × Document)}
    (h : some key ∉ members.map Prod.fst) : lastMember? key members = none :=
  Option.not_isSome_iff_eq_none.mp (mt isSome_lastMember?_iff.mp h)

theorem lastMember?_append_cons {key : String} {before after : List (Option String × Document)}
    (h : some key ∉ after.map Prod.fst) (d : Document) :
    lastMember? key (before ++ (some key, d) :: after) = some d := by
  induction before with
  | nil => simp [lastMember?, lastMember?_of_not_mem h]
  | cons member before ih =>
      obtain ⟨other, first⟩ := member
      simp [lastMember?, ih]

namespace Document

theorem eq_of_forall₂_denotes {items : List Document} {first second : List Json}
    (ih : ∀ item ∈ items, ∀ a b, item.Denotes a → item.Denotes b → a = b)
    (hfirst : List.Forall₂ Denotes items first) (hsecond : List.Forall₂ Denotes items second) :
    first = second := by
  induction hfirst generalizing second with
  | nil =>
      cases hsecond
      rfl
  | @cons item value items values hvalue _ htail =>
      cases hsecond with
      | cons hvalue' hvalues' =>
          rw [ih item List.mem_cons_self _ _ hvalue hvalue',
            htail (fun other hother => ih other (List.mem_cons_of_mem item hother)) hvalues']

/-- A tree denotes at most one value. -/
theorem Denotes.unique {d : Document} {a b : Json} (ha : d.Denotes a) (hb : d.Denotes b) :
    a = b := by
  induction d using Document.induction generalizing a b with
  | null =>
      cases ha
      cases hb
      rfl
  | bool b =>
      cases ha
      cases hb
      rfl
  | number n =>
      cases ha
      cases hb
      rfl
  | string s =>
      cases ha
      cases hb
      rfl
  | array items stop ih =>
      cases ha with
      | array ha =>
          cases hb with
          | array hb => rw [eq_of_forall₂_denotes (fun item hitem a b => ih item hitem) ha hb]
  | object members stop ih =>
      cases ha with
      | @object _ first hfirst hkeys hvalues =>
          cases hb with
          | @object _ second hsecond hkeys' hvalues' =>
              congr
              refine hfirst.eq_of_lookup hsecond fun key => ?_
              specialize hkeys key
              specialize hkeys' key
              cases hlast : lastMember? key members with
              | none =>
                  rw [hlast, Option.isSome_none, Option.isSome_eq_false_iff,
                    Option.isNone_iff_eq_none] at hkeys hkeys'
                  rw [hkeys, hkeys']
              | some d =>
                  rw [hlast] at hkeys hkeys'
                  obtain ⟨v, hv⟩ := Option.isSome_iff_exists.mp hkeys
                  obtain ⟨w, hw⟩ := Option.isSome_iff_exists.mp hkeys'
                  rw [hv, hw, ih _ (mem_of_lastMember? hlast) (hvalues key d v hlast hv)
                    (hvalues' key d w hlast hw)]
  | noValue found => cases ha
  | noColon found => cases ha

/-! ### Reading a value -/

theorem forall₂_denotes_of_itemValues {room : Nat} {items : List Document} {values : List Json}
    (ih : ∀ item ∈ items, ∀ value, item.value room = .ok value → item.Denotes value)
    (h : itemValues room items = .ok values) : List.Forall₂ Denotes items values := by
  induction items generalizing values with
  | nil =>
      obtain rfl := Except.ok.inj h
      exact .nil
  | cons item items hitems =>
      rw [itemValues] at h
      obtain ⟨first, hfirst, h⟩ := bind_eq_ok_iff.mp h
      obtain ⟨rest, hrest, h⟩ := bind_eq_ok_iff.mp h
      obtain rfl := Except.ok.inj h
      exact .cons (ih item List.mem_cons_self first hfirst)
        (hitems (fun other hother => ih other (List.mem_cons_of_mem item hother)) hrest)

/-- Under a key stands what the last member with it was read as. -/
theorem lookup_of_memberValues {room : Nat} {members : List (Option String × Document)}
    {entries values : List (String × Json)} (h : memberValues room entries members = .ok values)
    (key : String) :
    (∃ d value, lastMember? key members = some d ∧ d.value room = .ok value ∧
        values.lookup key = some value) ∨
      (lastMember? key members = none ∧ values.lookup key = entries.lookup key) := by
  induction members generalizing entries with
  | nil =>
      obtain rfl := Except.ok.inj h
      exact .inr ⟨rfl, rfl⟩
  | cons member members ih =>
      obtain ⟨other, first⟩ := member
      rw [memberValues] at h
      obtain ⟨name, hname, hread⟩ := bind_eq_ok_iff.mp h
      obtain ⟨stored, hstored, hrest⟩ := bind_eq_ok_iff.mp hread
      obtain rfl := content_eq_ok_iff.mp hname
      -- a later member of the key hides the one at hand
      rcases ih hrest with ⟨d, value, hlast, hvalue, hlookup⟩ | ⟨hnone, hlookup⟩
      · exact .inl ⟨d, value, by simp [lastMember?, hlast], hvalue, hlookup⟩
      · by_cases hkey : name = key
        · subst hkey
          refine .inl ⟨first, stored, by simp [lastMember?, hnone], hstored, ?_⟩
          rw [hlookup, lookup_insertEntry_self]
        · refine .inr ⟨by simp [lastMember?, hnone, hkey], ?_⟩
          rw [hlookup, lookup_insertEntry_of_ne (Ne.symm hkey)]

theorem denotes_of_memberValues {room : Nat} {members : List (Option String × Document)}
    {entries : List (String × Json)}
    (ih : ∀ member ∈ members, ∀ value, member.2.value room = .ok value → member.2.Denotes value)
    (h : memberValues room [] members = .ok entries) :
    (Document.object members .closed).Denotes (.object entries) := by
  refine .object (ascending_of_memberValues .nil h) (fun key => ?_) ?_
  · rcases lookup_of_memberValues h key with ⟨d, value, hlast, -, hlookup⟩ | ⟨hlast, hlookup⟩ <;>
      simp [hlast, hlookup]
  · intro key d value hlast hlookup
    rcases lookup_of_memberValues h key with ⟨d', value', hlast', hread, hlookup'⟩ | ⟨hnone, -⟩
    · obtain rfl := Option.some.inj (hlast.symm.trans hlast')
      obtain rfl := Option.some.inj (hlookup.symm.trans hlookup')
      exact ih _ (mem_of_lastMember? hlast) value hread
    · rw [hlast] at hnone
      contradiction

/-- A tree is read as the value that it denotes. -/
theorem denotes_of_value {room : Nat} {d : Document} {value : Json}
    (h : d.value room = .ok value) : d.Denotes value := by
  induction d using Document.induction generalizing room value with
  | null =>
      obtain rfl := Except.ok.inj h
      exact .null
  | bool b =>
      obtain rfl := Except.ok.inj h
      exact .bool b
  | number n =>
      cases n with
      | none => contradiction
      | some n =>
          obtain rfl := Except.ok.inj h
          exact .number n
  | string s =>
      cases s with
      | none => contradiction
      | some s =>
          obtain rfl := Except.ok.inj h
          exact .string s
  | array items stop ih =>
      cases room with
      | zero => contradiction
      | succ room =>
          rw [Document.value] at h
          obtain ⟨values, hvalues, h⟩ := bind_eq_ok_iff.mp h
          obtain ⟨done, hstop, h⟩ := bind_eq_ok_iff.mp h
          obtain rfl := Except.ok.inj h
          obtain rfl := Stop.eq_closed_of_check hstop
          exact .array
            (forall₂_denotes_of_itemValues (fun item hitem value => ih item hitem) hvalues)
  | object members stop ih =>
      cases room with
      | zero => contradiction
      | succ room =>
          rw [Document.value] at h
          obtain ⟨entries, hentries, h⟩ := bind_eq_ok_iff.mp h
          obtain ⟨done, hstop, h⟩ := bind_eq_ok_iff.mp h
          obtain rfl := Except.ok.inj h
          obtain rfl := Stop.eq_closed_of_check hstop
          exact denotes_of_memberValues (fun member hmember value => ih member hmember) hentries
  | noValue found => contradiction
  | noColon found => contradiction

end Document

theorem Gives.unique {members : List (Option String × Document)} {key : String} {a b : Json}
    (ha : Gives members key a) (hb : Gives members key b) : a = b := by
  obtain ⟨d, hd, ha⟩ := ha
  obtain ⟨d', hd', hb⟩ := hb
  rw [hd] at hd'
  obtain rfl := Option.some.inj hd'
  exact ha.unique hb

/-! ### Reading a field -/

theorem Decoder.eq_string_of_string {d : Document} {s : String} (h : Decoder.string d = .ok s) :
    d = .string (some s) := by
  unfold Decoder.string at h
  split at h
  · rw [Except.ok.inj h]
  · obtain ⟨found, -, hmismatch⟩ := bind_eq_ok_iff.mp h
    contradiction

/-- What a member that may be left out is read as. -/
inductive ReadAs {β : Type} (decoder : Decoder β) : Option Document → Option β → Prop where
  | absent : ReadAs decoder none none
  | null : ReadAs decoder (some .null) none
  | given {d : Document} {b : β} (hnull : d ≠ .null) (h : decoder d = .ok b) :
      ReadAs decoder (some d) (some b)

theorem Decoder.readAs_of_optional {β : Type} {decoder : Decoder β} {d : Document}
    {result : Option β} (h : optional decoder d = .ok result) : ReadAs decoder (some d) result := by
  have hsome (d : Document) (hnull : d ≠ .null) (hd : some <$> decoder d = .ok result) :
      ReadAs decoder (some d) result := by
    cases hdecode : decoder d with
    | error e => simp [hdecode] at hd
    | ok b =>
        rw [hdecode] at hd
        rw [← Except.ok.inj hd]
        exact .given hnull hdecode
  unfold optional at h
  split at h
  · rw [← Except.ok.inj h]
    exact .null
  · split at h
    · contradiction
    · exact hsome _ Document.noConfusion h
  · next hnull _ => exact hsome _ hnull h

/-- A string is written as what was given, unless that was null. -/
theorem ReadAs.map_string_eq_some_iff {members : List (Option String × Document)} {key : String}
    {s : Option String} (h : ReadAs Decoder.string (lastMember? key members) s) {value : Json} :
    s.map Json.string = some value ↔ Gives members key value ∧ value ≠ .null := by
  unfold Gives
  cases hlast : lastMember? key members with
  | none =>
      rw [hlast] at h
      cases h
      simp
  | some d =>
      rw [hlast] at h
      cases h with
      | null =>
          have hnull : ∀ value, Document.null.Denotes value → value = .null :=
            fun value hvalue => hvalue.unique .null
          simpa using hnull value
      | @given _ s hnull hdecode =>
          obtain rfl := Decoder.eq_string_of_string hdecode
          simp only [Option.map_some, Option.some.injEq, exists_eq_left']
          constructor
          · rintro rfl
            exact ⟨.string s, Json.noConfusion⟩
          · exact fun hvalue => (Document.Denotes.string s).unique hvalue.1

namespace Record

variable {α : Type} {record : Record α} {other : String → Document → α → Except DecodeError α}
  {members : List (Option String × Document)} {seen seen' : List String} {a b : α}

/-- A record is only read from an object that is complete. -/
theorem eq_closed_of_readObject {stop : Stop} (h : record.readObject other members stop = .ok a) :
    stop = .closed :=
  (readObject_eq_ok_iff.mp h).1

/-- Every member with a key that no field has was passed to `other`. -/
theorem exists_other_of_readMembers {r : List String × α}
    (h : record.readMembers other seen a members = .ok r) {key : String} {d : Document}
    (hkey : key ∉ record.fields.map Field.key) (hmember : (some key, d) ∈ members) :
    ∃ before after, other key d before = .ok after := by
  induction members generalizing seen a with
  | nil => contradiction
  | cons member members ih =>
      obtain ⟨found, first⟩ := member
      obtain ⟨name, rfl, ⟨field, hfield, hname, next, -, h⟩ | ⟨-, next, hnext, h⟩⟩ :=
        readMembers_cons_eq_ok h
      · rcases List.mem_cons.mp hmember with hfirst | hmember
        · obtain ⟨hname', -⟩ := Prod.mk.inj hfirst
          obtain rfl := Option.some.inj hname'
          exact absurd (List.mem_map.mpr ⟨field, hfield, hname⟩) hkey
        · exact ih h hmember
      · rcases List.mem_cons.mp hmember with hfirst | hmember
        · obtain ⟨hname, rfl⟩ := Prod.mk.inj hfirst
          obtain rfl := Option.some.inj hname
          exact ⟨a, next, hnext⟩
        · exact ih h hmember

/-- A field that may be left out is read from the last member with its key. -/
theorem optional_of_readMembers {β : Type} {decoder : Decoder β} {get : α → Option β} {key : String}
    (hkey : key ∈ record.fields.map Field.key)
    (hstore : ∀ field ∈ record.fields, ∀ d a b, field.store d a = .ok b →
      (field.key = key ∧ Decoder.optional decoder d = .ok (get b)) ∨
        (field.key ≠ key ∧ get b = get a))
    (hother : ∀ name d a b, other name d a = .ok b → get b = get a)
    (h : record.readMembers other seen a members = .ok (seen', b)) :
    (∃ d, lastMember? key members = some d ∧ Decoder.optional decoder d = .ok (get b)) ∨
      (lastMember? key members = none ∧ get b = get a) := by
  induction members generalizing seen a with
  | nil =>
      obtain ⟨-, rfl⟩ := Prod.mk.inj (Except.ok.inj h)
      exact .inr ⟨rfl, rfl⟩
  | cons member members ih =>
      obtain ⟨found, first⟩ := member
      obtain ⟨name, rfl, hstep⟩ := readMembers_cons_eq_ok h
      have hstep : ∃ seen next, record.readMembers other seen next members = .ok (seen', b) ∧
          ((name = key ∧ Decoder.optional decoder first = .ok (get next)) ∨
            (name ≠ key ∧ get next = get a)) := by
        rcases hstep with ⟨field, hfield, rfl, next, hnext, h⟩ | ⟨hname, next, hnext, h⟩
        · exact ⟨_, next, h, hstore field hfield first a next hnext⟩
        · have hne : name ≠ key := by
            rintro rfl
            exact hname hkey
          exact ⟨_, next, h, .inr ⟨hne, hother name first a next hnext⟩⟩
      obtain ⟨seen, next, h, hstep⟩ := hstep
      rcases ih h with ⟨d, hlast, hdecode⟩ | ⟨hnone, hget⟩
      · exact .inl ⟨d, by simp [lastMember?, hlast], hdecode⟩
      · rcases hstep with ⟨rfl, hdecode⟩ | ⟨hne, hkept⟩
        · exact .inl ⟨first, by simp [lastMember?, hnone], hget ▸ hdecode⟩
        · exact .inr ⟨by simp [lastMember?, hnone, hne], hget.trans hkept⟩

end Record

end FabricConfig.Json

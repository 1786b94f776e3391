import FabricConfig.Proofs.Json.Tree
import FabricConfig.Proofs.Table

/-! What values come out of reading. They are settled: their containers are nested no deeper than
there is room for, and the keys of their objects ascend. Settled values are read back unchanged. -/

namespace FabricConfig.Json

/-- A value with containers nested at most `room` deep and the keys of every object in order. -/
inductive Settled : Nat → Json → Prop where
  | null (room : Nat) : Settled room .null
  | bool (room : Nat) (value : Bool) : Settled room (.bool value)
  | number (room : Nat) (n : Number) : Settled room (.number n)
  | string (room : Nat) (value : String) : Settled room (.string value)
  | array {room : Nat} {items : List Json} (h : ∀ item ∈ items, Settled room item) :
      Settled (room + 1) (.array items)
  | object {room : Nat} {members : List (String × Json)} (hkeys : Ascending members)
      (h : ∀ member ∈ members, Settled room member.2) : Settled (room + 1) (.object members)

namespace Document

/-! ### Settled values are read back -/

theorem itemValues_itemDocuments {room : Nat} {items : List Json}
    (h : ∀ item ∈ items, item.document.value room = .ok item) :
    itemValues room (itemDocuments items) = .ok items := by
  induction items with
  | nil => rfl
  | cons item items ih =>
      have hitem := h item List.mem_cons_self
      have hitems := ih fun other hother => h other (List.mem_cons_of_mem item hother)
      simp [itemDocuments, itemValues, hitem, hitems]

/-- Members whose keys ascend are stored one after the other. -/
theorem memberValues_memberDocuments {room : Nat} {entries members : List (String × Json)}
    (hkeys : Ascending (entries ++ members))
    (h : ∀ member ∈ members, member.2.document.value room = .ok member.2) :
    memberValues room entries (memberDocuments members) = .ok (entries ++ members) := by
  induction members generalizing entries with
  | nil => simp [memberDocuments, memberValues]
  | cons member members ih =>
      obtain ⟨key, value⟩ := member
      have hvalue := h (key, value) List.mem_cons_self
      have hlast : ∀ entry ∈ entries, Text.ByteLt entry.1 key := fun entry hentry =>
        (List.pairwise_append.mp hkeys).2.2 entry hentry (key, value) List.mem_cons_self
      have hsplit : entries ++ (key, value) :: members = entries ++ [(key, value)] ++ members := by
        simp
      rw [hsplit] at hkeys ⊢
      rw [memberDocuments, memberValues, hvalue]
      simp only [content, ok_bind, insertEntry_of_forall_lt value hlast]
      exact ih hkeys fun other hother => h other (List.mem_cons_of_mem _ hother)

theorem value_document {room : Nat} {value : Json} (h : Settled room value) :
    value.document.value room = .ok value := by
  induction h with
  | null | bool | number | string => rfl
  | array _ ih =>
      rw [document, Document.value, itemValues_itemDocuments ih]
      rfl
  | @object room members hkeys _ ih =>
      have hmembers : memberValues room [] (memberDocuments members) = .ok members :=
        memberValues_memberDocuments hkeys ih
      rw [document, Document.value, hmembers]
      rfl

/-! ### What is read is settled -/

/-- A property of all trees that containers inherit from what they hold. -/
@[elab_as_elim]
theorem induction {motive : Document → Prop} (null : motive .null) (bool : ∀ b, motive (.bool b))
    (number : ∀ n, motive (.number n)) (string : ∀ s, motive (.string s))
    (array : ∀ items stop, (∀ item ∈ items, motive item) → motive (.array items stop))
    (object : ∀ members stop, (∀ member ∈ members, motive member.2) →
      motive (.object members stop))
    (noValue : ∀ found, motive (.noValue found)) (noColon : ∀ found, motive (.noColon found))
    (d : Document) : motive d := by
  apply @Document.rec motive (fun items => ∀ item ∈ items, motive item)
    (fun members => ∀ member ∈ members, motive member.2) (fun member => motive member.2) null bool
    number string (fun items stop h => array items stop h)
    (fun members stop h => object members stop h) noValue noColon
  · exact fun item hitem => absurd hitem List.not_mem_nil
  · exact fun first rest hfirst hrest => List.forall_mem_cons.mpr ⟨hfirst, hrest⟩
  · exact fun member hmember => absurd hmember List.not_mem_nil
  · exact fun first rest hfirst hrest => List.forall_mem_cons.mpr ⟨hfirst, hrest⟩
  · exact fun key value hvalue => hvalue

theorem exists_mem_of_itemValues {room : Nat} {items : List Document} {values : List Json}
    (h : itemValues room items = .ok values) :
    ∀ value ∈ values, ∃ item ∈ items, item.value room = .ok value := by
  induction items generalizing values with
  | nil =>
      obtain rfl := Except.ok.inj h
      exact fun value hvalue => absurd hvalue List.not_mem_nil
  | cons item items ih =>
      rw [itemValues] at h
      obtain ⟨first, hfirst, h⟩ := bind_eq_ok_iff.mp h
      obtain ⟨rest, hrest, h⟩ := bind_eq_ok_iff.mp h
      obtain rfl := Except.ok.inj h
      intro value hvalue
      rcases List.mem_cons.mp hvalue with rfl | hvalue
      · exact ⟨item, List.mem_cons_self, hfirst⟩
      · obtain ⟨source, hsource, hread⟩ := ih hrest value hvalue
        exact ⟨source, List.mem_cons_of_mem item hsource, hread⟩

theorem ascending_of_memberValues {room : Nat} {members : List (Option String × Document)}
    {entries values : List (String × Json)} (hentries : Ascending entries)
    (h : memberValues room entries members = .ok values) : Ascending values := by
  induction members generalizing entries with
  | nil =>
      obtain rfl := Except.ok.inj h
      exact hentries
  | cons member members ih =>
      rw [memberValues] at h
      obtain ⟨key, -, h⟩ := bind_eq_ok_iff.mp h
      obtain ⟨value, -, h⟩ := bind_eq_ok_iff.mp h
      exact ih (ascending_insertEntry key value hentries) h

theorem exists_mem_of_memberValues {room : Nat} {members : List (Option String × Document)}
    {entries values : List (String × Json)} (h : memberValues room entries members = .ok values) :
    ∀ entry ∈ values, entry ∈ entries ∨
      ∃ member ∈ members, member.1 = some entry.1 ∧ member.2.value room = .ok entry.2 := by
  induction members generalizing entries with
  | nil =>
      obtain rfl := Except.ok.inj h
      exact fun entry hentry => .inl hentry
  | cons member members ih =>
      rw [memberValues] at h
      obtain ⟨key, hkey, h⟩ := bind_eq_ok_iff.mp h
      obtain ⟨value, hvalue, h⟩ := bind_eq_ok_iff.mp h
      intro entry hentry
      rcases ih h entry hentry with hstored | ⟨source, hsource, hread⟩
      · rcases mem_insertEntry hstored with rfl | hold
        · refine .inr ⟨member, List.mem_cons_self, ?_, hvalue⟩
          cases hcontent : member.1 with
          | none => simp [hcontent, content, unreadable] at hkey
          | some name => simpa [hcontent, content] using hkey
        · exact .inl hold
      · exact .inr ⟨source, List.mem_cons_of_mem member hsource, hread⟩

/-- A value read from an array is an array of values read from its items. -/
theorem exists_of_value_array {room : Nat} {items : List Document} {stop : Stop} {value : Json}
    (h : (Document.array items stop).value room = .ok value) :
    ∃ inner values, room = inner + 1 ∧ value = .array values ∧
      ∀ v ∈ values, ∃ item ∈ items, item.value inner = .ok v := by
  cases room with
  | zero => simp [Document.value, unreadable] at h
  | succ inner =>
      rw [Document.value] at h
      obtain ⟨values, hvalues, h⟩ := bind_eq_ok_iff.mp h
      obtain ⟨-, -, h⟩ := bind_eq_ok_iff.mp h
      exact ⟨inner, values, rfl, (Except.ok.inj h).symm, exists_mem_of_itemValues hvalues⟩

/-- A value read from an object has ascending keys and values read from the members. -/
theorem exists_of_value_object {room : Nat} {members : List (Option String × Document)}
    {stop : Stop} {value : Json} (h : (Document.object members stop).value room = .ok value) :
    ∃ inner entries, room = inner + 1 ∧ value = .object entries ∧ Ascending entries ∧
      ∀ entry ∈ entries, ∃ member ∈ members, member.2.value inner = .ok entry.2 := by
  cases room with
  | zero => simp [Document.value, unreadable] at h
  | succ inner =>
      rw [Document.value] at h
      obtain ⟨entries, hentries, h⟩ := bind_eq_ok_iff.mp h
      obtain ⟨-, -, h⟩ := bind_eq_ok_iff.mp h
      refine ⟨inner, entries, rfl, (Except.ok.inj h).symm,
        ascending_of_memberValues List.Pairwise.nil hentries, ?_⟩
      intro entry hentry
      rcases exists_mem_of_memberValues hentries entry hentry with hnil | ⟨member, hmember, -, hread⟩
      · exact absurd hnil List.not_mem_nil
      · exact ⟨member, hmember, hread⟩

theorem settled_of_value {room : Nat} {d : Document} {value : Json}
    (h : d.value room = .ok value) : Settled room value := by
  induction d using Document.induction generalizing room value with
  | null =>
      obtain rfl := Except.ok.inj h
      exact .null room
  | bool b =>
      obtain rfl := Except.ok.inj h
      exact .bool room b
  | number n =>
      cases n with
      | none => contradiction
      | some n =>
          obtain rfl := Except.ok.inj h
          exact .number room n
  | string s =>
      cases s with
      | none => contradiction
      | some s =>
          obtain rfl := Except.ok.inj h
          exact .string room s
  | array items stop ih =>
      obtain ⟨inner, values, rfl, rfl, hvalues⟩ := exists_of_value_array h
      refine .array fun v hv => ?_
      obtain ⟨item, hitem, hread⟩ := hvalues v hv
      exact ih item hitem hread
  | object members stop ih =>
      obtain ⟨inner, entries, rfl, rfl, hkeys, hentries⟩ := exists_of_value_object h
      refine .object hkeys fun entry hentry => ?_
      obtain ⟨member, hmember, hread⟩ := hentries entry hentry
      exact ih member hmember hread
  | noValue found => contradiction
  | noColon found => contradiction

end Document

end FabricConfig.Json

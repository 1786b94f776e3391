import FabricConfig.Proofs.Json.Denotation
import FabricConfig.Proofs.Json.Grammar

/-! What decoders accept. Decoders of values and records walk over all of a tree, so that they
accept only trees in which nothing is wrong with the text. -/

namespace FabricConfig.Json

theorem Stop.eq_closed_of_checkSkipped {stop : Stop} {done : Unit}
    (h : stop.checkSkipped = .ok done) : stop = .closed := by
  cases stop with
  | closed => rfl
  | unseparated found => contradiction
  | noKey found => contradiction

namespace Document

/-! ### Values of any type -/

theorem skip_of_skipItems {items : List Document} {done : Unit} (h : skipItems items = .ok done) :
    ∀ item ∈ items, item.skip = .ok () := by
  induction items with
  | nil => exact fun item hitem => absurd hitem List.not_mem_nil
  | cons item items ih =>
      obtain ⟨_, hitem, hitems⟩ := bind_eq_ok_iff.mp h
      exact List.forall_mem_cons.mpr ⟨hitem, ih hitems⟩

theorem skip_of_skipMembers {members : List (Option String × Document)} {done : Unit}
    (h : skipMembers members = .ok done) : ∀ member ∈ members, member.2.skip = .ok () := by
  induction members with
  | nil => exact fun member hmember => absurd hmember List.not_mem_nil
  | cons member members ih =>
      obtain ⟨_, hmember, hmembers⟩ := bind_eq_ok_iff.mp h
      exact List.forall_mem_cons.mpr ⟨hmember, ih hmembers⟩

theorem complete_of_skip {d : Document} {done : Unit} (h : d.skip = .ok done) : d.Complete := by
  induction d using Document.induction with
  | null => exact .null
  | bool b => exact .bool b
  | number n => exact .number n
  | string s => exact .string s
  | array items stop ih =>
      obtain ⟨_, hitems, hstop⟩ := bind_eq_ok_iff.mp h
      obtain rfl := Stop.eq_closed_of_checkSkipped hstop
      exact .array fun item hitem => ih item hitem (skip_of_skipItems hitems item hitem)
  | object members stop ih =>
      obtain ⟨_, hmembers, hstop⟩ := bind_eq_ok_iff.mp h
      obtain rfl := Stop.eq_closed_of_checkSkipped hstop
      exact .object fun member hmember =>
        ih member hmember (skip_of_skipMembers hmembers member hmember)
  | noValue found => contradiction
  | noColon found => contradiction

theorem value_of_itemValues {room : Nat} {items : List Document} {values : List Json}
    (h : itemValues room items = .ok values) :
    ∀ item ∈ items, ∃ value, item.value room = .ok value := by
  induction items generalizing values with
  | nil => exact fun item hitem => absurd hitem List.not_mem_nil
  | cons item items ih =>
      obtain ⟨value, hvalue, h⟩ := bind_eq_ok_iff.mp h
      obtain ⟨rest, hrest, -⟩ := bind_eq_ok_iff.mp h
      exact List.forall_mem_cons.mpr ⟨⟨value, hvalue⟩, ih hrest⟩

theorem value_of_memberValues {room : Nat} {members : List (Option String × Document)}
    {entries result : List (String × Json)} (h : memberValues room entries members = .ok result) :
    ∀ member ∈ members, ∃ value, member.2.value room = .ok value := by
  induction members generalizing entries with
  | nil => exact fun member hmember => absurd hmember List.not_mem_nil
  | cons member members ih =>
      obtain ⟨key, -, h⟩ := bind_eq_ok_iff.mp h
      obtain ⟨value, hvalue, h⟩ := bind_eq_ok_iff.mp h
      exact List.forall_mem_cons.mpr ⟨⟨value, hvalue⟩, ih h⟩

theorem complete_of_value {room : Nat} {d : Document} {result : Json}
    (h : d.value room = .ok result) : d.Complete := by
  induction d using Document.induction generalizing room result with
  | null => exact .null
  | bool b => exact .bool b
  | number n => exact .number n
  | string s => exact .string s
  | array items stop ih =>
      cases room with
      | zero => contradiction
      | succ room =>
          obtain ⟨values, hvalues, h⟩ := bind_eq_ok_iff.mp h
          obtain ⟨_, hstop, -⟩ := bind_eq_ok_iff.mp h
          obtain rfl := Stop.eq_closed_of_check hstop
          refine .array fun item hitem => ?_
          obtain ⟨value, hvalue⟩ := value_of_itemValues hvalues item hitem
          exact ih item hitem hvalue
  | object members stop ih =>
      cases room with
      | zero => contradiction
      | succ room =>
          obtain ⟨entries, hentries, h⟩ := bind_eq_ok_iff.mp h
          obtain ⟨_, hstop, -⟩ := bind_eq_ok_iff.mp h
          obtain rfl := Stop.eq_closed_of_check hstop
          refine .object fun member hmember => ?_
          obtain ⟨value, hvalue⟩ := value_of_memberValues hentries member hmember
          exact ih member hmember hvalue
  | noValue found => contradiction
  | noColon found => contradiction

end Document

/-! ### Values of given types -/

namespace Decoder

/-- A decoder accepts no tree with something wrong. -/
def Strict {α : Type} (decoder : Decoder α) : Prop :=
  ∀ d a, decoder d = .ok a → d.Complete

theorem strict_string : string.Strict := by
  intro d s h
  obtain rfl := eq_string_of_string h
  exact .string (some s)

theorem Strict.optional {α : Type} {decoder : Decoder α} (h : decoder.Strict) :
    (Decoder.optional decoder).Strict := by
  intro d result hd
  cases readAs_of_optional hd with
  | null => exact .null
  | given _ hdecode => exact h d _ hdecode

theorem eq_null_of_unit {d : Document} {done : Unit} (h : unit .text d = .ok done) : d = .null := by
  unfold unit at h
  split at h
  · rfl
  · contradiction
  · obtain ⟨found, -, hmismatch⟩ := bind_eq_ok_iff.mp h
    contradiction

theorem strict_named {α : Type} [Named α] : (named .text : Decoder α).Strict := by
  intro d a h
  unfold named at h
  split at h
  · exact .string _
  · obtain ⟨name, -, h⟩ := bind_eq_ok_iff.mp h
    obtain ⟨b, -, h⟩ := bind_eq_ok_iff.mp h
    obtain ⟨_, hunit, h⟩ := bind_eq_ok_iff.mp h
    split at h
    · obtain rfl := eq_null_of_unit hunit
      exact .object (List.forall_mem_singleton.mpr .null)
    · contradiction
    · contradiction
  all_goals contradiction

end Decoder

/-! ### Records -/

namespace Record

variable {α : Type} {record : Record α} {other : String → Document → α → Except DecodeError α}

theorem complete_of_readMembers
    (hstore : ∀ field ∈ record.fields, ∀ d a b, field.store d a = .ok b → d.Complete)
    (hother : ∀ key d a b, other key d a = .ok b → d.Complete)
    {members : List (Option String × Document)} {seen : List String} {a : α} {r : List String × α}
    (h : record.readMembers other seen a members = .ok r) :
    ∀ member ∈ members, member.2.Complete := by
  induction members generalizing seen a with
  | nil => exact fun member hmember => absurd hmember List.not_mem_nil
  | cons member members ih =>
      obtain ⟨key, d⟩ := member
      refine List.forall_mem_cons.mpr ?_
      obtain ⟨name, -, ⟨field, hfield, -, b, hb, h⟩ | ⟨-, b, hb, h⟩⟩ := readMembers_cons_eq_ok h
      · exact ⟨hstore field hfield d a b hb, ih h⟩
      · exact ⟨hother name d a b hb, ih h⟩

theorem complete_of_readObject
    (hstore : ∀ field ∈ record.fields, ∀ d a b, field.store d a = .ok b → d.Complete)
    (hother : ∀ key d a b, other key d a = .ok b → d.Complete)
    {members : List (Option String × Document)} {stop : Stop} {a : α}
    (h : record.readObject other members stop = .ok a) :
    (Document.object members stop).Complete := by
  obtain rfl := eq_closed_of_readObject h
  obtain ⟨seen, hmembers⟩ := exists_of_readObject_eq_ok h
  exact .object (complete_of_readMembers hstore hother hmembers)

/-- Every item is one of a field. -/
theorem complete_of_readItems {fields : List (Field α)} {items : List Document} {stop : Stop}
    {a result : α} {index : Nat}
    (hstore : ∀ field ∈ fields, ∀ d a b, field.store d a = .ok b → d.Complete)
    (h : record.readItems .text stop a index fields items = .ok result) :
    stop = .closed ∧ ∀ item ∈ items, item.Complete := by
  induction fields generalizing items a index with
  | nil =>
      cases items with
      | nil =>
          obtain ⟨_, hstop, -⟩ := bind_eq_ok_iff.mp h
          exact ⟨Stop.eq_closed_of_check hstop, by simp⟩
      | cons item items => contradiction
  | cons field fields ih =>
      obtain ⟨hfield, hfields⟩ := List.forall_mem_cons.mp hstore
      cases items with
      | nil =>
          obtain ⟨_, hstop, -⟩ := bind_eq_ok_iff.mp h
          exact ⟨Stop.eq_closed_of_check hstop, by simp⟩
      | cons item items =>
          obtain ⟨b, hb, h⟩ := bind_eq_ok_iff.mp h
          obtain ⟨hstop, hitems⟩ := ih hfields h
          exact ⟨hstop, List.forall_mem_cons.mpr ⟨hfield item a b hb, hitems⟩⟩

theorem strict_decoder
    (hstore : ∀ field ∈ record.fields, ∀ d a b, field.store d a = .ok b → d.Complete) :
    (record.decoder .text).Strict := by
  intro d a h
  unfold decoder at h
  split at h
  · refine complete_of_readObject hstore (fun key d a b hskip => ?_) h
    obtain ⟨_, hd, -⟩ := bind_eq_ok_iff.mp hskip
    exact Document.complete_of_skip hd
  · obtain ⟨rfl, hitems⟩ := complete_of_readItems hstore h
    exact .array hitems
  · obtain ⟨found, -, hmismatch⟩ := bind_eq_ok_iff.mp h
    contradiction

end Record

end FabricConfig.Json

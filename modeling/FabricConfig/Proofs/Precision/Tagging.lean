import FabricConfig.Proofs.Json.Grammar
import FabricConfig.Proofs.Precision.Encoding

/-! Fixed-point types with and without a tag. The members of a tagged record are put aside until the
tag is found and are read from there, those of an untagged one are read as they come. Both ways
accept the same members and make the same type of them. -/

namespace FabricConfig

open Json

/-- A value that is no container. Strings may have unpaired surrogates and numbers may be too
large. -/
inductive Json.Document.Scalar : Document → Prop where
  | null : Scalar .null
  | bool (value : Bool) : Scalar (.bool value)
  | number (value : Option Number) : Scalar (.number value)
  | string (content : Option String) : Scalar (.string content)

namespace FixedType

/-- A member with the key of a field and a scalar under it, which is a string if the field is a
mode. It need not be one that the field accepts. -/
structure FieldMember (member : Option String × Document) : Prop where
  key : ∃ key ∈ ["width", "integer_bits", "signed", "rounding_mode", "saturation_mode",
    "saturation_bits"], member.1 = some key
  scalar : member.2.Scalar
  mode : member.1 ∈ [some "rounding_mode", some "saturation_mode"] → ∃ s, member.2 = .string s

/-- A mode that is a string is read the same way wherever it comes from, and all else is read
without asking where it comes from. -/
theorem FieldMember.exists_field {key : String} {d : Document} (h : FieldMember (some key, d)) :
    ∃ field field', (record .text).field? key = some field ∧
      (record .store).field? key = some field' ∧ field.store d = field'.store d := by
  obtain ⟨⟨name, hname, hkey⟩, -, hmode⟩ := h
  obtain rfl := Option.some.inj hkey
  by_cases hstring : some key ∈ [some "rounding_mode", some "saturation_mode"]
  · obtain ⟨s, rfl⟩ := hmode hstring
    simp only [List.mem_cons, List.not_mem_nil, or_false, Option.some.injEq] at hstring
    rcases hstring with rfl | rfl <;> exact ⟨_, _, rfl, rfl, rfl⟩
  · simp only [List.mem_cons, List.not_mem_nil, or_false, Option.some.injEq, not_or]
      at hname hstring
    obtain ⟨hrounding, hoverflow⟩ := hstring
    rcases hname with rfl | rfl | rfl | h | h | rfl
    case inr.inr.inr.inl => exact absurd h hrounding
    case inr.inr.inr.inr.inl => exact absurd h hoverflow
    all_goals exact ⟨_, _, rfl, rfl, rfl⟩

theorem FieldMember.key_mem {key : String} {d : Document} (h : FieldMember (some key, d)) :
    key ∈ (record .text).fields.map Field.key := by
  obtain ⟨name, hname, hkey⟩ := h.key
  obtain rfl := Option.some.inj hkey
  simpa [record] using hname

/-- What no field can be read from cannot be put aside either. -/
theorem putAside_of_store {d : Document} (hd : d.Scalar) {field : Json.Field FixedType}
    (hfield : field ∈ (record .text).fields) {t u : FixedType} (h : field.store d t = .ok u) :
    Precision.putAside d = .ok () := by
  cases hd with
  | null | bool => rfl
  | number n =>
      cases n with
      | some n => rfl
      | none =>
          simp only [record, List.mem_cons, List.not_mem_nil, or_false] at hfield
          rcases hfield with rfl | rfl | rfl | rfl | rfl | rfl <;> cases h
  | string s =>
      cases s with
      | some s => rfl
      | none =>
          simp only [record, List.mem_cons, List.not_mem_nil, or_false] at hfield
          rcases hfield with rfl | rfl | rfl | rfl | rfl | rfl <;> cases h

theorem FieldMember.aside {member : Option String × Document} (h : FieldMember member)
    (haside : Precision.putAside member.2 = .ok ()) : Precision.Aside member := by
  obtain ⟨key, hkey, hmember⟩ := h.key
  refine ⟨key, hmember, ?_, haside⟩
  rintro rfl
  simp [Precision.tagKey] at hkey

section

variable {members : List (Option String × Document)} (h : ∀ member ∈ members, FieldMember member)
include h

theorem aside_of_decoder {t : FixedType}
    (hread : (record .text).decoder .text (.object members .closed) = .ok t) :
    ∀ member ∈ members, Precision.Aside member := by
  obtain ⟨seen, hmembers⟩ := Record.exists_of_readObject_eq_ok hread
  rintro ⟨name, d⟩ hmember
  have hfields := h (name, d) hmember
  obtain ⟨key, -, rfl⟩ := hfields.key
  obtain ⟨field, hfield, -, u, v, hstore⟩ :=
    Record.exists_store_of_readMembers hmembers hmember hfields.key_mem
  exact hfields.aside (putAside_of_store hfields.scalar hfield hstore)

/-- Reading the members from where they were put is reading them as they come. -/
theorem decoder_store :
    (record .store).decoder .store (.object members .closed) =
      (record .text).decoder .text (.object members .closed) := by
  have hmembers : (record .text).readMembers (Record.ignoreOther .text) [] (record .text).blank
      members = (record .store).readMembers (Record.ignoreOther .store) [] (record .store).blank
      members :=
    Record.readMembers_congr (fun key d hmember => (h (some key, d) hmember).exists_field) [] _
  simp only [Record.decoder, Record.readObject, hmembers]
  rfl

end

end FixedType

namespace Precision

theorem aside_of_findTag {members aside : List (Option String × Document)} {tag found : Option Tag}
    (h : findTag tag members = .ok (found, aside)) :
    ∀ member ∈ members, member.1 ≠ some tagKey → putAside member.2 = .ok () := by
  induction members generalizing tag aside with
  | nil => exact fun member hmember => absurd hmember List.not_mem_nil
  | cons member members ih =>
      obtain ⟨name, d⟩ := member
      rw [findTag] at h
      obtain ⟨key, hkey, hrest⟩ := bind_eq_ok_iff.mp h
      obtain rfl := content_eq_ok_iff.mp hkey
      refine List.forall_mem_cons.mpr ?_
      by_cases hname : key = tagKey
      · rw [if_pos hname] at hrest
        split at hrest
        · contradiction
        · obtain ⟨_, _, hlater⟩ := bind_eq_ok_iff.mp hrest
          exact ⟨fun hother => absurd (congrArg some hname) hother, ih hlater⟩
      · rw [if_neg hname] at hrest
        obtain ⟨_, hd, hrest⟩ := bind_eq_ok_iff.mp hrest
        obtain ⟨⟨next, rest⟩, hlater, hpair⟩ := bind_eq_ok_iff.mp hrest
        obtain ⟨rfl, -⟩ := Prod.mk.inj (Except.ok.inj hpair)
        exact ⟨fun _ => hd, ih hlater⟩

variable {before after : List (Option String × Document)}

theorem aside_of_decoder (h : ∀ member ∈ before ++ after, FixedType.FieldMember member)
    {p : Precision}
    (hread : decoder (.object (before ++ (some tagKey, (Json.name Tag.custom).document) :: after)
      .closed) = .ok p) : ∀ member ∈ before ++ after, Aside member := by
  obtain ⟨⟨tag, aside⟩, hfound, -⟩ := bind_eq_ok_iff.mp hread
  intro member hmember
  obtain ⟨key, hkey, hname⟩ := (h member hmember).key
  refine (h member hmember).aside (aside_of_findTag hfound member ?_ ?_)
  · rw [List.mem_append] at hmember ⊢
    exact hmember.imp_right (List.mem_cons_of_mem _)
  · rw [hname]
    rintro ⟨⟩
    simp [tagKey] at hkey

theorem decoder_of_aside (h : ∀ member ∈ before ++ after, Aside member) :
    decoder (.object (before ++ (some tagKey, (Json.name Tag.custom).document) :: after) .closed) =
      .fixed <$> (FixedType.record .store).decoder .store (.object (before ++ after) .closed) := by
  simp only [decoder, findTag_append Tag.custom h, ok_bind, Stop.check]
  rfl

end Precision

/-- A fixed-point type is read from an object exactly if it is read from the same object with a tag
anywhere among the members. The members may come in any order and any number, and their values need
not be fit for the fields. -/
theorem decoder_tagged_iff {before after : List (Option String × Document)}
    (hmembers : ∀ member ∈ before ++ after, FixedType.FieldMember member) {text tagged : String}
    (htext : Written (.object (before ++ after) .closed) text.toList)
    (htagged : Written (.object (before ++ (some "family", .string (some "custom")) :: after)
      .closed) tagged.toList) (t : FixedType) :
    Decoder.run ((FixedType.record .text).decoder .text) text = .ok t ↔
      Decoder.run Precision.decoder tagged = .ok (.fixed t) := by
  rw [Decoder.run_of_written htext, Decoder.run_of_written htagged]
  constructor
  · intro hread
    have haside := FixedType.aside_of_decoder hmembers hread
    refine (Precision.decoder_of_aside haside).trans ?_
    rw [FixedType.decoder_store hmembers, hread]
    rfl
  · intro hread
    have haside := Precision.aside_of_decoder hmembers hread
    have hstore := (Precision.decoder_of_aside haside).symm.trans hread
    rw [FixedType.decoder_store hmembers] at hstore
    cases hfixed : (FixedType.record .text).decoder .text (.object (before ++ after) .closed) with
    | error e => simp [hfixed] at hstore
    | ok u =>
        rw [hfixed] at hstore
        obtain ⟨⟩ := Except.ok.inj hstore
        rfl

/-- The tag may stand between the members, and a mode may be left out. -/
theorem decoder_tagged_iff_between :
    let before : List (String × Json) := [("saturation_mode", .string "SAT"), ("width", .nat 12)]
    let after : List (String × Json) := [("signed", .bool true), ("integer_bits", .nat 5)]
    let t : FixedType := ⟨12, 5, true, default, .saturate, 0⟩
    let text := (Json.object (before ++ after)).compact
    let tagged := (Json.object (before ++ ("family", .string "custom") :: after)).compact
    (∀ member ∈ memberDocuments before ++ memberDocuments after, FixedType.FieldMember member) ∧
      Decoder.run ((FixedType.record .text).decoder .text) text = .ok t ∧
      Decoder.run Precision.decoder tagged = .ok (.fixed t) := by
  intro before after t text tagged
  have hmembers : ∀ member ∈ memberDocuments before ++ memberDocuments after,
      FixedType.FieldMember member := by
    simp only [before, after, memberDocuments, List.cons_append, List.nil_append,
      List.forall_mem_cons]
    refine ⟨⟨?_, .string _, ?_⟩, ⟨?_, .number _, ?_⟩, ⟨?_, .bool _, ?_⟩, ⟨?_, .number _, ?_⟩, ?_⟩
    all_goals simp [document]
  have htext : Written (.object (memberDocuments before ++ memberDocuments after) .closed)
      text.toList := by
    rw [← memberDocuments_append]
    exact Integral.written_compact (.object (by simp [before, after, Json.nat, UInt64.size]))
  have htagged : Written (.object (memberDocuments before ++
      (some "family", .string (some "custom")) :: memberDocuments after) .closed)
      tagged.toList := by
    have hobject : (Json.object (before ++ ("family", .string "custom") :: after)).Integral :=
      .object (by simp [before, after, Json.nat, UInt64.size])
    have hwritten := hobject.written_compact
    rwa [document, memberDocuments_append] at hwritten
  have hread : Decoder.run ((FixedType.record .text).decoder .text) text = .ok t := by
    rw [Decoder.run_of_written htext]
    rfl
  exact ⟨hmembers, hread, (decoder_tagged_iff hmembers htext htagged t).mp hread⟩

end FabricConfig

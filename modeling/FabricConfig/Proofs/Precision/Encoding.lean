import FabricConfig.Precision.Encoding
import FabricConfig.Proofs.Json.Filling
import FabricConfig.Proofs.Json.Reading

/-! The JSON forms of a precision: an object with its members in any order, or an array of their
values. In both, optional values may be left out if they are the default ones. However it is
written, a precision is read back. -/

namespace FabricConfig

open Json

instance : LawfulNamed Precision.Tag where
  mem_all a := by cases a <;> simp [Named.all]
  name_injective a b := by cases a <;> cases b <;> simp [Named.name]

theorem Json.eq_of_name_eq {α : Type} [Named α] [LawfulNamed α] {a b : α}
    (h : Json.name a = Json.name b) : a = b :=
  LawfulNamed.name_injective a b (Json.string.inj h)

namespace Json.Decoder

theorem natural_nat {n bound : Nat} (h : n < bound) (expected : Expected) :
    natural bound expected (Json.nat n).document = .ok n :=
  if_pos ⟨Int.natCast_nonneg n, Int.ofNat_lt.mpr h⟩

theorem word32_nat (n : UInt32) : word32 (Json.nat n.toNat).document = .ok n := by
  rw [word32, natural_nat n.toNat_lt_size]
  exact congrArg Except.ok UInt32.ofNat_toNat

end Json.Decoder

/-! ### Records of both kinds -/

namespace FixedType

/-- The members that may be left out of the record of a type. -/
def defaultMembers : List (String × Json) :=
  [("rounding_mode", .string "TRN"), ("saturation_mode", .string "WRAP"),
   ("saturation_bits", .nat 0)]

/-- A type of which only the fields with the keys `seen` have been read. -/
def known (t : FixedType) (seen : List String) : FixedType where
  width := if "width" ∈ seen then t.width else 0
  integerBits := if "integer_bits" ∈ seen then t.integerBits else 0
  signed := if "signed" ∈ seen then t.signed else false
  rounding := if "rounding_mode" ∈ seen then t.rounding else default
  overflow := if "saturation_mode" ∈ seen then t.overflow else default
  saturationBits := if "saturation_bits" ∈ seen then t.saturationBits else 0

/-- Each member is read into its own field, whichever fields have been read before. -/
theorem known_step (t : FixedType) (origin : Decoder.Origin) :
    ∀ member ∈ t.members, ∀ field, (record origin).field? member.1 = some field →
      ∀ seen, member.1 ∉ seen →
        field.store member.2.document (t.known seen) = .ok (t.known (member.1 :: seen)) := by
  simp only [members, List.forall_mem_cons]
  refine ⟨?_, ?_, ?_, ?_, ?_, ?_, fun _ hnil => absurd hnil List.not_mem_nil⟩
  all_goals
    rintro field ⟨⟩ seen -
    simp [Decoder.word32_nat, Decoder.named_name, Decoder.boolean, document, known]

/-- Nothing is lost if only default values are missing. -/
theorem known_eq (t : FixedType) {seen : List String}
    (h : ∀ member ∈ t.members, member.1 ∈ seen ∨ member ∈ defaultMembers) : t.known seen = t := by
  have hseen : "width" ∈ seen ∧ "integer_bits" ∈ seen ∧ "signed" ∈ seen ∧
      ("rounding_mode" ∈ seen ∨ Json.name t.rounding = .string "TRN") ∧
      ("saturation_mode" ∈ seen ∨ Json.name t.overflow = .string "WRAP") ∧
      ("saturation_bits" ∈ seen ∨ Json.nat t.saturationBits.toNat = .nat 0) := by
    simpa [members, defaultMembers] using h
  obtain ⟨hwidth, hinteger, hsigned, hrounding, hoverflow, hbits⟩ := hseen
  obtain ⟨width, integerBits, signed, rounding, overflow, saturationBits⟩ := t
  simp only [known, FixedType.mk.injEq, ite_eq_left_iff]
  refine ⟨fun hno => absurd hwidth hno, fun hno => absurd hinteger hno,
    fun hno => absurd hsigned hno, fun hno => ?_, fun hno => ?_, fun hno => ?_⟩
  · exact (eq_of_name_eq (hrounding.resolve_left hno)).symm
  · exact (eq_of_name_eq (hoverflow.resolve_left hno)).symm
  · have hzero : saturationBits.toNat = 0 := by simpa [Json.nat] using hbits.resolve_left hno
    exact (UInt32.toNat_inj.mp hzero).symm

theorem filling (t : FixedType) (origin : Decoder.Origin) :
    (record origin).Filling t.members defaultMembers t t.known where
  keys := rfl
  nodup := by simp [record]
  blank := rfl
  step := t.known_step origin
  full seen := t.known_eq
  required := by simp [record, defaultMembers]

end FixedType

namespace FloatKind

theorem filling (kind : FloatKind) :
    record.Filling [("kind", .name kind)] FixedType.defaultMembers kind
      (fun seen => if "kind" ∈ seen then kind else .float) where
  keys := rfl
  nodup := by decide
  blank := rfl
  step := by
    rw [List.forall_mem_singleton]
    rintro field ⟨⟩ seen -
    simpa using Decoder.named_name .store kind
  full := by
    intro seen hseen
    have hkind : "kind" ∈ seen := by simpa [FixedType.defaultMembers] using hseen
    exact if_pos hkind
  required := by simp [record, FixedType.defaultMembers]

end FloatKind

/-! ### Forms of a precision -/

namespace Precision

/-- The kind of record that a precision is. -/
def tag : Precision → Tag
  | .floating _ => .symbolic
  | .fixed _ => .custom

/-- The members of the record of a precision. -/
def fieldMembers : Precision → List (String × Json)
  | .floating kind => [("kind", .name kind)]
  | .fixed type => type.members

/-- The members of the JSON object of a precision. -/
def members (p : Precision) : List (String × Json) :=
  (tagKey, .name p.tag) :: p.fieldMembers

/-- An object with the members of a precision in any order, each of them once. Only members with
default values may be missing. -/
structure ObjectForm (p : Precision) (given : List (String × Json)) : Prop where
  subset : given ⊆ p.members
  nodup : (given.map Prod.fst).Nodup
  complete : ∀ member ∈ p.members, member ∈ given ∨ member ∈ FixedType.defaultMembers

/-- An array of the values of the members of a precision, in order. Only default values at the end
may be missing. -/
def ArrayForm (p : Precision) (items : List Json) : Prop :=
  ∃ given left, p.members = given ++ left ∧ left ⊆ FixedType.defaultMembers ∧
    items = given.map Prod.snd

theorem toJson_eq (p : Precision) : p.toJson = .object p.members := by
  cases p <;> rfl

/-! ### Reading the record -/

theorem ofStore_object (p : Precision) {given : List (String × Json)}
    (hgiven : given ⊆ p.fieldMembers) (hnodup : (given.map Prod.fst).Nodup)
    (hcomplete : ∀ member ∈ p.fieldMembers, member ∈ given ∨ member ∈ FixedType.defaultMembers) :
    ofStore p.tag (.object (memberDocuments given) .closed) = .ok p := by
  cases p with
  | floating kind =>
      rw [tag, ofStore, kind.filling.decoder_object .store hgiven hnodup hcomplete]
      rfl
  | fixed type =>
      rw [tag, ofStore, (type.filling .store).decoder_object .store hgiven hnodup hcomplete]
      rfl

theorem ofStore_array (p : Precision) {given left : List (String × Json)}
    (hmembers : p.fieldMembers = given ++ left) (hleft : left ⊆ FixedType.defaultMembers) :
    ofStore p.tag (.array (itemDocuments (given.map Prod.snd)) .closed) = .ok p := by
  cases p with
  | floating kind =>
      rw [tag, ofStore, kind.filling.decoder_array .store hmembers hleft]
      rfl
  | fixed type =>
      rw [tag, ofStore, (type.filling .store).decoder_array .store hmembers hleft]
      rfl

/-! ### Finding the tag -/

theorem readTag_name (tag : Tag) : readTag (Json.name tag).document = .ok tag := by
  simp [readTag, Json.name, document, content, Decoder.variant]

theorem putAside_document {value : Json} (h : Settled (Decoder.maxDepth - 1) value) :
    putAside value.document = .ok () := by
  rw [putAside, Document.value_document h]
  rfl

/-- A member that is put aside while the tag is looked for. -/
def Aside (member : Option String × Document) : Prop :=
  ∃ key, member.1 = some key ∧ key ≠ tagKey ∧ putAside member.2 = .ok ()

theorem findTag_aside {members : List (Option String × Document)}
    (h : ∀ member ∈ members, Aside member) (tag : Option Tag) :
    findTag tag members = .ok (tag, members) := by
  induction members with
  | nil => rfl
  | cons member members ih =>
      obtain ⟨name, d⟩ := member
      obtain ⟨⟨key, rfl, hkey, hd⟩, hmembers⟩ := List.forall_mem_cons.mp h
      simp only [findTag, content, ok_bind, if_neg hkey, hd, ih hmembers, pure_eq_ok]

/-- The tag is found wherever it stands. -/
theorem findTag_append {before after : List (Option String × Document)} (tag : Tag)
    (h : ∀ member ∈ before ++ after, Aside member) :
    findTag none (before ++ (some tagKey, (Json.name tag).document) :: after) =
      .ok (some tag, before ++ after) := by
  induction before with
  | nil =>
      have hrest := findTag_aside h (some tag)
      simpa [findTag, content, readTag_name] using hrest
  | cons member before ih =>
      obtain ⟨name, d⟩ := member
      obtain ⟨⟨key, rfl, hkey, hd⟩, hmembers⟩ := List.forall_mem_cons.mp h
      simp only [List.cons_append, findTag, content, ok_bind, if_neg hkey, hd, ih hmembers,
        pure_eq_ok]

theorem aside_of_settled {members : List (String × Json)} (hkeys : tagKey ∉ members.map Prod.fst)
    (hsettled : ∀ member ∈ members, Settled (Decoder.maxDepth - 1) member.2) :
    ∀ member ∈ memberDocuments members, Aside member := by
  rw [memberDocuments_eq_map, List.forall_mem_map]
  intro member hmember
  refine ⟨member.1, rfl, fun hkey => ?_, putAside_document (hsettled member hmember)⟩
  exact hkeys (hkey ▸ List.mem_map_of_mem hmember)

/-! ### Reading a precision -/

theorem tagKey_not_mem (p : Precision) : tagKey ∉ p.fieldMembers.map Prod.fst := by
  cases p <;> simp [fieldMembers, FixedType.members, tagKey]

theorem tag_not_mem_defaultMembers (value : Json) :
    (tagKey, value) ∉ FixedType.defaultMembers := by
  simp [FixedType.defaultMembers, tagKey]

theorem settled_of_mem_members {p : Precision} {room : Nat} :
    ∀ member ∈ p.members, Settled room member.2 := by
  cases p <;>
    simp [members, fieldMembers, FixedType.members, Json.name, Json.nat, Settled.string,
      Settled.number, Settled.bool]

theorem integral_word (n : UInt32) : (Json.nat n.toNat).Integral := by
  have hword := n.toNat_lt
  have hsize : UInt64.size = 18446744073709551616 := rfl
  rw [Json.nat, integral_number_iff, Number.integral_int_iff]
  omega

theorem integral_of_mem_members {p : Precision} : ∀ member ∈ p.members, member.2.Integral := by
  cases p <;> simp [members, fieldMembers, FixedType.members, Json.name, integral_word]

/-- The tag stands among the members of the record. -/
theorem ObjectForm.exists_fields {p : Precision} {given : List (String × Json)}
    (h : p.ObjectForm given) :
    ∃ before after, given = before ++ (tagKey, Json.name p.tag) :: after ∧
      before ++ after ⊆ p.fieldMembers ∧ ((before ++ after).map Prod.fst).Nodup ∧
      ∀ member ∈ p.fieldMembers, member ∈ before ++ after ∨ member ∈ FixedType.defaultMembers := by
  have htag : (tagKey, Json.name p.tag) ∈ given :=
    (h.complete _ List.mem_cons_self).resolve_right (tag_not_mem_defaultMembers _)
  obtain ⟨before, after, rfl⟩ := List.append_of_mem htag
  have hnodup : ((tagKey, Json.name p.tag) :: (before ++ after) |>.map Prod.fst).Nodup :=
    (List.perm_middle.map Prod.fst).nodup_iff.mp h.nodup
  obtain ⟨hkey, hnodup⟩ := List.nodup_cons.mp hnodup
  have hmem : ∀ member, member ∈ before ++ (tagKey, Json.name p.tag) :: after ↔
      member = (tagKey, Json.name p.tag) ∨ member ∈ before ++ after := fun member =>
    List.perm_middle.mem_iff.trans List.mem_cons
  refine ⟨before, after, rfl, ?_, hnodup, ?_⟩
  · intro member hmember
    rcases List.mem_cons.mp (h.subset ((hmem member).mpr (.inr hmember))) with rfl | hfield
    · exact absurd (List.mem_map_of_mem hmember) hkey
    · exact hfield
  · intro member hmember
    refine (h.complete member (List.mem_cons_of_mem _ hmember)).imp_left fun hgiven => ?_
    rcases (hmem member).mp hgiven with rfl | hother
    · exact absurd (List.mem_map_of_mem hmember) p.tagKey_not_mem
    · exact hother

theorem decoder_object {p : Precision} {given : List (String × Json)} (h : p.ObjectForm given) :
    decoder (Json.object given).document = .ok p := by
  obtain ⟨before, after, rfl, hgiven, hnodup, hcomplete⟩ := h.exists_fields
  have hkey : tagKey ∉ (before ++ after).map Prod.fst := fun hkey =>
    p.tagKey_not_mem (List.map_subset _ hgiven hkey)
  have haside := aside_of_settled hkey fun member hmember =>
    settled_of_mem_members member (List.mem_cons_of_mem _ (hgiven hmember))
  rw [memberDocuments_append] at haside
  simp only [document, decoder, memberDocuments_append, memberDocuments,
    findTag_append p.tag haside, ok_bind, Stop.check]
  rw [← memberDocuments_append]
  exact p.ofStore_object hgiven hnodup hcomplete

theorem forM_putAside {items : List Json}
    (h : ∀ item ∈ items, Settled (Decoder.maxDepth - 1) item) :
    (itemDocuments items).forM putAside = .ok () := by
  induction items with
  | nil => rfl
  | cons item items ih =>
      obtain ⟨hitem, hitems⟩ := List.forall_mem_cons.mp h
      have hstep : (itemDocuments (item :: items)).forM putAside =
          (putAside item.document >>= fun _ => (itemDocuments items).forM putAside) := rfl
      rw [hstep, putAside_document hitem, ok_bind, ih hitems]

theorem ArrayForm.exists_member {p : Precision} {items : List Json} (h : p.ArrayForm items) :
    ∀ item ∈ items, ∃ member ∈ p.members, member.2 = item := by
  obtain ⟨given, left, hmembers, -, rfl⟩ := h
  intro item hitem
  obtain ⟨member, hmember, rfl⟩ := List.mem_map.mp hitem
  exact ⟨member, hmembers ▸ List.mem_append_left left hmember, rfl⟩

theorem decoder_array {p : Precision} {items : List Json} (h : p.ArrayForm items) :
    decoder (Json.array items).document = .ok p := by
  have hsettled : ∀ item ∈ items, Settled (Decoder.maxDepth - 1) item := by
    intro item hitem
    obtain ⟨member, hmember, rfl⟩ := h.exists_member item hitem
    exact settled_of_mem_members member hmember
  obtain ⟨given, left, hmembers, hleft, rfl⟩ := h
  cases given with
  | nil =>
      have htag : (tagKey, Json.name p.tag) ∈ left := by
        rw [← List.nil_append left, ← hmembers]
        exact List.mem_cons_self
      exact absurd (hleft htag) (tag_not_mem_defaultMembers _)
  | cons first given =>
      obtain ⟨rfl, hfields⟩ := List.cons.inj hmembers
      obtain ⟨-, hsettled⟩ := List.forall_mem_cons.mp hsettled
      simp only [List.map_cons, document, itemDocuments, decoder, readTag_name, ok_bind,
        forM_putAside hsettled, Stop.check]
      exact p.ofStore_array hfields hleft

end Precision

/-- A precision is read from its JSON text whatever the order of the members, the tag among them,
and from an array of their values. Members with default values may be left out of the object, and
default values at the end of the array. -/
theorem decoder_forms (p : Precision) :
    p.toJson = .object p.members ∧
      (∀ given, p.ObjectForm given →
        Decoder.run Precision.decoder (Json.object given).compact = .ok p) ∧
      ∀ items, p.ArrayForm items →
        Decoder.run Precision.decoder (Json.array items).compact = .ok p := by
  refine ⟨p.toJson_eq, ?_, ?_⟩
  · intro given h
    have hintegral : (Json.object given).Integral :=
      .object fun member hmember => Precision.integral_of_mem_members member (h.subset hmember)
    rw [Decoder.run_compact _ hintegral]
    exact Precision.decoder_object h
  · intro items h
    have hintegral : (Json.array items).Integral := by
      refine .array fun item hitem => ?_
      obtain ⟨member, hmember, rfl⟩ := h.exists_member item hitem
      exact Precision.integral_of_mem_members member hmember
    rw [Decoder.run_compact _ hintegral]
    exact Precision.decoder_array h

/-- The tag may come late, and a default mode may be left out even before one that is not. -/
theorem decoder_forms_late_tag :
    let p : Precision := .fixed ⟨4294967295, 3, true, default, .saturate, 0⟩
    let given : List (String × Json) :=
      [("saturation_mode", .string "SAT"), ("signed", .bool true), ("width", .nat 4294967295),
       ("family", .string "custom"), ("integer_bits", .nat 3)]
    let items : List Json :=
      [.string "custom", .nat 4294967295, .nat 3, .bool true, .string "TRN", .string "SAT"]
    p.ObjectForm given ∧ Decoder.run Precision.decoder (Json.object given).compact = .ok p ∧
      p.ArrayForm items ∧ Decoder.run Precision.decoder (Json.array items).compact = .ok p := by
  intro p given items
  have hmembers : p.members =
      [("family", .string "custom"), ("width", .nat 4294967295), ("integer_bits", .nat 3),
       ("signed", .bool true), ("rounding_mode", .string "TRN"), ("saturation_mode", .string "SAT"),
       ("saturation_bits", .nat 0)] := rfl
  have hobject : p.ObjectForm given := by
    refine ⟨?_, by decide, ?_⟩
    · rw [hmembers]
      simp [given]
    · rw [hmembers]
      simp [given, FixedType.defaultMembers]
  have harray : p.ArrayForm items := by
    refine ⟨p.members.take 6, [("saturation_bits", .nat 0)], rfl, ?_, rfl⟩
    simp [FixedType.defaultMembers]
  obtain ⟨-, hobjects, harrays⟩ := decoder_forms p
  exact ⟨hobject, hobjects given hobject, harray, harrays items harray⟩

end FabricConfig

import FabricConfig.Proofs.Json.Record
import Mathlib.Data.List.Nodup

/-! Records that are filled member by member. The order in which members of an object come does not
matter, and optional members with their default value may be missing; the items of an array come in
the order of the fields, and only the last ones may be missing. -/

namespace FabricConfig.Json.Record

variable {α : Type} {record : Record α} {members optional given : List (String × Json)} {a : α}
  {filled : List String → α}

/-- How `members` fill a record. Once those with the keys `seen` have been read, the record is
`filled seen`, and once all but some of `optional` have been read, it is `a`. -/
structure Filling (record : Record α) (members optional : List (String × Json)) (a : α)
    (filled : List String → α) : Prop where
  keys : members.map Prod.fst = record.fields.map Field.key
  nodup : (record.fields.map Field.key).Nodup
  blank : filled [] = record.blank
  step : ∀ member ∈ members, ∀ field, record.field? member.1 = some field →
    ∀ seen, member.1 ∉ seen →
      field.store member.2.document (filled seen) = .ok (filled (member.1 :: seen))
  full : ∀ seen, (∀ member ∈ members, member.1 ∈ seen ∨ member ∈ optional) → filled seen = a
  required : ∀ field ∈ record.fields, field.required = true → ∀ member ∈ optional,
    member.1 ≠ field.key

/-- Keys tell fields apart. -/
theorem field?_of_mem (hnodup : (record.fields.map Field.key).Nodup) {field : Field α}
    (hfield : field ∈ record.fields) : record.field? field.key = some field := by
  cases hfind : record.field? field.key with
  | none => exact absurd (List.mem_map_of_mem hfield) (field?_eq_none_iff.mp hfind)
  | some found =>
      have hkey : found.key = field.key := by simpa using List.find?_some hfind
      rw [List.inj_on_of_nodup_map hnodup (List.mem_of_find?_eq_some hfind) hfield hkey]

namespace Filling

theorem mem_of_required (h : record.Filling members optional a filled) {seen : List String}
    (hseen : ∀ member ∈ members, member.1 ∈ seen ∨ member ∈ optional) :
    ∀ field ∈ record.fields, field.required = true → field.key ∈ seen := by
  intro field hfield hrequired
  have hkey : field.key ∈ members.map Prod.fst := h.keys ▸ List.mem_map_of_mem hfield
  obtain ⟨member, hmember, hname⟩ := List.mem_map.mp hkey
  rcases hseen member hmember with hseen | hoptional
  · exact hname ▸ hseen
  · exact absurd hname (h.required field hfield hrequired member hoptional)

/-! ### Objects -/

theorem exists_field (h : record.Filling members optional a filled) {member : String × Json}
    (hmember : member ∈ members) : ∃ field, record.field? member.1 = some field := by
  have hkey : member.1 ∈ record.fields.map Field.key := h.keys ▸ List.mem_map_of_mem hmember
  exact Option.ne_none_iff_exists'.mp fun hnone => field?_eq_none_iff.mp hnone hkey

theorem readMembers (h : record.Filling members optional a filled)
    (other : String → Document → α → Except DecodeError α) (hgiven : given ⊆ members)
    (hnodup : (given.map Prod.fst).Nodup) {seen : List String}
    (hseen : (given.map Prod.fst).Disjoint seen) :
    record.readMembers other seen (filled seen) (memberDocuments given) =
      .ok ((given.map Prod.fst).reverse ++ seen, filled ((given.map Prod.fst).reverse ++ seen)) := by
  induction given generalizing seen with
  | nil => rfl
  | cons member given ih =>
      obtain ⟨hmember, hgiven⟩ := List.cons_subset.mp hgiven
      obtain ⟨hnew, hnodup⟩ := List.nodup_cons.mp hnodup
      obtain ⟨hfirst, hseen⟩ := List.disjoint_cons_left.mp hseen
      obtain ⟨field, hfield⟩ := h.exists_field hmember
      have hstore := h.step member hmember field hfield seen hfirst
      rw [memberDocuments, readMembers_field hfield hfirst hstore,
        ih hgiven hnodup (List.disjoint_cons_right.mpr ⟨hnew, hseen⟩)]
      simp

theorem decoder_object (h : record.Filling members optional a filled) (origin : Decoder.Origin)
    (hgiven : given ⊆ members) (hnodup : (given.map Prod.fst).Nodup)
    (hcomplete : ∀ member ∈ members, member ∈ given ∨ member ∈ optional) :
    record.decoder origin (.object (memberDocuments given) .closed) = .ok a := by
  have hread := h.readMembers (ignoreOther origin) hgiven hnodup (List.disjoint_nil_right _)
  rw [h.blank, List.append_nil] at hread
  have hseen : ∀ member ∈ members,
      member.1 ∈ (given.map Prod.fst).reverse ∨ member ∈ optional := fun member hmember =>
    (hcomplete member hmember).imp_left fun hmem =>
      List.mem_reverse.mpr (List.mem_map_of_mem hmem)
  simp only [decoder, readObject, hread, ok_bind, Stop.check,
    missing?_eq_none_iff.mpr (h.mem_of_required hseen), h.full _ hseen, pure_eq_ok]

/-! ### Arrays -/

/-- The first items belong to the first fields, and the other fields keep their values. -/
theorem readItems (h : record.Filling members optional a filled)
    {fields : List (Field α)} (hfields : fields ⊆ record.fields)
    (hnodup : (fields.map Field.key).Nodup) (hgiven : given ⊆ members)
    (hkeys : given.map Prod.fst <+: fields.map Field.key)
    (hrequired : ∀ field ∈ fields, field.required = true → field.key ∈ given.map Prod.fst)
    {seen : List String} (hseen : (fields.map Field.key).Disjoint seen) (origin : Decoder.Origin)
    (index : Nat) :
    record.readItems origin .closed (filled seen) index fields
        (itemDocuments (given.map Prod.snd)) =
      .ok (filled ((given.map Prod.fst).reverse ++ seen)) := by
  induction fields generalizing given seen index with
  | nil =>
      obtain rfl : given = [] := by simpa using hkeys
      rfl
  | cons field fields ih =>
      obtain ⟨hfield, hfields⟩ := List.cons_subset.mp hfields
      obtain ⟨hnew, hnodup⟩ := List.nodup_cons.mp hnodup
      obtain ⟨hfirst, hseen⟩ := List.disjoint_cons_left.mp hseen
      obtain ⟨hneeded, hrequired⟩ := List.forall_mem_cons.mp hrequired
      cases given with
      | nil =>
          have hoptional : field.required = false := by simpa using hneeded
          have hrest := ih hfields hnodup hgiven List.nil_prefix hrequired hseen (index + 1)
          simpa [itemDocuments, readItems, Stop.check, hoptional] using hrest
      | cons member given =>
          obtain ⟨hkey, hkeys⟩ := List.cons_prefix_cons.mp hkeys
          obtain ⟨hmember, hgiven⟩ := List.cons_subset.mp hgiven
          rw [← hkey] at hnew hfirst
          have hfound : record.field? member.1 = some field := hkey ▸ field?_of_mem h.nodup hfield
          have hstore := h.step member hmember field hfound seen hfirst
          have hlater : ∀ other ∈ fields, other.required = true →
              other.key ∈ given.map Prod.fst := by
            intro other hother hneeded
            rcases List.mem_cons.mp (hrequired other hother hneeded) with hsame | hmem
            · exact absurd (hsame ▸ List.mem_map_of_mem hother) hnew
            · exact hmem
          have hrest := ih hfields hnodup hgiven hkeys hlater
            (List.disjoint_cons_right.mpr ⟨hnew, hseen⟩) (index + 1)
          simp only [List.map_cons, itemDocuments, readItems, hstore, ok_bind, hrest]
          simp

theorem decoder_array (h : record.Filling members optional a filled) (origin : Decoder.Origin)
    {left : List (String × Json)} (hmembers : members = given ++ left) (hleft : left ⊆ optional) :
    record.decoder origin (.array (itemDocuments (given.map Prod.snd)) .closed) = .ok a := by
  have hseen : ∀ member ∈ members, member.1 ∈ given.map Prod.fst ∨ member ∈ optional := by
    intro member hmember
    rw [hmembers] at hmember
    exact (List.mem_append.mp hmember).imp List.mem_map_of_mem (hleft ·)
  have hkeys : given.map Prod.fst <+: record.fields.map Field.key := by
    rw [← h.keys, hmembers, List.map_append]
    exact List.prefix_append _ _
  have hread := h.readItems (List.Subset.refl _) h.nodup
    (hmembers ▸ List.subset_append_left given left) hkeys (h.mem_of_required hseen)
    (List.disjoint_nil_right _) origin 0
  rw [h.blank, List.append_nil] at hread
  rw [decoder, hread, h.full]
  simpa using hseen

end Filling

end FabricConfig.Json.Record

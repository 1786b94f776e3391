import FabricConfig.Proofs.Resolution.WriteBack
import FabricConfig.Proofs.Settings.Uninterpreted

/-! Settings that are written back, compared with the text that they were read from. Members for
other tools have the same values, and of the others only the part and a section that is missing are
replaced. -/

namespace FabricConfig

open Json

/-! ### Reading settings -/

namespace Settings

variable {source : List (Option String × Document)} {stop : Stop} {settings : Settings}

/-- A field is read from the last member with its key. -/
theorem readAs_of_decoder {β : Type} {decoder' : Decoder β} {get : Settings → Option β}
    {key : String} (hkey : key ∈ interpretedKeys)
    (hstore : ∀ field ∈ record.fields, ∀ d a b, field.store d a = .ok b →
      (field.key = key ∧ Decoder.optional decoder' d = .ok (get b)) ∨
        (field.key ≠ key ∧ get b = get a))
    (hextra : ∀ (a : Settings) extra, get { a with extra } = get a) (hblank : get {} = none)
    (h : decoder (.object source stop) = .ok settings) :
    ReadAs decoder' (lastMember? key source) (get settings) := by
  obtain ⟨seen, hmembers⟩ := Record.exists_of_readObject_eq_ok h
  have hother : ∀ name d a b, keepOther name d a = .ok b → get b = get a := by
    intro name d a b hkeep
    obtain ⟨value, -, rfl⟩ := exists_of_keepOther hkeep
    exact hextra a _
  rcases Record.optional_of_readMembers hkey hstore hother hmembers with
    ⟨d, hlast, hdecode⟩ | ⟨hlast, hget⟩
  · rw [hlast]
    exact Decoder.readAs_of_optional hdecode
  · rw [hlast, hget, show get record.blank = none from hblank]
    exact .absent

theorem fields_of_decoder (h : decoder (.object source stop) = .ok settings) :
    ReadAs Decoder.string (lastMember? "Board" source) settings.board ∧
      ReadAs Decoder.string (lastMember? "XilinxPart" source) settings.part ∧
      ReadAs Section.decoder (lastMember? "AcceleratorConfig" source) settings.accelerator := by
  refine ⟨readAs_of_decoder (by simp [interpretedKeys]) ?_ (fun _ _ => rfl) rfl h,
    readAs_of_decoder (by simp [interpretedKeys]) ?_ (fun _ _ => rfl) rfl h,
    readAs_of_decoder (by simp [interpretedKeys]) ?_ (fun _ _ => rfl) rfl h⟩
  all_goals
    intro field hfield d a b hstore
    rcases cases_of_store hfield hstore with
      ⟨_, hkey, hd, rfl⟩ | ⟨_, hkey, hd, rfl⟩ | ⟨_, hkey, hd, rfl⟩
    all_goals simp [hkey, hd]

/-- Members for other tools have a value, and it is kept. -/
theorem extra_of_decoder (h : decoder (.object source stop) = .ok settings) {key : String}
    (hkey : key ∉ interpretedKeys) :
    (∃ d value, lastMember? key source = some d ∧ d.Denotes value ∧
        settings.extra.get? key = some value) ∨
      (lastMember? key source = none ∧ settings.extra.get? key = none) := by
  obtain ⟨seen, hmembers⟩ := Record.exists_of_readObject_eq_ok h
  have hiff (value : Json) : settings.extra.get? key = some value ↔ _ :=
    get?_extra_of_readMembers hkey hmembers
  cases hlast : lastMember? key source with
  | none =>
      refine .inr ⟨rfl, Option.eq_none_iff_forall_ne_some.mpr fun value hvalue => ?_⟩
      rcases (hiff value).mp hvalue with ⟨d, hd, -⟩ | ⟨-, hblank⟩
      · rw [hlast] at hd
        contradiction
      · contradiction
  | some d =>
      obtain ⟨before, after, hother⟩ :=
        Record.exists_other_of_readMembers hmembers hkey (mem_of_lastMember? hlast)
      obtain ⟨value, hvalue, -⟩ := exists_of_keepOther hother
      exact .inl ⟨d, value, rfl, Document.denotes_of_value hvalue,
        (hiff value).mpr (.inl ⟨d, hlast, hvalue⟩)⟩

theorem extra_eq_some_iff_gives (h : decoder (.object source stop) = .ok settings) {key : String}
    (hkey : key ∉ interpretedKeys) {value : Json} :
    settings.extra.get? key = some value ↔ Gives source key value := by
  rcases extra_of_decoder h hkey with ⟨d, stored, hlast, hdenotes, hget⟩ | ⟨hlast, hget⟩
  · rw [hget, Option.some.injEq]
    constructor
    · rintro rfl
      exact ⟨d, hlast, hdenotes⟩
    · exact fun hgives => Gives.unique ⟨d, hlast, hdenotes⟩ hgives
  · simp [Gives, hlast, hget]

theorem isSome_extra_of_decoder (h : decoder (.object source stop) = .ok settings) {key : String}
    (hkey : key ∉ interpretedKeys) :
    (settings.extra.get? key).isSome ↔ (lastMember? key source).isSome := by
  rcases extra_of_decoder h hkey with ⟨d, stored, hlast, -, hget⟩ | ⟨hlast, hget⟩ <;>
    simp [hlast, hget]

/-! ### Writing settings back -/

/-- The members that settings are written as. -/
def members (settings : Settings) : List (String × Json) :=
  member? "Board" .string settings.board ++ member? "XilinxPart" .string settings.part ++
    member? "AcceleratorConfig" Section.toJson settings.accelerator ++ settings.extra.entries

theorem toJson_eq_object (settings : Settings) : settings.toJson = .object settings.members :=
  rfl

theorem lookup_members_of_not_interpreted {key : String} (h : key ∉ interpretedKeys) :
    settings.members.lookup key = settings.extra.get? key := by
  have hpath : settings.toJson.at? [key] = settings.extra.get? key :=
    at?_toJson_of_not_interpreted h
  simpa [toJson_eq_object, Json.at?] using hpath

theorem Sound.lookup_members (h : settings.Sound) :
    settings.members.lookup "Board" = settings.board.map .string ∧
      settings.members.lookup "XilinxPart" = settings.part.map .string ∧
      settings.members.lookup "AcceleratorConfig" = settings.accelerator.map Section.toJson := by
  have hboard : settings.extra.entries.lookup "Board" = none := h.get?_eq_none (by decide)
  have hpart : settings.extra.entries.lookup "XilinxPart" = none := h.get?_eq_none (by decide)
  have haccelerator : settings.extra.entries.lookup "AcceleratorConfig" = none :=
    h.get?_eq_none (by decide)
  simp [members, List.lookup_append, lookup_member?_self, lookup_member?_of_ne, hboard, hpart,
    haccelerator]

theorem filter_member?_eq_nil {α : Type} {key : String} (h : key ∈ interpretedKeys)
    (toJson : α → Json) (value : Option α) :
    (member? key toJson value).filter (fun member => member.1 ∉ interpretedKeys) = [] := by
  cases value <;> simp [member?, h]

theorem Sound.filter_members (h : settings.Sound) :
    settings.members.filter (fun member => member.1 ∉ interpretedKeys) =
      settings.extra.entries := by
  have hextra : settings.extra.entries.filter (fun member => member.1 ∉ interpretedKeys) =
      settings.extra.entries :=
    List.filter_eq_self.mpr fun entry hentry => decide_eq_true (h.not_interpreted entry hentry)
  rw [members, List.filter_append, List.filter_append, List.filter_append, hextra,
    filter_member?_eq_nil (by decide), filter_member?_eq_nil (by decide),
    filter_member?_eq_nil (by decide)]
  rfl

/-- What is written back of the members of a text, once the part is resolved: members for other
tools with the values they had, the board that was given, the resolved part in place of another one,
and the section that was read or the fallback. -/
structure WrittenBack (source : List (Option String × Document)) (part : String)
    (members : List (String × Json)) : Prop where
  nodup : (members.map Prod.fst).Nodup
  ascending : Ascending (members.filter fun member => member.1 ∉ interpretedKeys)
  mem_iff : ∀ key ∉ interpretedKeys,
    key ∈ members.map Prod.fst ↔ some key ∈ source.map Prod.fst
  other_iff : ∀ key ∉ interpretedKeys, ∀ value,
    members.lookup key = some value ↔ Gives source key value
  board_iff : ∀ value,
    members.lookup "Board" = some value ↔ Gives source "Board" value ∧ value ≠ .null
  part_iff : ∀ value, members.lookup "XilinxPart" = some value ↔
    value = .string part ∧ ∃ given, Gives source "XilinxPart" given ∧ given ≠ .null
  accelerator : ∃ accelerator, ReadAs Section.decoder (lastMember? "AcceleratorConfig" source)
      accelerator ∧
    members.lookup "AcceleratorConfig" = some (accelerator.getD Section.fallback).toJson

theorem writtenBack_corrected (h : decoder (.object source stop) = .ok settings)
    (hsound : settings.Sound) {resolver : Resolver} (hresolver : resolver.accelerator = none)
    (canonical : String) :
    WrittenBack source canonical (resolver.corrected settings canonical).members := by
  obtain ⟨hboard, hpart, haccelerator⟩ := fields_of_decoder h
  have hcorrected : (resolver.corrected settings canonical).Sound := hsound.of_extra_eq rfl
  obtain ⟨hboard', hpart', haccelerator'⟩ := hcorrected.lookup_members
  constructor
  case nodup =>
    obtain ⟨members, hmembers, hnodup⟩ := nodup_keys_toJson hcorrected
    obtain rfl := Json.object.inj (hmembers.symm.trans (toJson_eq_object _))
    exact hnodup
  case ascending =>
    rw [hcorrected.filter_members]
    exact settings.extra.ascending
  case mem_iff =>
    intro key hkey
    rw [← isSome_lookup_iff, lookup_members_of_not_interpreted hkey, ← isSome_lastMember?_iff]
    exact isSome_extra_of_decoder h hkey
  case other_iff =>
    intro key hkey value
    rw [lookup_members_of_not_interpreted hkey]
    exact extra_eq_some_iff_gives h hkey
  case board_iff =>
    intro value
    rw [hboard']
    exact hboard.map_string_eq_some_iff
  case part_iff =>
    intro value
    rw [hpart', Resolver.corrected]
    simp only [← hpart.map_string_eq_some_iff]
    cases settings.part <;> simp [eq_comm]
  case accelerator =>
    refine ⟨settings.accelerator, haccelerator, ?_⟩
    rw [haccelerator', Resolver.corrected, hresolver]
    cases settings.accelerator <;> rfl

end Settings

end FabricConfig

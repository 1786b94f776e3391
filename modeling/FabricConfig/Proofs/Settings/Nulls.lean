import FabricConfig.Proofs.Json.Acceptance
import FabricConfig.Proofs.Json.Omission
import FabricConfig.Proofs.Settings.Source

/-! Null members of settings. Each key that settings interpret, on any of the three levels, may be
given as null instead of being left out. All other keys of the settings are for other tools, for
which a null is a value like any other. -/

namespace FabricConfig

open Json

/-! ### Keys that may be null -/

/-- The keys that may be null in the object that a path leads to, in a pair of specs. -/
def SpecPair.optionalKeys : List String → List String
  | [] => ["Input", "Output"]
  | _ => []

/-- The keys that may be null in a section on the accelerator. -/
def Section.optionalKeys : List String → List String
  | [] => ["Precision", "Driver", "Interface"]
  | "Precision" :: path => SpecPair.optionalKeys path
  | _ => []

/-- The keys that may be null in settings. -/
def Settings.optionalKeys : List String → List String
  | [] => ["Board", "XilinxPart", "AcceleratorConfig"]
  | "AcceleratorConfig" :: path => Section.optionalKeys path
  | _ => []

/-- Passing over a member does nothing to the record. -/
theorem Json.Record.eq_of_ignoreOther {α : Type} {key : String} {d : Document} {a b : α}
    (h : Record.ignoreOther .text key d a = .ok b) : b = a := by
  obtain ⟨_, _, hb⟩ := bind_eq_ok_iff.mp h
  exact (Except.ok.inj hb).symm

namespace SpecPair

/-- What storing a field does. -/
theorem cases_of_store {field : Json.Field SpecPair} (hfield : field ∈ record.fields) {d : Document}
    {a b : SpecPair} (h : field.store d a = .ok b) :
    (∃ input, field.key = "Input" ∧ Decoder.optional Decoder.string d = .ok input ∧
        b = { a with input }) ∨
      (∃ output, field.key = "Output" ∧ Decoder.optional Decoder.string d = .ok output ∧
        b = { a with output }) := by
  simp only [record, List.mem_cons, List.not_mem_nil, or_false] at hfield
  rcases hfield with rfl | rfl
  all_goals
    obtain ⟨value, hvalue, hb⟩ := bind_eq_ok_iff.mp h
    obtain rfl := Except.ok.inj hb
  · exact .inl ⟨value, rfl, hvalue, rfl⟩
  · exact .inr ⟨value, rfl, hvalue, rfl⟩

theorem strict_decoder : decoder.Strict := by
  refine Record.strict_decoder fun field hfield d a b hstore => ?_
  rcases cases_of_store hfield hstore with ⟨_, -, hd, -⟩ | ⟨_, -, hd, -⟩
  all_goals exact Decoder.strict_string.optional d _ hd

theorem omits :
    record.Omits (Record.ignoreOther .text) "Input" (·.input = none) ∧
      record.Omits (Record.ignoreOther .text) "Output" (·.output = none) := by
  refine ⟨Record.omits_of_get input rfl ?_ ?_ ?_ rfl,
    Record.omits_of_get output rfl ?_ ?_ ?_ rfl⟩
  case refine_1 | refine_4 => exact fun ⟨_, _⟩ hnone => by cases hnone; rfl
  case refine_2 | refine_5 =>
    intro field hfield hkey d a b hstore
    rcases cases_of_store hfield hstore with ⟨_, hname, -, rfl⟩ | ⟨_, hname, -, rfl⟩ <;>
      first | rfl | exact absurd hname hkey
  all_goals exact fun _ _ _ _ hother => congrArg _ (Record.eq_of_ignoreOther hother)

theorem ignoresNull : decoder.IgnoresNull optionalKeys := by
  obtain ⟨hinput, houtput⟩ := omits
  refine Record.ignoresNull (fun _ => rfl) ?_ fun _ _ hkeys => absurd rfl hkeys
  simp only [optionalKeys, List.forall_mem_cons]
  exact ⟨⟨_, hinput⟩, ⟨_, houtput⟩, by simp⟩

end SpecPair

namespace Section

/-- What storing a field does. -/
theorem cases_of_store {field : Json.Field Section} (hfield : field ∈ record.fields) {d : Document}
    {a b : Section} (h : field.store d a = .ok b) :
    (∃ precision, field.key = "Precision" ∧
        Decoder.optional SpecPair.decoder d = .ok precision ∧ b = { a with precision }) ∨
      (∃ driver, field.key = "Driver" ∧
        Decoder.optional (Decoder.named .text) d = .ok driver ∧ b = { a with driver }) ∨
      (∃ interface, field.key = "Interface" ∧
        Decoder.optional (Decoder.named .text) d = .ok interface ∧ b = { a with interface }) := by
  simp only [record, List.mem_cons, List.not_mem_nil, or_false] at hfield
  rcases hfield with rfl | rfl | rfl
  all_goals
    obtain ⟨value, hvalue, hb⟩ := bind_eq_ok_iff.mp h
    obtain rfl := Except.ok.inj hb
  · exact .inl ⟨value, rfl, hvalue, rfl⟩
  · exact .inr (.inl ⟨value, rfl, hvalue, rfl⟩)
  · exact .inr (.inr ⟨value, rfl, hvalue, rfl⟩)

theorem strict_decoder : decoder.Strict := by
  refine Record.strict_decoder fun field hfield d a b hstore => ?_
  rcases cases_of_store hfield hstore with ⟨_, -, hd, -⟩ | ⟨_, -, hd, -⟩ | ⟨_, -, hd, -⟩
  · exact SpecPair.strict_decoder.optional d _ hd
  · exact Decoder.strict_named.optional d _ hd
  · exact Decoder.strict_named.optional d _ hd

theorem omits :
    record.Omits (Record.ignoreOther .text) "Precision" (·.precision = none) ∧
      record.Omits (Record.ignoreOther .text) "Driver" (·.driver = none) ∧
      record.Omits (Record.ignoreOther .text) "Interface" (·.interface = none) := by
  refine ⟨Record.omits_of_get precision rfl ?_ ?_ ?_ rfl,
    Record.omits_of_get driver rfl ?_ ?_ ?_ rfl,
    Record.omits_of_get interface rfl ?_ ?_ ?_ rfl⟩
  case refine_1 | refine_4 | refine_7 => exact fun ⟨_, _, _⟩ hnone => by cases hnone; rfl
  case refine_2 | refine_5 | refine_8 =>
    intro field hfield hkey d a b hstore
    rcases cases_of_store hfield hstore with
      ⟨_, hname, -, rfl⟩ | ⟨_, hname, -, rfl⟩ | ⟨_, hname, -, rfl⟩ <;>
      first | rfl | exact absurd hname hkey
  all_goals exact fun _ _ _ _ hother => congrArg _ (Record.eq_of_ignoreOther hother)

theorem ignoresNull : decoder.IgnoresNull optionalKeys := by
  obtain ⟨hprecision, hdriver, hinterface⟩ := omits
  refine Record.ignoresNull (fun _ => rfl) ?_ fun name path hkeys => ?_
  · simp only [optionalKeys, List.forall_mem_cons]
    exact ⟨⟨_, hprecision⟩, ⟨_, hdriver⟩, ⟨_, hinterface⟩, by simp⟩
  obtain rfl : name = "Precision" := by
    by_contra hname
    exact hkeys (by simp [optionalKeys, hname])
  refine ⟨_, rfl, fun key hkey d d' hinserts a b hstore => ?_⟩
  obtain ⟨value, hvalue, hb⟩ := bind_eq_ok_iff.mp hstore
  have hsame := SpecPair.ignoresNull.optional path key d d' hkey hinserts value hvalue
  exact bind_eq_ok_iff.mpr ⟨value, hsame, hb⟩

end Section

namespace Settings

theorem strict_decoder : decoder.Strict := by
  intro d settings h
  unfold decoder at h
  split at h
  · refine Record.complete_of_readObject (fun field hfield d a b hstore => ?_)
      (fun key d a b hkeep => ?_) h
    · rcases cases_of_store hfield hstore with ⟨_, -, hd, -⟩ | ⟨_, -, hd, -⟩ | ⟨_, -, hd, -⟩
      · exact Decoder.strict_string.optional d _ hd
      · exact Decoder.strict_string.optional d _ hd
      · exact Section.strict_decoder.optional d _ hd
    · obtain ⟨value, hvalue, -⟩ := exists_of_keepOther hkeep
      exact Document.complete_of_value hvalue
  · obtain ⟨found, -, hmismatch⟩ := bind_eq_ok_iff.mp h
    contradiction

theorem omits :
    record.Omits keepOther "Board" (·.board = none) ∧
      record.Omits keepOther "XilinxPart" (·.part = none) ∧
      record.Omits keepOther "AcceleratorConfig" (·.accelerator = none) := by
  refine ⟨Record.omits_of_get board rfl ?_ ?_ ?_ rfl, Record.omits_of_get part rfl ?_ ?_ ?_ rfl,
    Record.omits_of_get accelerator rfl ?_ ?_ ?_ rfl⟩
  case refine_1 | refine_4 | refine_7 => exact fun ⟨_, _, _, _⟩ hnone => by cases hnone; rfl
  case refine_2 | refine_5 | refine_8 =>
    intro field hfield hkey d a b hstore
    rcases cases_of_store hfield hstore with
      ⟨_, hname, -, rfl⟩ | ⟨_, hname, -, rfl⟩ | ⟨_, hname, -, rfl⟩ <;>
      first | rfl | exact absurd hname hkey
  all_goals
    intro name d a b hkeep
    obtain ⟨value, -, rfl⟩ := exists_of_keepOther hkeep
    rfl

theorem ignoresNull : decoder.IgnoresNull optionalKeys := by
  obtain ⟨hboard, hpart, haccelerator⟩ := omits
  refine Record.ignoresNull (fun _ => rfl) ?_ fun name path hkeys => ?_
  · simp only [optionalKeys, List.forall_mem_cons]
    exact ⟨⟨_, hboard⟩, ⟨_, hpart⟩, ⟨_, haccelerator⟩, by simp⟩
  obtain rfl : name = "AcceleratorConfig" := by
    by_contra hname
    exact hkeys (by simp [optionalKeys, hname])
  refine ⟨_, rfl, fun key hkey d d' hinserts a b hstore => ?_⟩
  obtain ⟨value, hvalue, hb⟩ := bind_eq_ok_iff.mp hstore
  have hsame := Section.ignoresNull.optional path key d d' hkey hinserts value hvalue
  exact bind_eq_ok_iff.mpr ⟨value, hsame, hb⟩

/-! ### Members for other tools -/

theorem store_withExtra {field : Json.Field Settings} (hfield : field ∈ record.fields)
    {d : Document} {a b : Settings} (h : field.store d a = .ok b) (extra : Table Json) :
    field.store d { a with extra } = .ok { b with extra } := by
  simp only [record, List.mem_cons, List.not_mem_nil, or_false] at hfield
  rcases hfield with rfl | rfl | rfl
  all_goals
    obtain ⟨value, hvalue, hb⟩ := bind_eq_ok_iff.mp h
    obtain rfl := Except.ok.inj hb
    exact bind_eq_ok_iff.mpr ⟨value, hvalue, rfl⟩

theorem keepOther_of_value (key : String) {d : Document} {value : Json}
    (h : d.value (Decoder.maxDepth - 1) = .ok value) (settings : Settings) :
    keepOther key d settings = .ok { settings with extra := settings.extra.insert key value } := by
  rw [keepOther, h]
  rfl

/-- A value that was kept earlier is still there after more members are read, unless one of them has
its key. -/
theorem readMembers_withInsert {key : String} (value : Json) (hkey : key ∉ interpretedKeys)
    {members : List (Option String × Document)} {seen seen' : List String} {a b : Settings}
    (h : record.readMembers keepOther seen a members = .ok (seen', b)) :
    record.readMembers keepOther seen { a with extra := a.extra.insert key value } members =
      .ok (seen', { b with
        extra := if some key ∈ members.map Prod.fst then b.extra
          else b.extra.insert key value }) := by
  induction members generalizing seen a with
  | nil =>
      obtain ⟨rfl, rfl⟩ := Prod.mk.inj (Except.ok.inj h)
      rfl
  | cons member members ih =>
      obtain ⟨found, d⟩ := member
      obtain ⟨name, rfl, ⟨field, hfield, hname, next, hnext, hrest⟩ |
        ⟨hnone, next, hnext, hrest⟩⟩ := Record.readMembers_cons_eq_ok_iff.mp h
      · have hmem := List.mem_of_find?_eq_some hfield
        have hne : key ≠ name := by
          rintro rfl
          have hfieldKey : field.key = key := by simpa using List.find?_some hfield
          exact hkey (List.mem_map.mpr ⟨field, hmem, hfieldKey⟩)
        have hlater : some key ∈ ((some name, d) :: members).map Prod.fst ↔
            some key ∈ members.map Prod.fst := by simp [hne]
        have hstored := store_withExtra hmem hnext (a.extra.insert key value)
        have hextra := ih hrest
        rw [extra_of_store hmem hnext] at hextra
        rw [Record.readMembers_field hfield hname hstored, hextra]
        simp only [hlater]
      · obtain ⟨kept, hkept, rfl⟩ := exists_of_keepOther hnext
        have hother := keepOther_of_value name hkept { a with extra := a.extra.insert key value }
        rw [Record.readMembers_other (Record.field?_eq_none_iff.mp hnone) hother]
        by_cases hname : key = name
        · subst hname
          simp only [Table.insert_insert, hrest, List.map_cons, List.mem_cons, true_or, if_true]
        · have hlater : some key ∈ ((some name, d) :: members).map Prod.fst ↔
              some key ∈ members.map Prod.fst := by simp [hname]
          have hextra := ih hrest
          simp only [Table.insert_comm a.extra hname, hextra, hlater]

/-- A null member for other tools is kept, unless a later one has its key. -/
theorem decoder_insert_null {key : String} (hkey : key ∉ interpretedKeys)
    {before after : List (Option String × Document)} {settings : Settings}
    (h : decoder (.object (before ++ after) .closed) = .ok settings) :
    decoder (.object (before ++ (some key, .null) :: after) .closed) =
      .ok { settings with
        extra := if some key ∈ after.map Prod.fst then settings.extra
          else settings.extra.insert key .null } := by
  obtain ⟨-, seen, hmembers, hmissing⟩ := Record.readObject_eq_ok_iff.mp h
  rw [Record.readMembers_append] at hmembers
  obtain ⟨⟨middle, a⟩, hbefore, hafter⟩ := bind_eq_ok_iff.mp hmembers
  refine Record.readObject_eq_ok_iff.mpr ⟨rfl, seen, ?_, hmissing⟩
  rw [Record.readMembers_append, hbefore, ok_bind]
  dsimp only
  rw [Record.readMembers_other hkey (keepOther_of_value key rfl a)]
  exact readMembers_withInsert .null hkey hafter

/-! ### Members that are missing -/

theorem accelerator_eq_none {members : List (Option String × Document)} {settings : Settings}
    (hnew : some "AcceleratorConfig" ∉ members.map Prod.fst)
    (h : decoder (.object members .closed) = .ok settings) : settings.accelerator = none := by
  obtain ⟨-, -, homits⟩ := omits
  obtain ⟨seen, hmembers⟩ := Record.exists_of_readObject_eq_ok h
  exact homits.unset_of_readMembers hnew homits.blank hmembers

/-- A section is read from the only member with its key. -/
theorem exists_accelerator {before after : List (Option String × Document)} {d : Document}
    (hd : d ≠ .null) {settings : Settings}
    (h : decoder (.object (before ++ (some "AcceleratorConfig", d) :: after) .closed) =
      .ok settings) :
    ∃ accelerator,
      settings.accelerator = some accelerator ∧ Section.decoder d = .ok accelerator := by
  obtain ⟨seen, hmembers⟩ := Record.exists_of_readObject_eq_ok h
  rw [Record.readMembers_append] at hmembers
  obtain ⟨⟨middle, a⟩, -, hrest⟩ := bind_eq_ok_iff.mp hmembers
  obtain ⟨name, hname, ⟨field, hfield, -, next, -, hafter⟩ | ⟨hnone, -⟩⟩ :=
    Record.readMembers_cons_eq_ok_iff.mp hrest
  · obtain rfl := Option.some.inj hname
    have hlater := Record.not_mem_of_readMembers hfield List.mem_cons_self hafter
    have hread := (fields_of_decoder h).2.2
    rw [lastMember?_append_cons hlater] at hread
    generalize settings.accelerator = result at hread
    cases hread with
    | null => exact absurd rfl hd
    | @given _ accelerator _ hdecode => exact ⟨accelerator, rfl, hdecode⟩
  · obtain rfl := Option.some.inj hname
    contradiction

theorem precision_eq_none {d d' : Document}
    (hinserts : Document.Inserts "Precision" .null ["AcceleratorConfig"] d d') {settings : Settings}
    (h : decoder d = .ok settings) :
    ∃ accelerator, settings.accelerator = some accelerator ∧ accelerator.precision = none := by
  obtain ⟨homits, -, -⟩ := Section.omits
  cases hinserts with
  | inside hinner =>
      cases hinner with
      | here hnew =>
          obtain ⟨accelerator, hsome, hdecode⟩ := exists_accelerator Document.noConfusion h
          obtain ⟨seen, hmembers⟩ := Record.exists_of_readObject_eq_ok hdecode
          exact ⟨accelerator, hsome, homits.unset_of_readMembers hnew homits.blank hmembers⟩

end Settings

namespace Resolver

variable {resolver : Resolver} {settings : Settings} {boardInfo : Board}

/-- A section that nothing gives is made up. -/
theorem exists_resolve_fallback (hresolver : resolver.accelerator = none)
    (hsettings : settings.accelerator = none)
    (hboard : resolver.catalog.board (resolver.selectedBoard settings) = .ok boardInfo)
    (input output : Tensor) :
    ∃ resolution, resolver.resolve settings [input] [output] = .ok resolution ∧
      .accelerator .fallback ∈ resolution.corrections := by
  have hspecs : (resolver.selectedSection settings).specs = .ok ("float", "float") := by
    rw [selectedSection, hresolver, hsettings]
    rfl
  have hcorrections : resolver.sectionCorrections settings = [.accelerator .fallback] := by
    rw [sectionCorrections, hresolver, hsettings]
    rfl
  refine ⟨_, resolve_of_specs resolver settings hboard hspecs input output, ?_⟩
  exact List.mem_append_right _ (hcorrections ▸ List.mem_cons_self)

/-- Specs that are missing are not made up. -/
theorem resolve_precision_missing (hresolver : resolver.accelerator = none) {accelerator : Section}
    (hsettings : settings.accelerator = some accelerator)
    (hprecision : accelerator.precision = none)
    (hboard : resolver.catalog.board (resolver.selectedBoard settings) = .ok boardInfo)
    (inputs outputs : List Tensor) :
    resolver.resolve settings inputs outputs = .error (.incomplete "Precision") := by
  have hspecs : (resolver.selectedSection settings).specs = .error (.incomplete "Precision") := by
    rw [selectedSection, hresolver, hsettings]
    simp [Section.specs, hprecision]
  rw [resolve_eq, hboard, hspecs]
  rfl

end Resolver

end FabricConfig

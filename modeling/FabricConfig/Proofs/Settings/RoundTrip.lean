import FabricConfig.Proofs.Json.Integers
import FabricConfig.Proofs.Json.Record
import FabricConfig.Resolution.Basic
import FabricConfig.Settings.Encoding

/-! Settings survive being written and read. The members for other tools are those that no field is
for, and every value among them is one that reading gave. Reading establishes both, and nothing that
is done to settings afterwards touches these members. -/

namespace FabricConfig

open Json

/-! ### The section on the accelerator -/

theorem SpecPair.decoder_document (specs : SpecPair) :
    SpecPair.decoder specs.toJson.document = .ok specs := by
  obtain ⟨input, output⟩ := specs
  have hinput : SpecPair.record.Stores (Record.ignoreOther .text) ["Input"]
      (member? "Input" .string input) {} { input } :=
    Record.stores_optional rfl rfl rfl (fun _ => Json.noConfusion) (fun _ => rfl)
  have houtput : SpecPair.record.Stores (Record.ignoreOther .text) ["Output"]
      (member? "Output" .string output) { input } { input, output } :=
    Record.stores_optional rfl rfl rfl (fun _ => Json.noConfusion) (fun _ => rfl)
  exact (hinput.trans houtput (by simp)).readObject (by simp [SpecPair.record])

theorem Section.decoder_document (accelerator : Section) :
    Section.decoder accelerator.toJson.document = .ok accelerator := by
  obtain ⟨precision, driver, interface⟩ := accelerator
  have hprecision : Section.record.Stores (Record.ignoreOther .text) ["Precision"]
      (member? "Precision" SpecPair.toJson precision) {} { precision } :=
    Record.stores_optional rfl rfl rfl (fun _ => Json.noConfusion) SpecPair.decoder_document
  have hdriver : Section.record.Stores (Record.ignoreOther .text) ["Driver"]
      (member? "Driver" .name driver) { precision } { precision, driver } :=
    Record.stores_optional rfl rfl rfl (fun _ => Json.noConfusion) (Decoder.named_name .text)
  have hinterface : Section.record.Stores (Record.ignoreOther .text) ["Interface"]
      (member? "Interface" .name interface) { precision, driver }
      { precision, driver, interface } :=
    Record.stores_optional rfl rfl rfl (fun _ => Json.noConfusion) (Decoder.named_name .text)
  exact ((hprecision.trans hdriver (by simp)).trans hinterface (by simp)).readObject
    (by simp [Section.record])

theorem SpecPair.integral_toJson (specs : SpecPair) : specs.toJson.Integral :=
  .object (List.forall_mem_append.mpr
    ⟨integral_of_mem_member? .string, integral_of_mem_member? .string⟩)

theorem Section.integral_toJson (accelerator : Section) : accelerator.toJson.Integral := by
  refine .object (List.forall_mem_append.mpr ⟨List.forall_mem_append.mpr ⟨?_, ?_⟩, ?_⟩)
  · exact integral_of_mem_member? SpecPair.integral_toJson
  · exact integral_of_mem_member? fun driver => .string (Named.name driver)
  · exact integral_of_mem_member? fun interface => .string (Named.name interface)

/-! ### Members for other tools -/

namespace Settings

/-- The keys of the members that settings interpret. -/
def interpretedKeys : List String :=
  ["Board", "XilinxPart", "AcceleratorConfig"]

/-- What is true of the members for other tools: no field is for them, and they are values that
reading gave. -/
structure Sound (settings : Settings) : Prop where
  not_interpreted : ∀ entry ∈ settings.extra.entries, entry.1 ∉ interpretedKeys
  settled : ∀ entry ∈ settings.extra.entries, Settled (Decoder.maxDepth - 1) entry.2

/-- What storing a field does. -/
theorem cases_of_store {field : Json.Field Settings} (hfield : field ∈ record.fields) {d : Document}
    {a b : Settings} (h : field.store d a = .ok b) :
    (∃ board, field.key = "Board" ∧ Decoder.optional Decoder.string d = .ok board ∧
        b = { a with board }) ∨
      (∃ part, field.key = "XilinxPart" ∧ Decoder.optional Decoder.string d = .ok part ∧
        b = { a with part }) ∨
      (∃ accelerator, field.key = "AcceleratorConfig" ∧
        Decoder.optional Section.decoder d = .ok accelerator ∧ b = { a with accelerator }) := by
  simp only [record, List.mem_cons, List.not_mem_nil, or_false] at hfield
  rcases hfield with rfl | rfl | rfl
  all_goals
    obtain ⟨value, hvalue, hb⟩ := bind_eq_ok_iff.mp h
    obtain rfl := Except.ok.inj hb
  · exact .inl ⟨value, rfl, hvalue, rfl⟩
  · exact .inr (.inl ⟨value, rfl, hvalue, rfl⟩)
  · exact .inr (.inr ⟨value, rfl, hvalue, rfl⟩)

/-- No field is for members for other tools. -/
theorem extra_of_store {field : Json.Field Settings} (hfield : field ∈ record.fields) {d : Document}
    {a b : Settings} (h : field.store d a = .ok b) : b.extra = a.extra := by
  rcases cases_of_store hfield h with ⟨_, -, -, rfl⟩ | ⟨_, -, -, rfl⟩ | ⟨_, -, -, rfl⟩ <;> rfl

theorem exists_of_keepOther {key : String} {d : Document} {a b : Settings}
    (h : keepOther key d a = .ok b) :
    ∃ value, d.value (Decoder.maxDepth - 1) = .ok value ∧
      b = { a with extra := a.extra.insert key value } := by
  obtain ⟨value, hvalue, hb⟩ := bind_eq_ok_iff.mp h
  exact ⟨value, hvalue, (Except.ok.inj hb).symm⟩

/-- Members for other tools are kept one after the other. -/
theorem stores_entries {settings : Settings} {entries : List (String × Json)} {extra : Table Json}
    (hextra : extra.entries = settings.extra.entries ++ entries)
    (hkeys : ∀ entry ∈ entries, entry.1 ∉ interpretedKeys)
    (hsettled : ∀ entry ∈ entries, Settled (Decoder.maxDepth - 1) entry.2) :
    record.Stores keepOther [] entries settings { settings with extra } := by
  induction entries generalizing settings with
  | nil =>
      have hsame : extra = settings.extra := Table.ext_entries (by rw [hextra, List.append_nil])
      rw [hsame]
      exact fun seen _ rest => ⟨seen, List.Subset.refl _, rfl⟩
  | cons entry entries ih =>
      obtain ⟨key, value⟩ := entry
      have hvalue : value.document.value (Decoder.maxDepth - 1) = .ok value :=
        Document.value_document (hsettled (key, value) List.mem_cons_self)
      have hkeep : keepOther key value.document settings =
          .ok { settings with extra := settings.extra.insert key value } := by
        rw [keepOther, hvalue]
        rfl
      have hascending : Ascending (settings.extra.entries ++ (key, value) :: entries) :=
        hextra ▸ extra.ascending
      have hlast : ∀ entry ∈ settings.extra.entries, Text.ByteLt entry.1 key := fun entry hentry =>
        (List.pairwise_append.mp hascending).2.2 entry hentry (key, value) List.mem_cons_self
      have hinsert : (settings.extra.insert key value).entries =
          settings.extra.entries ++ [(key, value)] := insertEntry_of_forall_lt value hlast
      have hstep : extra.entries = (settings.extra.insert key value).entries ++ entries := by
        rw [hextra, hinsert, List.append_assoc]
        rfl
      have hrest := @ih { settings with extra := settings.extra.insert key value } hstep
        (fun other hother => hkeys other (List.mem_cons_of_mem _ hother))
        (fun other hother => hsettled other (List.mem_cons_of_mem _ hother))
      intro seen hseen rest
      rw [memberDocuments, List.cons_append,
        Record.readMembers_other (hkeys (key, value) List.mem_cons_self) hkeep]
      exact hrest seen hseen rest

theorem decoder_document {settings : Settings} (h : settings.Sound) :
    decoder settings.toJson.document = .ok settings := by
  obtain ⟨board, part, accelerator, extra⟩ := settings
  have hboard : record.Stores keepOther ["Board"] (member? "Board" .string board) {} { board } :=
    Record.stores_optional rfl rfl rfl (fun _ => Json.noConfusion) (fun _ => rfl)
  have hpart : record.Stores keepOther ["XilinxPart"] (member? "XilinxPart" .string part)
      { board } { board, part } :=
    Record.stores_optional rfl rfl rfl (fun _ => Json.noConfusion) (fun _ => rfl)
  have haccelerator : record.Stores keepOther ["AcceleratorConfig"]
      (member? "AcceleratorConfig" Section.toJson accelerator) { board, part }
      { board, part, accelerator } :=
    Record.stores_optional rfl rfl rfl (fun _ => Json.noConfusion) Section.decoder_document
  have hextra : record.Stores keepOther [] extra.entries { board, part, accelerator }
      { board, part, accelerator, extra } :=
    stores_entries rfl h.not_interpreted h.settled
  exact (((hboard.trans hpart (by simp)).trans haccelerator (by simp)).trans hextra
    (by simp)).readObject (by simp [record])

/-- Every member for other tools is one of the text's members, and none that a field is for. -/
theorem exists_of_mem_extra {members : List (Option String × Document)} {stop : Stop}
    {settings : Settings} (h : decoder (.object members stop) = .ok settings) :
    ∀ entry ∈ settings.extra.entries, entry.1 ∉ interpretedKeys ∧
      ∃ d, (some entry.1, d) ∈ members ∧ d.value (Decoder.maxDepth - 1) = .ok entry.2 := by
  refine Record.invariant_of_readObject (I := fun settings : Settings =>
    ∀ entry ∈ settings.extra.entries, entry.1 ∉ interpretedKeys ∧
      ∃ d, (some entry.1, d) ∈ members ∧ d.value (Decoder.maxDepth - 1) = .ok entry.2) ?_ ?_ ?_ h
  · intro field hfield d a b hstore ha
    rwa [extra_of_store hfield hstore]
  · intro key d a b hmem hkey hother ha entry hentry
    obtain ⟨value, hvalue, rfl⟩ := exists_of_keepOther hother
    rcases mem_insertEntry hentry with rfl | hold
    · exact ⟨hkey, d, hmem, hvalue⟩
    · exact ha entry hold
  · exact fun entry hentry => absurd hentry List.not_mem_nil

/-- Settings are read from objects only. -/
theorem exists_of_ofText {text : String} {settings : Settings} (h : ofText text = .ok settings) :
    ∃ members stop, Document.ofText text = .object members stop ∧
      decoder (.object members stop) = .ok settings := by
  have hdecode := Decoder.of_run_eq_ok h
  cases hdocument : Document.ofText text with
  | object members stop => exact ⟨members, stop, rfl, hdocument ▸ hdecode⟩
  | _ =>
      rw [hdocument] at hdecode
      obtain ⟨found, -, hmismatch⟩ := bind_eq_ok_iff.mp hdecode
      contradiction

theorem sound_of_ofText {text : String} {settings : Settings} (h : ofText text = .ok settings) :
    settings.Sound := by
  obtain ⟨members, stop, -, hdecode⟩ := exists_of_ofText h
  have hextra := exists_of_mem_extra hdecode
  refine ⟨fun entry hentry => (hextra entry hentry).1, fun entry hentry => ?_⟩
  obtain ⟨-, d, -, hvalue⟩ := hextra entry hentry
  exact Document.settled_of_value hvalue

/-- A text with no other numbers than 64-bit integers leaves no others to other tools. -/
theorem integral_extra_of_ofText {text : String} (hintegers : IntegersOnly (tokens text.toList))
    {settings : Settings} (h : ofText text = .ok settings) :
    ∀ entry ∈ settings.extra.entries, entry.2.Integral := by
  obtain ⟨members, stop, hdocument, hdecode⟩ := exists_of_ofText h
  have hintegral := Document.integral_ofText hintegers
  rw [hdocument, Document.integral_object_iff] at hintegral
  intro entry hentry
  obtain ⟨-, d, hmember, hvalue⟩ := exists_of_mem_extra hdecode entry hentry
  exact Document.integral_of_value (hintegral _ hmember) hvalue

/-! ### Settings that can come up -/

/-- New settings, settings that were read, and all that setters and corrections make of them. -/
inductive Reachable : Settings → Prop where
  | new : Reachable {}
  | read {text : String} {settings : Settings} (h : ofText text = .ok settings) : Reachable settings
  | withBoard {settings : Settings} (h : Reachable settings) (board : String) :
      Reachable (settings.withBoard board)
  | withPart {settings : Settings} (h : Reachable settings) (part : String) :
      Reachable (settings.withPart part)
  | withAccelerator {settings : Settings} (h : Reachable settings) (accelerator : Section) :
      Reachable (settings.withAccelerator accelerator)
  | correct {settings : Settings} (h : Reachable settings) (correction : Correction) :
      Reachable (correction.apply settings)

/-- Only the members for other tools matter. -/
theorem Sound.of_extra_eq {settings changed : Settings} (h : settings.Sound)
    (hextra : changed.extra = settings.extra) : changed.Sound :=
  ⟨hextra ▸ h.not_interpreted, hextra ▸ h.settled⟩

theorem extra_apply (correction : Correction) (settings : Settings) :
    (correction.apply settings).extra = settings.extra := by
  cases correction <;> rfl

theorem extra_applyCorrections (resolution : Resolution) (settings : Settings) :
    (resolution.applyCorrections settings).extra = settings.extra := by
  unfold Resolution.applyCorrections
  generalize resolution.corrections = corrections
  induction corrections generalizing settings with
  | nil => rfl
  | cons correction corrections ih =>
      rw [List.foldl_cons, ih, extra_apply]

theorem Reachable.sound {settings : Settings} (h : settings.Reachable) : settings.Sound := by
  induction h with
  | new => exact ⟨by simp [Table.empty], by simp [Table.empty]⟩
  | read h => exact sound_of_ofText h
  | withBoard _ board ih => exact ih.of_extra_eq rfl
  | withPart _ part ih => exact ih.of_extra_eq rfl
  | withAccelerator _ accelerator ih => exact ih.of_extra_eq rfl
  | @correct settings _ correction ih => exact ih.of_extra_eq (extra_apply correction settings)

/-! ### Writing and reading -/

theorem integral_toJson {settings : Settings}
    (h : ∀ entry ∈ settings.extra.entries, entry.2.Integral) : settings.toJson.Integral := by
  refine .object (List.forall_mem_append.mpr ⟨?_, h⟩)
  refine List.forall_mem_append.mpr ⟨List.forall_mem_append.mpr ⟨?_, ?_⟩, ?_⟩
  · exact integral_of_mem_member? .string
  · exact integral_of_mem_member? .string
  · exact integral_of_mem_member? Section.integral_toJson

theorem ofText_letters {settings : Settings} (h : settings.Sound)
    (hintegral : ∀ entry ∈ settings.extra.entries, entry.2.Integral) {style : Style}
    (hstyle : style.Blank) :
    ofText (String.ofList (settings.toJson.letters style 0)) = .ok settings :=
  (Decoder.run_letters decoder hstyle (integral_toJson hintegral)).trans (decoder_document h)

theorem keys_member?_sublist {α : Type} (key : String) (toJson : α → Json) (value : Option α) :
    ((member? key toJson value).map Prod.fst).Sublist [key] := by
  cases value with
  | none => exact List.nil_sublist [key]
  | some a => exact List.Sublist.refl [key]

/-- No key is written twice. -/
theorem nodup_keys_toJson {settings : Settings} (h : settings.Sound) :
    ∃ members, settings.toJson = .object members ∧ (members.map Prod.fst).Nodup := by
  refine ⟨_, rfl, ?_⟩
  rw [List.map_append, List.nodup_append]
  have hsublist : ((member? "Board" .string settings.board ++
      member? "XilinxPart" .string settings.part ++
      member? "AcceleratorConfig" Section.toJson settings.accelerator).map Prod.fst).Sublist
      interpretedKeys := by
    rw [List.map_append, List.map_append]
    exact ((keys_member?_sublist _ _ _).append (keys_member?_sublist _ _ _)).append
      (keys_member?_sublist _ _ _)
  refine ⟨hsublist.nodup (by decide), ?_, ?_⟩
  · rw [List.nodup_iff_pairwise_ne, List.pairwise_map]
    exact settings.extra.ascending.imp Text.ByteLt.ne
  · rintro key hkey _ hextra rfl
    obtain ⟨entry, hentry, rfl⟩ := List.mem_map.mp hextra
    exact h.not_interpreted entry hentry (hsublist.subset hkey)

/-- Settings that can come up are written without repeated keys. If their numbers are 64-bit integers,
they are read back as they were, from either form of the text. -/
theorem ofText_toJson_of_reachable {settings : Settings} (h : settings.Reachable) :
    (∀ key ∈ settings.extra.keys, key ∉ ["Board", "XilinxPart", "AcceleratorConfig"]) ∧
      (∃ members, settings.toJson = .object members ∧ (members.map Prod.fst).Nodup) ∧
      ((∀ entry ∈ settings.extra.entries, entry.2.Integral) →
        ofText settings.toJson.compact = .ok settings ∧
          ofText settings.toJson.pretty = .ok settings) := by
  have hsound := h.sound
  refine ⟨?_, nodup_keys_toJson hsound, ?_⟩
  · intro key hkey
    obtain ⟨entry, hentry, rfl⟩ := List.mem_map.mp hkey
    exact hsound.not_interpreted entry hentry
  · intro hintegral
    exact ⟨ofText_letters hsound hintegral Style.blank_compact,
      ofText_letters hsound hintegral Style.blank_pretty⟩

theorem ofText_toJson_of_reachable_corrected_part :
    let limits : Json := .array [.number (.int (-9223372036854775808)),
      .number (.int 18446744073709551615), .string "tab\t, quote\" and \x01"]
    let model : Json := .object [("ReuseFactor", .nat 4)]
    let value : Json := .object [("limits", limits), ("HLSConfig", model), ("Board", .string "é")]
    let settings : Settings :=
      { board := some "é", extra := Table.ofList [("limits", limits), ("HLSConfig", model)] }
    let corrected := (Correction.part "xc7z010" "xc7z020").apply (settings.withPart "xc7z010")
    ofText value.compact = .ok settings ∧
      corrected.extra.entries = [("HLSConfig", model), ("limits", limits)] ∧
      ofText corrected.toJson.compact = .ok corrected ∧
      ofText corrected.toJson.pretty = .ok corrected := by
  intro limits model value settings corrected
  have hlimits : limits.Integral := by simp [limits]
  have hmodel : model.Integral := by simp [model, Json.nat]
  have hvalue : value.Integral := by simp [value, hlimits, hmodel]
  have hread : ofText value.compact = .ok settings := (Decoder.run_compact decoder hvalue).trans rfl
  have hentries : corrected.extra.entries = [("HLSConfig", model), ("limits", limits)] := rfl
  have hreachable : corrected.Reachable := ((Reachable.read hread).withPart "xc7z010").correct _
  refine ⟨hread, hentries, (ofText_toJson_of_reachable hreachable).2.2 ?_⟩
  simp [hentries, hlimits, hmodel]

end Settings

end FabricConfig

import FabricConfig.Proofs.Json.Denotation
import FabricConfig.Proofs.Settings.RoundTrip
import FabricConfig.Resolution.Resolver

/-! Members that settings do not interpret. Those of the settings themselves are written back with
the values that they had. Those of the section on the accelerator and of its precision are not. -/

namespace FabricConfig

open Json

/-! ### Following keys -/

namespace Json

/-- What the keys of a path lead to. -/
def at? : Json → List String → Option Json
  | value, [] => some value
  | .object members, key :: path => (members.lookup key).bind fun value => at? value path
  | _, _ :: _ => none

/-- What the keys of a path lead to in a tree. Of several members with one key the last one
counts. -/
def Document.at? : Document → List String → Option Document
  | d, [] => some d
  | .object members _, key :: path => (lastMember? key members).bind fun d => d.at? path
  | _, _ :: _ => none

theorem lookup_member?_self {α : Type} (key : String) (toJson : α → Json) (value : Option α) :
    (member? key toJson value).lookup key = value.map toJson := by
  cases value with
  | none => rfl
  | some a => simp [member?]

theorem lookup_member?_of_ne {α : Type} {key other : String} (h : other ≠ key) (toJson : α → Json)
    (value : Option α) : (member? key toJson value).lookup other = none := by
  have hne : (other == key) = false := by simpa using h
  cases value with
  | none => rfl
  | some a => simp [member?, List.lookup_cons, hne]

end Json

/-! ### What is written -/

theorem SpecPair.at?_toJson_eq_none (specs : SpecPair) {key : String}
    (h : key ∉ ["Input", "Output"]) : specs.toJson.at? [key] = none := by
  simp only [List.mem_cons, List.not_mem_nil, or_false, not_or] at h
  simp [toJson, Json.at?, List.lookup_append, lookup_member?_of_ne, h]

namespace Section

variable (accelerator : Section)

theorem at?_toJson_eq_none {key : String} (h : key ∉ ["Precision", "Driver", "Interface"]) :
    accelerator.toJson.at? [key] = none := by
  simp only [List.mem_cons, List.not_mem_nil, or_false, not_or] at h
  simp [toJson, Json.at?, List.lookup_append, lookup_member?_of_ne, h]

theorem at?_toJson_precision (path : List String) :
    accelerator.toJson.at? ("Precision" :: path) =
      accelerator.precision.bind fun specs => specs.toJson.at? path := by
  simp only [toJson, Json.at?, List.lookup_append, lookup_member?_self]
  cases accelerator.precision <;> simp [lookup_member?_of_ne]

end Section

namespace Settings

variable {settings : Settings}

theorem at?_toJson_of_not_interpreted {key : String} (h : key ∉ interpretedKeys) :
    settings.toJson.at? [key] = settings.extra.get? key := by
  simp only [interpretedKeys, List.mem_cons, List.not_mem_nil, or_false, not_or] at h
  simp [toJson, Json.at?, List.lookup_append, lookup_member?_of_ne, h, Table.get?]

theorem Sound.get?_eq_none (h : settings.Sound) {key : String} (hkey : key ∈ interpretedKeys) :
    settings.extra.get? key = none := by
  rw [Table.get?, List.lookup_eq_none_iff]
  intro entry hentry
  have hne : key ≠ entry.1 := by
    rintro rfl
    exact h.not_interpreted entry hentry hkey
  simpa using hne

theorem Sound.at?_toJson_accelerator (h : settings.Sound) (path : List String) :
    settings.toJson.at? ("AcceleratorConfig" :: path) =
      settings.accelerator.bind fun accelerator => accelerator.toJson.at? path := by
  have hextra : settings.extra.entries.lookup "AcceleratorConfig" = none :=
    h.get?_eq_none (by simp [interpretedKeys])
  simp only [toJson, Json.at?, List.lookup_append, lookup_member?_self, hextra]
  cases settings.accelerator <;> simp [lookup_member?_of_ne]

/-! ### What is read -/

/-- Reading keeps, for a key that no field has, the value of the last member with it. -/
theorem get?_extra_of_readMembers {key : String} (hkey : key ∉ interpretedKeys)
    {members : List (Option String × Document)} {seen seen' : List String} {a b : Settings}
    (h : record.readMembers keepOther seen a members = .ok (seen', b)) {value : Json} :
    b.extra.get? key = some value ↔
      (∃ d, lastMember? key members = some d ∧ d.value (Decoder.maxDepth - 1) = .ok value) ∨
        (lastMember? key members = none ∧ a.extra.get? key = some value) := by
  induction members generalizing seen a with
  | nil =>
      obtain ⟨-, rfl⟩ := Prod.mk.inj (Except.ok.inj h)
      simp [lastMember?]
  | cons member members ih =>
      obtain ⟨other, d⟩ := member
      obtain ⟨name, rfl, ⟨field, hfield, hname, next, hnext, h⟩ | ⟨-, next, hnext, h⟩⟩ :=
        Record.readMembers_cons_eq_ok h
      · have hne : name ≠ key := by
          rintro rfl
          exact hkey (List.mem_map.mpr ⟨field, hfield, hname⟩)
        rw [ih h, extra_of_store hfield hnext]
        simp [lastMember?, hne]
      · obtain ⟨stored, hstored, rfl⟩ := exists_of_keepOther hnext
        rw [ih h]
        -- only without a later member of the key does the one at hand count
        cases hlast : lastMember? key members with
        | some later => simp [lastMember?, hlast]
        | none =>
            by_cases hname : name = key
            · subst hname
              simp [lastMember?, hlast, hstored]
            · have hother := Table.get?_insert_of_ne a.extra (Ne.symm hname) stored
              simp [lastMember?, hlast, hname, hother]

theorem get?_extra_of_ofText {text : String} (h : ofText text = .ok settings) {key : String}
    (hkey : key ∉ interpretedKeys) {value : Json} :
    settings.extra.get? key = some value ↔
      ∃ d, (Document.ofText text).at? [key] = some d ∧
        d.value (Decoder.maxDepth - 1) = .ok value := by
  obtain ⟨members, stop, hdocument, hdecode⟩ := exists_of_ofText h
  obtain ⟨seen, hmembers⟩ := Record.exists_of_readObject_eq_ok hdecode
  have hblank : record.blank.extra.get? key = none := rfl
  rw [get?_extra_of_readMembers hkey hmembers, hdocument, hblank]
  simp [Document.at?]

/-! ### What is written of what was read -/

/-- Paths to members that are not interpreted. -/
inductive Uninterpreted : List String → Prop where
  | settings {key : String} (h : key ∉ interpretedKeys) : Uninterpreted [key]
  | accelerator {key : String} (h : key ∉ ["Precision", "Driver", "Interface"]) :
      Uninterpreted ["AcceleratorConfig", key]
  | precision {key : String} (h : key ∉ ["Input", "Output"]) :
      Uninterpreted ["AcceleratorConfig", "Precision", key]

/-- Of the members of a text that are not interpreted, those of the settings themselves are written
back, with their values. Those of the section on the accelerator and of its precision never are. -/
theorem at?_written_iff {text : String} (hread : ofText text = .ok settings)
    (resolution : Resolution) {path : List String} (hpath : Uninterpreted path) {value : Json} :
    (resolution.applyCorrections settings).toJson.at? path = some value ↔
      path.length = 1 ∧ ∃ d, (Document.ofText text).at? path = some d ∧
        d.value (Decoder.maxDepth - 1) = .ok value := by
  have hextra := extra_applyCorrections resolution settings
  have hsound := (sound_of_ofText hread).of_extra_eq hextra
  cases hpath with
  | settings h =>
      rw [at?_toJson_of_not_interpreted h, hextra, get?_extra_of_ofText hread h]
      simp
  | accelerator h =>
      rw [hsound.at?_toJson_accelerator]
      simp [Section.at?_toJson_eq_none _ h]
  | precision h =>
      rw [hsound.at?_toJson_accelerator]
      simp [Section.at?_toJson_precision, SpecPair.at?_toJson_eq_none _ h]

theorem at?_written_iff_clock :
    let value : Json := .object
      [("Clock", .nat 6), ("AcceleratorConfig", .object [("Clock", .nat 5)]), ("Clock", .nat 7)]
    let settings : Settings :=
      { accelerator := some {}, extra := Table.ofList [("Clock", .nat 7)] }
    ofText value.compact = .ok settings ∧ ∀ resolution : Resolution,
      (resolution.applyCorrections settings).toJson.at? ["Clock"] = some (.nat 7) ∧
      ∀ clock, (resolution.applyCorrections settings).toJson.at? ["AcceleratorConfig", "Clock"] ≠
        some clock := by
  intro value settings
  have hvalue : value.Integral := by simp [value, Json.nat]
  have hread : ofText value.compact = .ok settings := (Decoder.run_compact decoder hvalue).trans rfl
  have htree : Document.ofText value.compact = value.document :=
    Document.ofText_letters Style.blank_compact hvalue
  refine ⟨hread, fun resolution => ⟨?_, fun clock h => ?_⟩⟩
  · have hkey : Uninterpreted ["Clock"] := .settings (by simp [interpretedKeys])
    refine (at?_written_iff hread resolution hkey).mpr ⟨rfl, (Json.nat 7).document, ?_, rfl⟩
    rw [htree]
    rfl
  · have hkey : Uninterpreted ["AcceleratorConfig", "Clock"] := .accelerator (by simp)
    have hlength := ((at?_written_iff hread resolution hkey).mp h).1
    simp at hlength

/-- A clock that the section on the accelerator sets is gone after the section is written back,
although nothing was corrected. -/
theorem nested_clock_not_written :
    let value : Json := .object [("AcceleratorConfig", .object
      [("Precision", .object [("Input", .string "float"), ("Output", .string "float")]),
       ("Clock", .nat 5)])]
    let settings : Settings :=
      { accelerator := some (Section.withPrecision {} "float" "float") }
    let registry : Registry := Table.ofList [("pynq-z2", { part := "xc7z020" })]
    let resolver : Resolver := { catalog := registry.catalog }
    let tensors := [Tensor.named "x"]
    ∃ resolution, ofText value.compact = .ok settings ∧
      resolver.resolve settings tensors tensors = .ok resolution ∧
      (Document.ofText value.compact).at? ["AcceleratorConfig", "Clock"] =
        some (Json.nat 5).document ∧
      (Json.nat 5).document.value (Decoder.maxDepth - 1) = .ok (.nat 5) ∧
      (resolution.applyCorrections settings).toJson.at? ["AcceleratorConfig", "Clock"] = none := by
  intro value settings registry resolver tensors
  have hvalue : value.Integral := by simp [value, Json.nat]
  have hread : ofText value.compact = .ok settings := (Decoder.run_compact decoder hvalue).trans rfl
  have hresolve : resolver.resolve settings tensors tensors = .ok _ := rfl
  refine ⟨_, hread, hresolve, ?_, rfl, rfl⟩
  exact (congrArg (Document.at? · _) (Document.ofText_letters Style.blank_compact hvalue)).trans rfl

end Settings

end FabricConfig

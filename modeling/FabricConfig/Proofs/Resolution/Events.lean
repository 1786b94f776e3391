import FabricConfig.Proofs.Resolution.Corrections
import Mathlib.Data.List.Forall2

/-! What the log of a resolution tells. There are three events at most: one for a part that was
replaced, one for a section that was made up, and one at the end. The first two are logged as soon as
they are known, also by a resolution that fails later, and they tell what the corrections of one that
succeeds say. -/

namespace FabricConfig

/-- An event of a given level that has some given fields. -/
structure Event.Carries (event : Event) (level : Level) (fields : List (String × FieldValue)) :
    Prop where
  level_eq : event.level = level
  fields_subset : fields ⊆ event.fields

/-! ### Events that tell of corrections -/

namespace Correction

/-- What a correction says, as fields of an event. The section that is made up is always the same
one, and no event has it. -/
def fields : Correction → List (String × FieldValue)
  | .part requested canonical => [("requested", .text requested), ("canonical", .text canonical)]
  | .accelerator _ => []

/-- An event tells of a correction for a board. It is a warning if the correction overrides what the
user asked for. -/
def ToldBy (board : String) (correction : Correction) (event : Event) : Prop :=
  event.Carries (if correction.isWarning then .warn else .info)
    (("board", .text board) :: correction.fields)

theorem toldBy_event (board : String) (correction : Correction) :
    correction.ToldBy board (correction.event board) := by
  cases correction with
  | part requested canonical => exact ⟨rfl, List.Subset.refl _⟩
  | accelerator fallback => exact ⟨rfl, List.Subset.refl _⟩

theorem level_event (board : String) (correction : Correction) :
    (correction.event board).level = .warn ∨ (correction.event board).level = .info := by
  cases correction with
  | part requested canonical => exact .inl rfl
  | accelerator fallback => exact .inr rfl

end Correction

/-! ### All events -/

namespace Resolver

/-- The events that a resolution has a reason to log, each with its level and with fields that it
has to have. -/
inductive Due (resolver : Resolver) (settings : Settings) (inputs outputs : List Tensor) :
    Event → Level → List (String × FieldValue) → Prop where
  | replaced {boardInfo : Board} {requested : String}
      (hboard : resolver.catalog.board (resolver.selectedBoard settings) = .ok boardInfo)
      (hpart : settings.part = some requested) (hne : requested ≠ boardInfo.part) :
      Due resolver settings inputs outputs
        (.partReplaced (resolver.selectedBoard settings) requested boardInfo.part) .warn
        [("board", .text (resolver.selectedBoard settings)), ("requested", .text requested),
          ("canonical", .text boardInfo.part)]
  | defaulted {boardInfo : Board}
      (hboard : resolver.catalog.board (resolver.selectedBoard settings) = .ok boardInfo)
      (hoverride : resolver.accelerator = none) (hsection : settings.accelerator = none) :
      Due resolver settings inputs outputs
        (.sectionDefaulted (resolver.selectedBoard settings)) .info
        [("board", .text (resolver.selectedBoard settings))]
  | resolved {r : Resolution} (hresolve : resolver.resolve settings inputs outputs = .ok r) :
      Due resolver settings inputs outputs (.resolved r.config) .debug
        [("input_bitwidth", .number r.config.input.bitwidth.toNat),
          ("output_bitwidth", .number r.config.output.bitwidth.toNat)]

variable {resolver : Resolver} {settings : Settings} {inputs outputs : List Tensor} {event : Event}
  {result : Except ConfigError Resolution}

theorem Due.carries {level : Level} {fields : List (String × FieldValue)}
    (h : resolver.Due settings inputs outputs event level fields) : event.Carries level fields := by
  cases h with
  | replaced => exact ⟨rfl, List.Subset.refl _⟩
  | defaulted => exact ⟨rfl, List.Subset.refl _⟩
  | resolved => exact ⟨rfl, by simp [Event.fields]⟩

/-- The board is looked up before anything is logged. -/
theorem mem_loggedEvents_iff :
    event ∈ resolver.loggedEvents settings result ↔ ∃ boardInfo,
      resolver.catalog.board (resolver.selectedBoard settings) = .ok boardInfo ∧
      ((∃ correction ∈ partCorrections settings boardInfo.part,
          event = correction.event (resolver.selectedBoard settings)) ∨
        (∃ correction ∈ resolver.sectionCorrections settings,
          event = correction.event (resolver.selectedBoard settings)) ∨
        ∃ r, result = .ok r ∧ event = .resolved r.config) := by
  unfold loggedEvents
  cases resolver.catalog.board (resolver.selectedBoard settings) with
  | error error => simp
  | ok boardInfo =>
      cases result with
      | error error => simp [finalEvents, eq_comm]
      | ok r => simp [finalEvents, eq_comm]

theorem mem_loggedEvents_iff_due :
    event ∈ resolver.loggedEvents settings (resolver.resolve settings inputs outputs) ↔
      ∃ level fields, resolver.Due settings inputs outputs event level fields := by
  rw [mem_loggedEvents_iff]
  constructor
  · rintro ⟨boardInfo, hboard, ⟨correction, hmem, rfl⟩ | ⟨correction, hmem, rfl⟩ |
      ⟨r, hresolve, rfl⟩⟩
    · obtain ⟨requested, hpart, hne, rfl⟩ := mem_partCorrections_iff.mp hmem
      exact ⟨_, _, .replaced hboard hpart hne⟩
    · obtain ⟨hoverride, hsection, rfl⟩ := mem_sectionCorrections_iff.mp hmem
      exact ⟨_, _, .defaulted hboard hoverride hsection⟩
    · exact ⟨_, _, .resolved hresolve⟩
  · rintro ⟨level, fields, hdue⟩
    cases hdue with
    | replaced hboard hpart hne =>
        exact ⟨_, hboard, .inl ⟨_, mem_partCorrections_iff.mpr ⟨_, hpart, hne, rfl⟩, rfl⟩⟩
    | defaulted hboard hoverride hsection =>
        have hmem := mem_sectionCorrections_iff.mpr ⟨hoverride, hsection, rfl⟩
        exact ⟨_, hboard, .inr (.inl ⟨_, hmem, rfl⟩)⟩
    | resolved hresolve =>
        obtain ⟨boardInfo, _, _, _, _, _, _, hboard, -⟩ := resolver.resolve_eq_ok_iff.mp hresolve
        exact ⟨boardInfo, hboard, .inr (.inr ⟨_, hresolve, rfl⟩)⟩

/-- There is one event of each level at most, and warnings come before informations and these before
the end. -/
theorem pairwise_loggedEvents :
    (resolver.loggedEvents settings result).Pairwise
      fun first next => first.level.rank < next.level.rank := by
  unfold loggedEvents
  cases resolver.catalog.board (resolver.selectedBoard settings) with
  | error error => exact .nil
  | ok boardInfo =>
      have hpart : partCorrections settings boardInfo.part = [] ∨
          ∃ requested, partCorrections settings boardInfo.part =
            [.part requested boardInfo.part] := by
        unfold partCorrections
        cases settings.part with
        | none => exact .inl rfl
        | some requested =>
            by_cases h : requested = boardInfo.part
            · exact .inl (if_pos h)
            · exact .inr ⟨requested, if_neg h⟩
      have hsection : resolver.sectionCorrections settings = [] ∨
          resolver.sectionCorrections settings = [.accelerator .fallback] := by
        unfold sectionCorrections
        cases resolver.accelerator <|> settings.accelerator with
        | none => exact .inr rfl
        | some accelerator => exact .inl rfl
      have hend : finalEvents result = [] ∨ ∃ config, finalEvents result = [.resolved config] := by
        cases result with
        | error error => exact .inl rfl
        | ok r => exact .inr ⟨r.config, rfl⟩
      rcases hpart with hpart | ⟨requested, hpart⟩ <;> rcases hsection with hsection | hsection <;>
        rcases hend with hend | ⟨config, hend⟩ <;>
        simp [hpart, hsection, hend, Correction.event, Event.level, Level.rank]

/-- After a resolution that succeeded, the log holds one event for each correction and the last
one. -/
theorem loggedEvents_of_resolve {r : Resolution}
    (h : resolver.resolve settings inputs outputs = .ok r) :
    resolver.loggedEvents settings (.ok r) =
      r.corrections.map (Correction.event r.config.board) ++ [.resolved r.config] := by
  obtain ⟨boardInfo, _, _, _, _, _, _, hboard, -, -, -, -, -, rfl⟩ :=
    resolver.resolve_eq_ok_iff.mp h
  rw [loggedEvents, hboard]
  rfl

theorem forall₂_toldBy_loggedEvents {r : Resolution}
    (h : resolver.resolve settings inputs outputs = .ok r) :
    List.Forall₂ (Correction.ToldBy r.config.board) r.corrections
      ((resolver.loggedEvents settings (.ok r)).filter
        fun event => event.level = .warn ∨ event.level = .info) := by
  have hkept : ∀ event ∈ r.corrections.map (Correction.event r.config.board),
      decide (event.level = .warn ∨ event.level = .info) = true := by
    simpa using fun correction _ => correction.level_event r.config.board
  have hlast : [Event.resolved r.config].filter
      (fun event => event.level = .warn ∨ event.level = .info) = [] := by
    simp [Event.level]
  rw [loggedEvents_of_resolve h, List.filter_append, List.filter_eq_self.mpr hkept, hlast,
    List.append_nil, List.forall₂_map_right_iff]
  exact List.forall₂_same.mpr fun correction _ => correction.toldBy_event r.config.board

/-- Only the last event is for debugging, and a resolution that fails does not get there. -/
theorem Due.level_ne_debug {level : Level} {fields : List (String × FieldValue)}
    {error : ConfigError} (hdue : resolver.Due settings inputs outputs event level fields)
    (h : resolver.resolve settings inputs outputs = .error error) : event.level ≠ .debug := by
  cases hdue with
  | replaced => simp [Event.level]
  | defaulted => simp [Event.level]
  | resolved hsuccess =>
      rw [h] at hsuccess
      contradiction

end Resolver

/-- A resolution logs that a part is replaced, that a section is made up and that all is resolved,
each exactly if it is so, in this order, and with the fields that say what it is about. If it
succeeds, the warnings and informations among the events tell of its corrections, one of each in the
order of the corrections. If it fails, nothing is logged for debugging. -/
theorem events_tell_corrections (resolver : Resolver) (settings : Settings)
    (inputs outputs : List Tensor) :
    let events := (resolver.trace settings inputs outputs).2.events
    (∀ event, event ∈ events ↔ ∃ level fields,
        resolver.Due settings inputs outputs event level fields ∧ event.Carries level fields) ∧
      events.Pairwise (fun first next => first.level.rank < next.level.rank) ∧
      (∀ r, resolver.resolve settings inputs outputs = .ok r →
        List.Forall₂ (Correction.ToldBy r.config.board) r.corrections
          (events.filter fun event => event.level = .warn ∨ event.level = .info)) ∧
      ∀ error, resolver.resolve settings inputs outputs = .error error →
        ∀ event ∈ events, event.level ≠ .debug := by
  intro events
  have hevents : events = resolver.loggedEvents settings
      (resolver.resolve settings inputs outputs) := resolver.events_eq settings inputs outputs
  refine ⟨fun event => ?_, ?_, fun r hresolve => ?_, fun error hresolve => ?_⟩
  · rw [hevents, Resolver.mem_loggedEvents_iff_due]
    constructor
    · rintro ⟨level, fields, hdue⟩
      exact ⟨level, fields, hdue, hdue.carries⟩
    · rintro ⟨level, fields, hdue, -⟩
      exact ⟨level, fields, hdue⟩
  · rw [hevents]
    exact Resolver.pairwise_loggedEvents
  · rw [hevents, hresolve]
    exact Resolver.forall₂_toldBy_loggedEvents hresolve
  · intro event hmem
    rw [hevents, Resolver.mem_loggedEvents_iff_due] at hmem
    obtain ⟨level, fields, hdue⟩ := hmem
    exact hdue.level_ne_debug hresolve

/-- Both corrections are told before the tensors are counted, which ends the first resolution. The
second one has the tensors that it needs. -/
theorem events_tell_corrections_early :
    let registry : Registry := Table.empty.insert "pynq-z2" { part := "xc7z020" }
    let resolver : Resolver := { catalog := registry.catalog }
    let settings : Settings := { part := some "xc7z010" }
    let told : List Event :=
      [.partReplaced "pynq-z2" "xc7z010" "xc7z020", .sectionDefaulted "pynq-z2"]
    let tensors := [Tensor.named "x"]
    (resolver.resolve settings tensors [] = .error (.unsupportedTensorCount 1 0) ∧
      (resolver.trace settings tensors []).2.events = told ∧
      ∀ event ∈ told, event.level ≠ .debug) ∧
    ∃ r, resolver.resolve settings tensors tensors = .ok r ∧
      (resolver.trace settings tensors tensors).2.events = told ++ [.resolved r.config] ∧
      List.Forall₂ (Correction.ToldBy "pynq-z2") r.corrections told := by
  intro registry resolver settings told tensors
  have hfailed : resolver.resolve settings tensors [] = .error (.unsupportedTensorCount 1 0) := rfl
  have hearly : (resolver.trace settings tensors []).2.events = told := rfl
  obtain ⟨r, hresolve, hboard, hevents⟩ : ∃ r, resolver.resolve settings tensors tensors = .ok r ∧
      r.config.board = "pynq-z2" ∧ (resolver.trace settings tensors tensors).2.events =
        told ++ [.resolved r.config] := ⟨_, rfl, rfl, rfl⟩
  obtain ⟨-, -, -, hnone⟩ := events_tell_corrections resolver settings tensors []
  obtain ⟨-, -, htold, -⟩ := events_tell_corrections resolver settings tensors tensors
  have hfilter : (told ++ [Event.resolved r.config]).filter
      (fun event => event.level = .warn ∨ event.level = .info) = told := rfl
  specialize hnone _ hfailed
  specialize htold r hresolve
  rw [hearly] at hnone
  rw [hboard, hevents, hfilter] at htold
  exact ⟨⟨hfailed, hearly, hnone⟩, r, hresolve, hevents, htold⟩

end FabricConfig

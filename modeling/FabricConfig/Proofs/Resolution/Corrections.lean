import FabricConfig.Proofs.Resolution.WriteBack

/-! What the corrections of a resolution say and do. There is one for each thing that was changed and
none for anything else. They write to different places, so they may be made in any order and more
than once. -/

namespace FabricConfig

/-! ### Corrections that commute -/

namespace Correction

variable {c : Correction} {sequence : List Correction}

/-- Makes changes one after the other. -/
def applyAll (sequence : List Correction) (settings : Settings) : Settings :=
  sequence.foldl (fun settings correction => correction.apply settings) settings

/-- Two changes that may be made in either order. -/
def Commutes (c d : Correction) : Prop :=
  ∀ settings, c.apply (d.apply settings) = d.apply (c.apply settings)

theorem applyAll_cons (c : Correction) (sequence : List Correction) (settings : Settings) :
    applyAll (c :: sequence) settings = applyAll sequence (c.apply settings) :=
  rfl

theorem apply_apply_self (c : Correction) (settings : Settings) :
    c.apply (c.apply settings) = c.apply settings := by
  cases c <;> rfl

theorem apply_applyAll (h : ∀ d ∈ sequence, c.Commutes d) (settings : Settings) :
    c.apply (applyAll sequence settings) = applyAll sequence (c.apply settings) := by
  induction sequence generalizing settings with
  | nil => rfl
  | cons d sequence ih =>
      obtain ⟨hd, hsequence⟩ := List.forall_mem_cons.mp h
      rw [applyAll_cons, applyAll_cons, ih hsequence, hd]

theorem applyAll_applyAll {first second : List Correction}
    (h : ∀ c ∈ first, ∀ d ∈ second, c.Commutes d) (settings : Settings) :
    applyAll first (applyAll second settings) = applyAll second (applyAll first settings) := by
  induction first generalizing settings with
  | nil => rfl
  | cons c first ih =>
      obtain ⟨hc, hfirst⟩ := List.forall_mem_cons.mp h
      rw [applyAll_cons, applyAll_cons, apply_applyAll hc, ih hfirst]

/-- A change that will be made anyway need not be made before. -/
theorem applyAll_apply_of_mem (hmem : c ∈ sequence) (h : ∀ d ∈ sequence, c.Commutes d)
    (settings : Settings) : applyAll sequence (c.apply settings) = applyAll sequence settings := by
  induction sequence generalizing settings with
  | nil => contradiction
  | cons d sequence ih =>
      obtain ⟨hd, hsequence⟩ := List.forall_mem_cons.mp h
      rw [applyAll_cons, applyAll_cons]
      rcases List.mem_cons.mp hmem with rfl | hmem
      · rw [apply_apply_self]
      · rw [← hd, ih hmem hsequence]

/-- Changes that were all made are not made by making them again. -/
theorem applyAll_applyAll_of_subset {again : List Correction} (hsubset : again ⊆ sequence)
    (h : ∀ c ∈ sequence, ∀ d ∈ sequence, c.Commutes d) (settings : Settings) :
    applyAll again (applyAll sequence settings) = applyAll sequence settings := by
  induction again with
  | nil => rfl
  | cons c again ih =>
      obtain ⟨hc, hagain⟩ := List.cons_subset.mp hsubset
      rw [applyAll_cons, apply_applyAll (h c hc), applyAll_apply_of_mem hc (h c hc), ih hagain]

/-- Neither the order of changes that commute nor how often each one is made has any effect. -/
theorem applyAll_eq_of_mem_iff {first second : List Correction}
    (hmem : ∀ c, c ∈ first ↔ c ∈ second) (h : ∀ c ∈ second, ∀ d ∈ second, c.Commutes d)
    (settings : Settings) : applyAll first settings = applyAll second settings := by
  have hfirst : ∀ c ∈ first, ∀ d ∈ first, c.Commutes d := fun c hc d hd =>
    h c ((hmem c).mp hc) d ((hmem d).mp hd)
  calc applyAll first settings
      = applyAll second (applyAll first settings) :=
        (applyAll_applyAll_of_subset (fun c => (hmem c).mpr) hfirst settings).symm
    _ = applyAll first (applyAll second settings) :=
        (applyAll_applyAll (fun c hc => h c ((hmem c).mp hc)) settings).symm
    _ = applyAll second settings := applyAll_applyAll_of_subset (fun c => (hmem c).mp) h settings

end Correction

/-! ### The corrections of a resolution -/

namespace Resolver

variable {resolver : Resolver} {settings : Settings} {canonical : String} {c d : Correction}

theorem mem_partCorrections_iff :
    c ∈ partCorrections settings canonical ↔
      ∃ requested, settings.part = some requested ∧ requested ≠ canonical ∧
        c = .part requested canonical := by
  unfold partCorrections
  cases settings.part with
  | none => simp
  | some requested => by_cases h : requested = canonical <;> simp [h]

theorem mem_sectionCorrections_iff :
    c ∈ resolver.sectionCorrections settings ↔
      resolver.accelerator = none ∧ settings.accelerator = none ∧ c = .accelerator .fallback := by
  unfold sectionCorrections
  cases resolver.accelerator with
  | none => cases settings.accelerator <;> simp
  | some accelerator => simp

/-- There is one correction of each kind at most, and the two kinds write to different places. -/
theorem commutes_of_mem (hc : c ∈ partCorrections settings canonical ++
      resolver.sectionCorrections settings)
    (hd : d ∈ partCorrections settings canonical ++ resolver.sectionCorrections settings) :
    c.Commutes d := by
  simp only [List.mem_append, mem_partCorrections_iff, mem_sectionCorrections_iff] at hc hd
  intro given
  rcases hc with ⟨_, _, _, rfl⟩ | ⟨_, _, rfl⟩ <;> rcases hd with ⟨_, _, _, rfl⟩ | ⟨_, _, rfl⟩ <;> rfl

theorem warnings_resolution (boardInfo : Board) (input output : Side) :
    (resolver.resolution settings boardInfo input output).warnings =
      partCorrections settings boardInfo.part := by
  have hpart : ∀ c ∈ partCorrections settings boardInfo.part, c.isWarning = true := by
    intro c hc
    obtain ⟨_, _, _, rfl⟩ := mem_partCorrections_iff.mp hc
    rfl
  have hsection : ∀ c ∈ resolver.sectionCorrections settings, ¬ c.isWarning = true := by
    intro c hc
    obtain ⟨_, _, rfl⟩ := mem_sectionCorrections_iff.mp hc
    simp [Correction.isWarning]
  rw [Resolution.warnings, resolution, List.filter_append, List.filter_eq_self.mpr hpart,
    List.filter_eq_nil_iff.mpr hsection, List.append_nil]

end Resolver

/-- Settings that differ from given ones only by the corrections that a resolver with a section of its
own or without one may make. -/
structure CorrectedFrom (settings : Settings) (override : Option Section) (canonical : String)
    (after : Settings) : Prop where
  board_eq : after.board = settings.board
  extra_eq : after.extra = settings.extra
  part_eq : after.part = settings.part.map fun _ => canonical
  accelerator_of_given : ∀ given, settings.accelerator = some given →
    after.accelerator = some given
  accelerator_of_missing : settings.accelerator = none → override = none →
    after.accelerator = some .fallback
  accelerator_eq_none_iff : after.accelerator = none ↔
    settings.accelerator = none ∧ override ≠ none

theorem Resolver.correctedFrom_corrected (resolver : Resolver) (settings : Settings)
    (canonical : String) :
    CorrectedFrom settings resolver.accelerator canonical (resolver.corrected settings canonical)
    where
  board_eq := rfl
  extra_eq := rfl
  part_eq := rfl
  accelerator_of_given given hgiven := by
    unfold corrected
    cases resolver.accelerator <;> simp [hgiven]
  accelerator_of_missing hmissing hoverride := by
    simp [corrected, hmissing, hoverride]
  accelerator_eq_none_iff := by
    unfold corrected
    cases resolver.accelerator <;> cases settings.accelerator <;> simp

/-- Nothing is left open by what the corrected settings have to be. -/
theorem CorrectedFrom.unique {settings first second : Settings} {override : Option Section}
    {canonical : String} (h : CorrectedFrom settings override canonical first)
    (h' : CorrectedFrom settings override canonical second) : first = second := by
  have haccelerator : first.accelerator = second.accelerator := by
    cases hgiven : settings.accelerator with
    | some given => rw [h.accelerator_of_given given hgiven, h'.accelerator_of_given given hgiven]
    | none =>
        cases hoverride : override with
        | none =>
            rw [h.accelerator_of_missing hgiven hoverride,
              h'.accelerator_of_missing hgiven hoverride]
        | some accelerator =>
            have hnone : settings.accelerator = none ∧ override ≠ none :=
              ⟨hgiven, by simp [hoverride]⟩
            rw [h.accelerator_eq_none_iff.mpr hnone, h'.accelerator_eq_none_iff.mpr hnone]
  have hboard := h.board_eq.trans h'.board_eq.symm
  have hextra := h.extra_eq.trans h'.extra_eq.symm
  have hpart := h.part_eq.trans h'.part_eq.symm
  obtain ⟨board, part, accelerator, extra⟩ := first
  obtain rfl : board = second.board := hboard
  obtain rfl : part = second.part := hpart
  obtain rfl : accelerator = second.accelerator := haccelerator
  obtain rfl : extra = second.extra := hextra
  rfl

theorem Resolver.correctedFrom_applyCorrections {resolver : Resolver} {settings : Settings}
    {inputs outputs : List Tensor} {r : Resolution}
    (h : resolver.resolve settings inputs outputs = .ok r) :
    CorrectedFrom settings resolver.accelerator r.config.part (r.applyCorrections settings) := by
  rw [(resolve_corrected h).1]
  exact resolver.correctedFrom_corrected settings r.config.part

/-- The corrections of a resolution are a wrong part and a missing section, in this order and as far
as they apply, and only the part is a warning. Made in any order, each of them once or more, they
lead to the same settings, in which nothing else has changed. -/
theorem corrections_exact {resolver : Resolver} {settings : Settings} {inputs outputs : List Tensor}
    {r : Resolution} (h : resolver.resolve settings inputs outputs = .ok r) :
    r.corrections = Resolver.partCorrections settings r.config.part ++
        resolver.sectionCorrections settings ∧
      r.warnings = Resolver.partCorrections settings r.config.part ∧
      (∀ sequence, (∀ c, c ∈ sequence ↔ c ∈ r.corrections) →
        Correction.applyAll sequence settings = r.applyCorrections settings) ∧
      CorrectedFrom settings resolver.accelerator r.config.part (r.applyCorrections settings) := by
  have hcorrected := Resolver.correctedFrom_applyCorrections h
  obtain ⟨boardInfo, inputSpec, outputSpec, input, output, inputType, outputType, -, -, -, -, -, -,
    rfl⟩ := resolver.resolve_eq_ok_iff.mp h
  refine ⟨rfl, Resolver.warnings_resolution _ _ _, fun sequence hsequence => ?_, hcorrected⟩
  exact Correction.applyAll_eq_of_mem_iff hsequence
    (fun c hc d hd => Resolver.commutes_of_mem hc hd) settings

theorem corrections_exact_repeated :
    let registry : Registry := Table.empty.insert "pynq-z2" { part := "xc7z020" }
    let resolver : Resolver := { catalog := registry.catalog }
    let settings : Settings := { part := some "xc7z010", extra := Table.ofList [("Clock", .nat 5)] }
    let tensors := [Tensor.named "x"]
    ∃ r, resolver.resolve settings tensors tensors = .ok r ∧
      r.corrections = [.part "xc7z010" "xc7z020", .accelerator .fallback] ∧
      r.warnings = [.part "xc7z010" "xc7z020"] ∧
      Correction.applyAll [.accelerator .fallback, .part "xc7z010" "xc7z020", .accelerator .fallback]
        settings = r.applyCorrections settings ∧
      (r.applyCorrections settings).part = some "xc7z020" := by
  intro registry resolver settings tensors
  obtain ⟨r, h, hpart⟩ : ∃ r, resolver.resolve settings tensors tensors = .ok r ∧
      r.config.part = "xc7z020" := ⟨_, rfl, rfl⟩
  obtain ⟨hcorrections, hwarnings, hsequence, hafter⟩ := corrections_exact h
  rw [hpart] at hcorrections hwarnings hafter
  have hboth : r.corrections = [.part "xc7z010" "xc7z020", .accelerator .fallback] := hcorrections
  refine ⟨r, h, hboth, hwarnings, hsequence _ fun c => ?_, hafter.part_eq⟩
  simp [hboth, or_comm]

end FabricConfig

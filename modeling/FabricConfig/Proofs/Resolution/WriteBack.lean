import FabricConfig.Proofs.Resolution.Stages

/-! Corrections written back. The settings that they lead to select the same board and section as
before, and nothing in them is left to correct. -/

namespace FabricConfig

namespace Resolver

variable (resolver : Resolver) (settings : Settings)

/-- The settings as they should have been: a part is the board's one, and a section that nothing
gives is the fallback. -/
def corrected (canonical : String) : Settings :=
  { settings with
    part := settings.part.map fun _ => canonical
    accelerator :=
      match resolver.accelerator, settings.accelerator with
      | none, none => some .fallback
      | _, given => given }

theorem applyCorrections_resolution (boardInfo : Board) (input output : Side) :
    (resolver.resolution settings boardInfo input output).applyCorrections settings =
      resolver.corrected settings boardInfo.part := by
  obtain ⟨catalog, board, accelerator, root⟩ := resolver
  obtain ⟨board, part, given, extra⟩ := settings
  unfold Resolution.applyCorrections resolution partCorrections sectionCorrections corrected
  cases part with
  | none => cases accelerator <;> cases given <;> rfl
  | some requested =>
      by_cases h : requested = boardInfo.part
      · subst h
        cases accelerator <;> cases given <;> simp [Correction.apply]
      · cases accelerator <;> cases given <;> simp [h, Correction.apply]

theorem selectedBoard_corrected (canonical : String) :
    resolver.selectedBoard (resolver.corrected settings canonical) =
      resolver.selectedBoard settings :=
  rfl

theorem selectedSection_corrected (canonical : String) :
    resolver.selectedSection (resolver.corrected settings canonical) =
      resolver.selectedSection settings := by
  unfold selectedSection corrected
  cases resolver.accelerator with
  | none => cases settings.accelerator <;> rfl
  | some accelerator => rfl

theorem partCorrections_corrected (canonical : String) :
    partCorrections (resolver.corrected settings canonical) canonical = [] := by
  unfold partCorrections corrected
  cases settings.part with
  | none => rfl
  | some requested => exact if_pos rfl

theorem sectionCorrections_corrected (canonical : String) :
    resolver.sectionCorrections (resolver.corrected settings canonical) = [] := by
  unfold sectionCorrections corrected
  cases resolver.accelerator with
  | none => cases settings.accelerator <;> rfl
  | some accelerator => rfl

theorem resolution_corrected (boardInfo : Board) (input output : Side) :
    resolver.resolution (resolver.corrected settings boardInfo.part) boardInfo input output =
      { config := (resolver.resolution settings boardInfo input output).config
        corrections := [] } := by
  unfold resolution
  rw [selectedBoard_corrected, selectedSection_corrected, partCorrections_corrected,
    sectionCorrections_corrected]
  rfl

/-- The settings as they should have been are what the corrections lead to, and resolve to the same
without any corrections. -/
theorem resolve_corrected {resolver : Resolver} {settings : Settings} {inputs outputs : List Tensor}
    {r : Resolution} (h : resolver.resolve settings inputs outputs = .ok r) :
    r.applyCorrections settings = resolver.corrected settings r.config.part ∧
      resolver.resolve (resolver.corrected settings r.config.part) inputs outputs =
        .ok { r with corrections := [] } := by
  obtain ⟨boardInfo, inputSpec, outputSpec, input, output, inputType, outputType, hboard, hspecs,
    hinputs, houtputs, hinput, houtput, rfl⟩ := resolver.resolve_eq_ok_iff.mp h
  refine ⟨resolver.applyCorrections_resolution settings boardInfo _ _, ?_⟩
  exact resolver.resolve_eq_ok_iff.mpr ⟨boardInfo, inputSpec, outputSpec, input, output, inputType,
    outputType, hboard, (selectedSection_corrected resolver settings _).symm ▸ hspecs, hinputs,
    houtputs, hinput, houtput, (resolver.resolution_corrected settings boardInfo _ _).symm⟩

end Resolver

/-- Resolving again after the corrections were written back gives the same configuration, and there
is nothing left to correct. -/
theorem resolve_after_write_back {resolver : Resolver} {settings : Settings}
    {inputs outputs : List Tensor} {r : Resolution}
    (h : resolver.resolve settings inputs outputs = .ok r) :
    r.applyCorrections settings = resolver.corrected settings r.config.part ∧
      ∃ again, resolver.resolve (r.applyCorrections settings) inputs outputs = .ok again ∧
        again.config = r.config ∧ again.corrections = [] ∧
        again.applyCorrections (r.applyCorrections settings) = r.applyCorrections settings := by
  obtain ⟨hwritten, hagain⟩ := Resolver.resolve_corrected h
  rw [← hwritten] at hagain
  exact ⟨hwritten, _, hagain, rfl, rfl, rfl⟩

theorem resolve_after_write_back_two_corrections :
    let resolver : Resolver :=
      { catalog := { board := fun _ => .ok { part := "xc7z020" }, precision := readPrecision } }
    let settings : Settings := { part := some "xc7z010" }
    let tensors := [Tensor.named "x"]
    ∃ r, resolver.resolve settings tensors tensors = .ok r ∧
      r.corrections = [.part "xc7z010" "xc7z020", .accelerator .fallback] ∧
      ∃ again, resolver.resolve (r.applyCorrections settings) tensors tensors = .ok again ∧
        again.config = r.config ∧ again.corrections = [] := by
  intro resolver settings tensors
  have h : resolver.resolve settings tensors tensors = .ok _ := rfl
  obtain ⟨-, again, hagain, hconfig, hnone, -⟩ := resolve_after_write_back h
  exact ⟨_, h, rfl, again, hagain, hconfig, hnone⟩

end FabricConfig

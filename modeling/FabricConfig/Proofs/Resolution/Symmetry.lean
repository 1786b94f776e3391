import FabricConfig.Proofs.Resolution.Stages

/-! The two sides of a resolution. Exchanging inputs and outputs in what is asked for exchanges the
two sides of the accelerator and changes nothing else. Neither side depends on what is asked for on
the other one. -/

namespace FabricConfig

/-! ### The sides of a section and of an accelerator -/

def SpecPair.exchanged (specs : SpecPair) : SpecPair :=
  ⟨specs.output, specs.input⟩

namespace Section

/-- The section with the specs of the two sides exchanged. -/
def exchanged (accelerator : Section) : Section :=
  { accelerator with precision := accelerator.precision.map SpecPair.exchanged }

/-- The section with another spec for the input. -/
def withInputSpec (accelerator : Section) (spec : String) : Section :=
  { accelerator with
    precision := accelerator.precision.map fun specs => { specs with input := some spec } }

/-- The section with another spec for the output. -/
def withOutputSpec (accelerator : Section) (spec : String) : Section :=
  { accelerator with
    precision := accelerator.precision.map fun specs => { specs with output := some spec } }

variable {accelerator : Section} {input output : String}

@[simp] theorem exchanged_exchanged (accelerator : Section) :
    accelerator.exchanged.exchanged = accelerator := by
  obtain ⟨_ | specs, driver, interface⟩ := accelerator <;> rfl

theorem exchanged_withInputSpec (accelerator : Section) (spec : String) :
    (accelerator.withInputSpec spec).exchanged = accelerator.exchanged.withOutputSpec spec := by
  obtain ⟨_ | specs, driver, interface⟩ := accelerator <;> rfl

theorem specs_exchanged (h : accelerator.specs = .ok (input, output)) :
    accelerator.exchanged.specs = .ok (output, input) := by
  rw [specs_eq_ok_iff] at h ⊢
  rw [exchanged, h]
  rfl

theorem specs_withOutputSpec (h : accelerator.specs = .ok (input, output)) (spec : String) :
    (accelerator.withOutputSpec spec).specs = .ok (input, spec) := by
  rw [specs_eq_ok_iff] at h ⊢
  rw [withOutputSpec, h]
  rfl

end Section

/-- The accelerator with its two sides exchanged. -/
def Accelerator.exchanged (a : Accelerator) : Accelerator :=
  { a with input := a.output, output := a.input }

/-- The resolution with the two sides of the accelerator exchanged. -/
def Resolution.exchanged (r : Resolution) : Resolution :=
  { r with config := r.config.exchanged }

@[simp] theorem Resolution.exchanged_exchanged (r : Resolution) : r.exchanged.exchanged = r :=
  rfl

/-! ### Runs on sections of the resolver's own -/

namespace Resolver

/-- The resolver with a section of its own. -/
def withSection (resolver : Resolver) (accelerator : Section) : Resolver :=
  { resolver with accelerator := some accelerator }

variable {resolver : Resolver} {settings : Settings} {accelerator : Section}
  {inputs outputs : List Tensor} {r : Resolution}

/-- Both sides go through the same stages, so a run on exchanged sides passes where the given one
does. -/
theorem resolve_exchanged
    (h : (resolver.withSection accelerator).resolve settings inputs outputs = .ok r) :
    (resolver.withSection accelerator.exchanged).resolve settings outputs inputs =
      .ok r.exchanged := by
  obtain ⟨boardInfo, inputSpec, outputSpec, input, output, inputType, outputType, hboard, hspecs,
    hinputs, houtputs, hinput, houtput, rfl⟩ := (resolve_eq_ok_iff _).mp h
  exact (resolve_eq_ok_iff _).mpr ⟨boardInfo, outputSpec, inputSpec, output, input, outputType,
    inputType, hboard, Section.specs_exchanged hspecs, houtputs, hinputs, houtput, hinput, rfl⟩

theorem resolve_exchanged_iff :
    (resolver.withSection accelerator.exchanged).resolve settings outputs inputs = .ok r ↔
      (resolver.withSection accelerator).resolve settings inputs outputs = .ok r.exchanged := by
  refine ⟨fun h => ?_, resolve_exchanged⟩
  simpa using resolve_exchanged h

/-- Another spec and other tensors for the output change the output and nothing else. -/
theorem eq_of_resolve_withOutputSpec {spec : String} {outputs' : List Tensor} {r' : Resolution}
    (h : (resolver.withSection accelerator).resolve settings inputs outputs = .ok r)
    (h' : (resolver.withSection (accelerator.withOutputSpec spec)).resolve settings inputs
      outputs' = .ok r') :
    r' = { r with config := { r.config with output := r'.config.output } } := by
  obtain ⟨boardInfo, inputSpec, outputSpec, input, output, inputType, outputType, hboard, hspecs,
    hinputs, -, hinput, -, rfl⟩ := (resolve_eq_ok_iff _).mp h
  obtain ⟨boardInfo', inputSpec', outputSpec', input', output', inputType', outputType', hboard',
    hspecs', hinputs', -, hinput', -, rfl⟩ := (resolve_eq_ok_iff _).mp h'
  obtain rfl : boardInfo = boardInfo' := Except.ok.inj (hboard.symm.trans hboard')
  obtain ⟨rfl, rfl⟩ : inputSpec = inputSpec' ∧ spec = outputSpec' :=
    Prod.mk.inj (Except.ok.inj ((Section.specs_withOutputSpec hspecs spec).symm.trans hspecs'))
  obtain rfl : input = input' := List.singleton_inj.mp (hinputs.symm.trans hinputs')
  obtain rfl : inputType = inputType' := Except.ok.inj (hinput.symm.trans hinput')
  rfl

/-- The same for the input, seen from the exchanged sides. -/
theorem eq_of_resolve_withInputSpec {spec : String} {inputs' : List Tensor} {r' : Resolution}
    (h : (resolver.withSection accelerator).resolve settings inputs outputs = .ok r)
    (h' : (resolver.withSection (accelerator.withInputSpec spec)).resolve settings inputs'
      outputs = .ok r') :
    r' = { r with config := { r.config with input := r'.config.input } } := by
  have hexchanged := resolve_exchanged h'
  rw [Section.exchanged_withInputSpec] at hexchanged
  exact congrArg Resolution.exchanged
    (eq_of_resolve_withOutputSpec (resolve_exchanged h) hexchanged)

end Resolver

/-- The sides are treated alike and apart from each other. A run succeeds exactly if the run on
exchanged sides does, and then the two accelerators differ by that exchange only. And of two runs
that succeed and differ in what they ask for on one side, the accelerators differ on that side only.
-/
theorem sides_symmetric_and_independent (resolver : Resolver) (settings : Settings)
    (accelerator : Section) (inputs outputs : List Tensor) :
    ((∃ r, (resolver.withSection accelerator).resolve settings inputs outputs = .ok r) ↔
        ∃ r, (resolver.withSection accelerator.exchanged).resolve settings outputs inputs = .ok r) ∧
      ∀ r, (resolver.withSection accelerator).resolve settings inputs outputs = .ok r →
        (resolver.withSection accelerator.exchanged).resolve settings outputs inputs =
            .ok { r with
              config := { r.config with input := r.config.output, output := r.config.input } } ∧
          (∀ spec outputs' r', (resolver.withSection (accelerator.withOutputSpec spec)).resolve
              settings inputs outputs' = .ok r' →
            r' = { r with config := { r.config with output := r'.config.output } }) ∧
          ∀ spec inputs' r', (resolver.withSection (accelerator.withInputSpec spec)).resolve
              settings inputs' outputs = .ok r' →
            r' = { r with config := { r.config with input := r'.config.input } } := by
  refine ⟨⟨?_, ?_⟩, ?_⟩
  · rintro ⟨r, h⟩
    exact ⟨r.exchanged, Resolver.resolve_exchanged h⟩
  · rintro ⟨r, h⟩
    exact ⟨r.exchanged, Resolver.resolve_exchanged_iff.mp h⟩
  · intro r h
    exact ⟨Resolver.resolve_exchanged h,
      fun _ _ _ h' => Resolver.eq_of_resolve_withOutputSpec h h',
      fun _ _ _ h' => Resolver.eq_of_resolve_withInputSpec h h'⟩

/-- A format and a spec on the two sides, then on the other ones, and then another spec and tensor for
the output. -/
theorem sides_symmetric_and_independent_mixed :
    let registry : Registry := Table.empty.insert "pynq-z2" { part := "xc7z020" }
    let resolver : Resolver := { catalog := registry.catalog }
    let settings : Settings := { part := some "xc7z010" }
    let accelerator := Section.withPrecision {} "double" "ap_fixed<13,5>"
    let inputs := [Tensor.named "x"]
    let outputs := [Tensor.named "y"]
    ∃ r s t, (resolver.withSection accelerator).resolve settings inputs outputs = .ok r ∧
      (resolver.withSection (Section.withPrecision {} "ap_fixed<13,5>" "double")).resolve settings
        outputs inputs = .ok s ∧
      (resolver.withSection (Section.withPrecision {} "double" "ap_uint<3>")).resolve settings
        inputs [Tensor.named "z"] = .ok t ∧
      r.config.input.bitwidth = 64 ∧ r.config.output.bitwidth = 16 ∧
      s.config.input = r.config.output ∧ s.config.output = r.config.input ∧
      t.config.input = r.config.input ∧ t.config.output.bitwidth = 8 := by
  intro registry resolver settings accelerator inputs outputs
  obtain ⟨r, h, hinput, houtput⟩ : ∃ r,
      (resolver.withSection accelerator).resolve settings inputs outputs = .ok r ∧
        r.config.input.bitwidth = 64 ∧ r.config.output.bitwidth = 16 := ⟨_, rfl, rfl, rfl⟩
  obtain ⟨t, ht, hother⟩ : ∃ t, (resolver.withSection
      (accelerator.withOutputSpec "ap_uint<3>")).resolve settings inputs [Tensor.named "z"] = .ok t ∧
        t.config.output.bitwidth = 8 := ⟨_, rfl, rfl⟩
  obtain ⟨-, hsides⟩ := sides_symmetric_and_independent resolver settings accelerator inputs outputs
  obtain ⟨hexchanged, hindependent, -⟩ := hsides r h
  have hkept : t.config.input = r.config.input := by
    rw [hindependent _ _ t ht]
  exact ⟨r, _, t, h, hexchanged, ht, hinput, houtput, rfl, rfl, hkept, hother⟩

end FabricConfig

import FabricConfig.Proofs.Resolution.Stages

/-! The verdict on settings, given by rules that do not run the resolver: one rule for each way in
which a stage can fail after all earlier ones have passed, and one for success. Resolution gives
exactly this verdict. -/

namespace FabricConfig

/-- How the failure of a catalog is reported. -/
inductive Reports : CatalogError → ConfigError → Prop where
  | unknownBoard (name : String) : Reports (.unknownBoard name) (.unknownBoard name)
  | invalidPrecision (spec reason : String) :
      Reports (.invalidPrecision spec reason) (.invalidPrecision spec reason)
  | registry (message : String) : Reports (.registry message) (.catalog message)

theorem reports_ofCatalog (error : CatalogError) : Reports error (ConfigError.ofCatalog error) := by
  cases error with
  | unknownBoard name => exact .unknownBoard name
  | invalidPrecision spec reason => exact .invalidPrecision spec reason
  | registry message => exact .registry message

theorem Reports.ofCatalog_eq {error : CatalogError} {reported : ConfigError}
    (h : Reports error reported) : ConfigError.ofCatalog error = reported := by
  cases h <;> rfl

/-- What a catalog makes of the spec of a side: the two names of floating-point formats stand for
themselves, and any other spec is read and aligned to bytes. -/
inductive WireType (catalog : Catalog) : String → Except CatalogError Precision → Prop where
  | float : WireType catalog "float" (.ok (.floating .float))
  | double : WireType catalog "double" (.ok (.floating .double))
  | read {spec : String} {precision : Precision} (hfloat : spec ≠ "float")
      (hdouble : spec ≠ "double") (hspec : catalog.precision spec = .ok precision) :
      WireType catalog spec (.ok precision.align)
  | refused {spec : String} {error : CatalogError} (hfloat : spec ≠ "float")
      (hdouble : spec ≠ "double") (hspec : catalog.precision spec = .error error) :
      WireType catalog spec (.error error)

/-- The verdict on settings for a model with the given tensors. -/
inductive Verdict (resolver : Resolver) (settings : Settings) (inputs outputs : List Tensor) :
    Except ConfigError Resolution → Prop where
  | boardFails {error : CatalogError} {reported : ConfigError}
      (hboard : resolver.catalog.board (resolver.selectedBoard settings) = .error error)
      (hreport : Reports error reported) :
      Verdict resolver settings inputs outputs (.error reported)
  | noPrecision {boardInfo : Board}
      (hboard : resolver.catalog.board (resolver.selectedBoard settings) = .ok boardInfo)
      (hsection : (resolver.selectedSection settings).precision = none) :
      Verdict resolver settings inputs outputs (.error (.incomplete "Precision"))
  | noInput {boardInfo : Board} {output : Option String}
      (hboard : resolver.catalog.board (resolver.selectedBoard settings) = .ok boardInfo)
      (hsection : (resolver.selectedSection settings).precision = some ⟨none, output⟩) :
      Verdict resolver settings inputs outputs (.error (.incomplete "Precision.Input"))
  | noOutput {boardInfo : Board} {input : String}
      (hboard : resolver.catalog.board (resolver.selectedBoard settings) = .ok boardInfo)
      (hsection : (resolver.selectedSection settings).precision = some ⟨some input, none⟩) :
      Verdict resolver settings inputs outputs (.error (.incomplete "Precision.Output"))
  | tensorCount {boardInfo : Board} {inputSpec outputSpec : String}
      (hboard : resolver.catalog.board (resolver.selectedBoard settings) = .ok boardInfo)
      (hsection :
        (resolver.selectedSection settings).precision = some ⟨some inputSpec, some outputSpec⟩)
      (hcount : ¬ (inputs.length = 1 ∧ outputs.length = 1)) :
      Verdict resolver settings inputs outputs
        (.error (.unsupportedTensorCount inputs.length outputs.length))
  | inputFails {boardInfo : Board} {inputSpec outputSpec : String} {error : CatalogError}
      {reported : ConfigError}
      (hboard : resolver.catalog.board (resolver.selectedBoard settings) = .ok boardInfo)
      (hsection :
        (resolver.selectedSection settings).precision = some ⟨some inputSpec, some outputSpec⟩)
      (hcount : inputs.length = 1 ∧ outputs.length = 1)
      (hinput : WireType resolver.catalog inputSpec (.error error))
      (hreport : Reports error reported) :
      Verdict resolver settings inputs outputs (.error reported)
  | outputFails {boardInfo : Board} {inputSpec outputSpec : String} {inputType : Precision}
      {error : CatalogError} {reported : ConfigError}
      (hboard : resolver.catalog.board (resolver.selectedBoard settings) = .ok boardInfo)
      (hsection :
        (resolver.selectedSection settings).precision = some ⟨some inputSpec, some outputSpec⟩)
      (hcount : inputs.length = 1 ∧ outputs.length = 1)
      (hinput : WireType resolver.catalog inputSpec (.ok inputType))
      (houtput : WireType resolver.catalog outputSpec (.error error))
      (hreport : Reports error reported) :
      Verdict resolver settings inputs outputs (.error reported)
  | success {boardInfo : Board} {inputSpec outputSpec : String} {input output : Tensor}
      {inputType outputType : Precision}
      (hboard : resolver.catalog.board (resolver.selectedBoard settings) = .ok boardInfo)
      (hsection :
        (resolver.selectedSection settings).precision = some ⟨some inputSpec, some outputSpec⟩)
      (hinputs : inputs = [input]) (houtputs : outputs = [output])
      (hinput : WireType resolver.catalog inputSpec (.ok inputType))
      (houtput : WireType resolver.catalog outputSpec (.ok outputType)) :
      Verdict resolver settings inputs outputs
        (.ok (resolver.resolution settings boardInfo ⟨inputType, inputType.width, input⟩
          ⟨outputType, outputType.width, output⟩))

/-! ### Sides and tensors -/

theorem ofName?_eq_none_of_ne {spec : String} (hfloat : spec ≠ "float") (hdouble : spec ≠ "double") :
    (Named.ofName? spec : Option FloatKind) = none := by
  rw [Named.ofName?_eq_none_iff]
  intro kind
  cases kind with
  | float => exact hfloat.symm
  | double => exact hdouble.symm

theorem WireType.sideType_eq {resolver : Resolver} {spec : String}
    {answer : Except CatalogError Precision} (h : WireType resolver.catalog spec answer) :
    resolver.sideType spec = answer.mapError ConfigError.ofCatalog := by
  cases h with
  | float => rfl
  | double => rfl
  | read hfloat hdouble hspec =>
      rw [Resolver.sideType, ofName?_eq_none_of_ne hfloat hdouble, hspec]
      rfl
  | refused hfloat hdouble hspec =>
      rw [Resolver.sideType, ofName?_eq_none_of_ne hfloat hdouble, hspec]
      rfl

theorem exists_wireType (catalog : Catalog) (spec : String) :
    ∃ answer, WireType catalog spec answer := by
  by_cases hfloat : spec = "float"
  · subst hfloat
    exact ⟨_, .float⟩
  · by_cases hdouble : spec = "double"
    · subst hdouble
      exact ⟨_, .double⟩
    · cases hspec : catalog.precision spec with
      | error error => exact ⟨_, .refused hfloat hdouble hspec⟩
      | ok precision => exact ⟨_, .read hfloat hdouble hspec⟩

theorem tensorPair_of_count {inputs outputs : List Tensor}
    (h : ¬ (inputs.length = 1 ∧ outputs.length = 1)) :
    tensorPair inputs outputs =
      .error (.unsupportedTensorCount inputs.length outputs.length) := by
  unfold tensorPair
  split
  · exact absurd ⟨rfl, rfl⟩ h
  · rfl

/-! ### The resolver gives the verdict -/

variable {resolver : Resolver} {settings : Settings} {inputs outputs : List Tensor}

theorem Verdict.execution {result : Except ConfigError Resolution}
    (h : Verdict resolver settings inputs outputs result) :
    resolver.resolve settings inputs outputs = result := by
  cases h with
  | boardFails hboard hreport =>
      rw [Resolver.resolve_eq, hboard, ← hreport.ofCatalog_eq]
      rfl
  | noPrecision hboard hsection =>
      rw [Resolver.resolve_eq, hboard, Section.specs, hsection]
      rfl
  | noInput hboard hsection =>
      rw [Resolver.resolve_eq, hboard, Section.specs, hsection]
      rfl
  | noOutput hboard hsection =>
      rw [Resolver.resolve_eq, hboard, Section.specs, hsection]
      rfl
  | tensorCount hboard hsection hcount =>
      rw [Resolver.resolve_eq, hboard, Section.specs_eq_ok_iff.mpr hsection,
        tensorPair_of_count hcount]
      rfl
  | inputFails hboard hsection hcount hinput hreport =>
      obtain ⟨input, rfl⟩ := List.length_eq_one_iff.mp hcount.1
      obtain ⟨output, rfl⟩ := List.length_eq_one_iff.mp hcount.2
      rw [Resolver.resolve_of_specs _ _ hboard (Section.specs_eq_ok_iff.mpr hsection),
        hinput.sideType_eq, ← hreport.ofCatalog_eq]
      rfl
  | outputFails hboard hsection hcount hinput houtput hreport =>
      obtain ⟨input, rfl⟩ := List.length_eq_one_iff.mp hcount.1
      obtain ⟨output, rfl⟩ := List.length_eq_one_iff.mp hcount.2
      rw [Resolver.resolve_of_specs _ _ hboard (Section.specs_eq_ok_iff.mpr hsection),
        hinput.sideType_eq, houtput.sideType_eq, ← hreport.ofCatalog_eq]
      rfl
  | success hboard hsection hinputs houtputs hinput houtput =>
      subst hinputs houtputs
      rw [Resolver.resolve_of_specs _ _ hboard (Section.specs_eq_ok_iff.mpr hsection),
        hinput.sideType_eq, houtput.sideType_eq]
      rfl

/-- Some rule applies to all settings. -/
theorem exists_verdict (resolver : Resolver) (settings : Settings) (inputs outputs : List Tensor) :
    ∃ result, Verdict resolver settings inputs outputs result := by
  cases hboard : resolver.catalog.board (resolver.selectedBoard settings) with
  | error error => exact ⟨_, .boardFails hboard (reports_ofCatalog error)⟩
  | ok boardInfo =>
      rcases hsection : (resolver.selectedSection settings).precision with
        _ | ⟨_ | inputSpec, _ | outputSpec⟩
      · exact ⟨_, .noPrecision hboard hsection⟩
      · exact ⟨_, .noInput hboard hsection⟩
      · exact ⟨_, .noInput hboard hsection⟩
      · exact ⟨_, .noOutput hboard hsection⟩
      by_cases hcount : inputs.length = 1 ∧ outputs.length = 1
      · obtain ⟨inputAnswer, hinput⟩ := exists_wireType resolver.catalog inputSpec
        obtain ⟨outputAnswer, houtput⟩ := exists_wireType resolver.catalog outputSpec
        cases inputAnswer with
        | error error =>
            exact ⟨_, .inputFails hboard hsection hcount hinput (reports_ofCatalog error)⟩
        | ok inputType =>
            cases outputAnswer with
            | error error =>
                exact ⟨_, .outputFails hboard hsection hcount hinput houtput
                  (reports_ofCatalog error)⟩
            | ok outputType =>
                obtain ⟨input, hinputs⟩ := List.length_eq_one_iff.mp hcount.1
                obtain ⟨output, houtputs⟩ := List.length_eq_one_iff.mp hcount.2
                exact ⟨_, .success hboard hsection hinputs houtputs hinput houtput⟩
      · exact ⟨_, .tensorCount hboard hsection hcount⟩

/-- Resolution ends with a result exactly if the rules give that result. -/
theorem resolve_eq_iff_verdict (resolver : Resolver) (settings : Settings)
    (inputs outputs : List Tensor) (result : Except ConfigError Resolution) :
    resolver.resolve settings inputs outputs = result ↔
      Verdict resolver settings inputs outputs result := by
  refine ⟨?_, Verdict.execution⟩
  rintro rfl
  obtain ⟨result, h⟩ := exists_verdict resolver settings inputs outputs
  rwa [h.execution]

end FabricConfig

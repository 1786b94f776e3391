import FabricConfig.Proofs.Resolution.Verdict

/-! What a resolution depends on. Two runs that select the same board and the same section on the
accelerator, and are given the same answers about these, end alike. Whatever else their settings,
resolvers and catalogs hold makes no difference. -/

namespace FabricConfig

/-- One of the specs of a section. -/
def Section.HasSpec (accelerator : Section) (spec : String) : Prop :=
  ∃ specs, accelerator.precision = some specs ∧ (specs.input = some spec ∨ specs.output = some spec)

/-- Two runs, each a resolver with settings, that select the same and are told the same about it.
The catalogs need not agree on other boards, nor on the names of floating-point formats. -/
structure SameSelection (first second : Resolver) (a b : Settings) : Prop where
  templateRoot_eq : first.templateRoot = second.templateRoot
  board_eq : first.selectedBoard a = second.selectedBoard b
  section_eq : first.selectedSection a = second.selectedSection b
  boardInfo_eq : first.catalog.board (first.selectedBoard a) =
    second.catalog.board (first.selectedBoard a)
  precision_eq : ∀ spec, (first.selectedSection a).HasSpec spec → spec ≠ "float" →
    spec ≠ "double" → first.catalog.precision spec = second.catalog.precision spec

/-- A section with both specs has each of them. -/
theorem Section.hasSpec_of_specs {accelerator : Section} {input output : String}
    (h : accelerator.specs = .ok (input, output)) :
    accelerator.HasSpec input ∧ accelerator.HasSpec output := by
  have hprecision := Section.specs_eq_ok_iff.mp h
  exact ⟨⟨_, hprecision, .inl rfl⟩, ⟨_, hprecision, .inr rfl⟩⟩

namespace SameSelection

variable {first second : Resolver} {a b : Settings}

/-- The names of floating-point formats are not looked up, so only other specs have to be read
alike. -/
theorem sideType_eq (h : SameSelection first second a b) {spec : String}
    (hspec : (first.selectedSection a).HasSpec spec) :
    first.sideType spec = second.sideType spec := by
  unfold Resolver.sideType
  cases hname : (Named.ofName? spec : Option FloatKind) with
  | some kind => rfl
  | none =>
      have hother := Named.ofName?_eq_none_iff.mp hname
      rw [h.precision_eq spec hspec (hother .float).symm (hother .double).symm]

theorem config_resolution (h : SameSelection first second a b) (boardInfo : Board)
    (input output : Side) :
    (first.resolution a boardInfo input output).config =
      (second.resolution b boardInfo input output).config := by
  unfold Resolver.resolution
  rw [h.board_eq, h.section_eq, h.templateRoot_eq]

/-- The corrections aside, the stages of the two runs are the same. -/
theorem map_config_resolve (h : SameSelection first second a b) (inputs outputs : List Tensor) :
    (first.resolve a inputs outputs).map Resolution.config =
      (second.resolve b inputs outputs).map Resolution.config := by
  rw [Resolver.resolve_eq, Resolver.resolve_eq, ← h.board_eq, ← h.section_eq, ← h.boardInfo_eq]
  cases first.catalog.board (first.selectedBoard a) with
  | error e => rfl
  | ok boardInfo =>
      cases hspecs : (first.selectedSection a).specs with
      | error e => rfl
      | ok specs =>
          obtain ⟨hinput, houtput⟩ := Section.hasSpec_of_specs hspecs
          cases tensorPair inputs outputs with
          | error e => rfl
          | ok tensors =>
              simp only [mapError_ok, ok_bind, h.sideType_eq hinput, h.sideType_eq houtput]
              cases second.sideType specs.1 with
              | error e => rfl
              | ok inputType =>
                  cases second.sideType specs.2 with
                  | error e => rfl
                  | ok outputType => exact congrArg Except.ok (h.config_resolution boardInfo _ _)

end SameSelection

/-- Two runs that select the same both fail with the same error, or both succeed with the same
configuration. -/
theorem resolve_of_sameSelection {first second : Resolver} {a b : Settings}
    (h : SameSelection first second a b) (inputs outputs : List Tensor) :
    (∃ error, first.resolve a inputs outputs = .error error ∧
        second.resolve b inputs outputs = .error error) ∨
      ∃ r s, first.resolve a inputs outputs = .ok r ∧ second.resolve b inputs outputs = .ok s ∧
        r.config = s.config := by
  have hmap := h.map_config_resolve inputs outputs
  cases hfirst : first.resolve a inputs outputs with
  | error e =>
      cases hsecond : second.resolve b inputs outputs with
      | error e' =>
          rw [hfirst, hsecond] at hmap
          exact .inl ⟨e, rfl, congrArg Except.error (Except.error.inj hmap).symm⟩
      | ok s =>
          rw [hfirst, hsecond] at hmap
          contradiction
  | ok r =>
      cases hsecond : second.resolve b inputs outputs with
      | error e =>
          rw [hfirst, hsecond] at hmap
          contradiction
      | ok s =>
          rw [hfirst, hsecond] at hmap
          exact .inr ⟨r, s, rfl, rfl, Except.ok.inj hmap⟩

/-- The settings of the second run name a board and a section that its resolver replaces, and its
catalog knows one board and does not read `float`. The part that the first run asks for shows only
in its corrections. -/
theorem resolve_of_sameSelection_shadowed :
    let accelerator : Section := Section.withPrecision {} "float" "ap_fixed<13,5>"
    let registry : Registry :=
      Table.ofList [("zcu102", { part := "xczu9eg" }), ("pynq-z2", { part := "xc7z020" })]
    let narrow : Catalog :=
      { board := fun name =>
          if name = "pynq-z2" then .ok { part := "xc7z020" } else .error (.registry "closed")
        precision := fun spec =>
          if spec = "float" then .error (.registry "closed") else readPrecision spec }
    let first : Resolver := { catalog := registry.catalog }
    let second : Resolver :=
      { catalog := narrow, board := some "pynq-z2", accelerator := some accelerator }
    let a : Settings :=
      { part := some "xc7z010", accelerator := some accelerator,
        extra := Table.ofList [("Clock", .nat 5)] }
    let b : Settings := { board := some "zcu102", accelerator := some {} }
    let tensors := [Tensor.named "x"]
    SameSelection first second a b ∧
      ∃ r s, first.resolve a tensors tensors = .ok r ∧ second.resolve b tensors tensors = .ok s ∧
        r.corrections = [.part "xc7z010" "xc7z020"] ∧ s.corrections = [] ∧ r.config = s.config := by
  intro accelerator registry narrow first second a b tensors
  have hsame : SameSelection first second a b :=
    { templateRoot_eq := rfl
      board_eq := rfl
      section_eq := rfl
      boardInfo_eq := rfl
      precision_eq := by
        intro spec _ hfloat _
        simp only [first, second, narrow, Registry.catalog, if_neg hfloat] }
  have hfirst : first.resolve a tensors tensors = .ok _ := rfl
  have hsecond : second.resolve b tensors tensors = .ok _ := rfl
  obtain ⟨error, herror, -⟩ | ⟨r, s, hr, hs, hconfig⟩ :=
    resolve_of_sameSelection hsame tensors tensors
  · exact absurd (hfirst.symm.trans herror) (by simp)
  · have hrcorrections : r.corrections = [.part "xc7z010" "xc7z020"] := by
      rw [← Except.ok.inj (hfirst.symm.trans hr)]
      rfl
    have hscorrections : s.corrections = [] := by
      rw [← Except.ok.inj (hsecond.symm.trans hs)]
      rfl
    exact ⟨hsame, r, s, hr, hs, hrcorrections, hscorrections, hconfig⟩

end FabricConfig

import FabricConfig.Proofs.Precision.Alignment
import FabricConfig.Proofs.Registry
import FabricConfig.Proofs.Resolution.Stages

/-! Every accelerator that comes out of a resolution is well formed, although no stage checks it: the
bounds come from the grammar of specs, and alignment keeps them. -/

namespace FabricConfig

/-- A side that is sent in whole bytes. -/
structure Side.Aligned (side : Side) : Prop where
  bitwidth_eq : side.bitwidth = side.precision.width
  eight_dvd : 8 ∣ side.bitwidth.toNat

/-- A side that is sent in whole bytes and whose type is within the bounds of the grammar. -/
structure Side.WellFormed (side : Side) : Prop extends side.Aligned where
  eight_le : 8 ≤ side.bitwidth.toNat
  le_max : side.bitwidth.toNat ≤ 32768
  float : side.precision = .floating .float → side.bitwidth = 32
  double : side.precision = .floating .double → side.bitwidth = 64
  fixed : ∀ type, side.precision = .fixed type →
    type.integerBits ≤ type.width ∧ type.width ≤ 32768 ∧ type.align = type

/-- An accelerator that fits the boards of a registry. -/
structure Accelerator.WellFormed (registry : Registry) (a : Accelerator) : Prop where
  input : a.input.WellFormed
  output : a.output.WellFormed
  part_eq : a.part = a.boardInfo.part
  get?_board : registry.get? a.board = some a.boardInfo

/-! ### Sides -/

theorem Side.aligned_of_align (p : Precision) (tensor : Tensor) :
    Side.Aligned ⟨p.align, p.align.width, tensor⟩ :=
  ⟨rfl, p.eight_dvd_width_align⟩

/-- The bounds on a width make an aligned one at least a byte. -/
theorem Precision.Valid.width_bounds {p : Precision} (h : p.Valid) :
    8 ≤ p.align.width.toNat ∧ p.align.width.toNat ≤ 32768 := by
  cases p with
  | floating kind => cases kind <;> decide
  | fixed type =>
      obtain ⟨-, hmax, -⟩ := FixedType.Valid.align h
      exact ⟨eight_le_alignWidth h.1, UInt32.le_iff_toNat_le.mp hmax⟩

theorem Side.wellFormed_of_valid {p : Precision} (h : p.Valid) (tensor : Tensor) :
    Side.WellFormed ⟨p.align, p.align.width, tensor⟩ where
  toAligned := aligned_of_align p tensor
  eight_le := h.width_bounds.1
  le_max := h.width_bounds.2
  float hfloat := congrArg Precision.width hfloat
  double hdouble := congrArg Precision.width hdouble
  fixed type htype := by
    have hvalid : (Precision.fixed type).Valid := htype ▸ h.align
    obtain ⟨-, hmax, hbits⟩ := hvalid
    have hfixed : (Precision.fixed type).align = .fixed type := by
      rw [← htype]
      exact p.align_align
    exact ⟨hbits, hmax, Precision.fixed.inj hfixed⟩

theorem readPrecision_name (kind : FloatKind) :
    readPrecision (Named.name kind) = .ok (.floating kind) := by
  cases kind <;> rfl

theorem Registry.catalog_precision (registry : Registry) :
    registry.catalog.precision = readPrecision := by
  rw [Registry.catalog]

namespace Resolver

variable {resolver : Resolver}

/-- The type of a side is an aligned one, also that of a floating-point format, which is not looked
up. -/
theorem exists_align_of_sideType {spec : String} {p : Precision}
    (h : resolver.sideType spec = .ok p) :
    (∃ kind, p = (Precision.floating kind).align) ∨
      ∃ q, resolver.catalog.precision spec = .ok q ∧ p = q.align := by
  unfold sideType at h
  split at h
  · rename_i kind _
    exact .inl ⟨kind, (Except.ok.inj h).symm⟩
  · cases hspec : resolver.catalog.precision spec with
    | error e =>
        rw [hspec] at h
        contradiction
    | ok q =>
        rw [hspec] at h
        exact .inr ⟨q, rfl, (Except.ok.inj h).symm⟩

theorem aligned_of_sideType {spec : String} {p : Precision} (h : resolver.sideType spec = .ok p)
    (tensor : Tensor) : Side.Aligned ⟨p, p.width, tensor⟩ := by
  obtain ⟨kind, rfl⟩ | ⟨q, -, rfl⟩ := exists_align_of_sideType h
  · exact Side.aligned_of_align (.floating kind) tensor
  · exact Side.aligned_of_align q tensor

variable {registry : Registry}

/-- The names of floating-point formats are not looked up in a registry, but reading them would give
the same. -/
theorem sideType_eq_align_readPrecision (hcatalog : resolver.catalog = registry.catalog)
    (spec : String) :
    resolver.sideType spec =
      ((readPrecision spec).map Precision.align).mapError ConfigError.ofCatalog := by
  unfold sideType
  cases hname : (Named.ofName? spec : Option FloatKind) with
  | some kind =>
      obtain rfl := Named.ofName?_eq_some_iff.mp hname
      rw [readPrecision_name]
      rfl
  | none =>
      rw [hcatalog, Registry.catalog_precision]
      cases readPrecision spec <;> rfl

theorem exists_valid_of_sideType (hcatalog : resolver.catalog = registry.catalog) {spec : String}
    {p : Precision} (h : resolver.sideType spec = .ok p) :
    ∃ q : Precision, q.Valid ∧ p = q.align := by
  rw [sideType_eq_align_readPrecision hcatalog, mapError_eq_ok_iff] at h
  cases hread : readPrecision spec with
  | error error =>
      rw [hread] at h
      contradiction
  | ok q =>
      rw [hread] at h
      exact ⟨q, Precision.valid_of_parse (readPrecision_eq_ok_iff.mp hread), (Except.ok.inj h).symm⟩

theorem wellFormed_of_sideType (hcatalog : resolver.catalog = registry.catalog)
    {spec : String} {p : Precision} (h : resolver.sideType spec = .ok p) (tensor : Tensor) :
    Side.WellFormed ⟨p, p.width, tensor⟩ := by
  obtain ⟨q, hvalid, rfl⟩ := exists_valid_of_sideType hcatalog h
  exact Side.wellFormed_of_valid hvalid tensor

end Resolver

/-- The sides of a resolved accelerator are sent in whole bytes, whatever the catalog makes of specs.
If the catalog is a registry of boards, the accelerator is well formed. -/
theorem resolve_wellFormed {resolver : Resolver} {settings : Settings}
    {inputs outputs : List Tensor} {r : Resolution}
    (h : resolver.resolve settings inputs outputs = .ok r) :
    r.config.input.Aligned ∧ r.config.output.Aligned ∧
      ∀ registry : Registry, resolver.catalog = registry.catalog →
        r.config.WellFormed registry := by
  obtain ⟨boardInfo, inputSpec, outputSpec, input, output, inputType, outputType, hboard, -, -, -,
    hinput, houtput, rfl⟩ := resolver.resolve_eq_ok_iff.mp h
  refine ⟨Resolver.aligned_of_sideType hinput input, Resolver.aligned_of_sideType houtput output, ?_⟩
  intro registry hcatalog
  rw [hcatalog] at hboard
  exact
    { input := Resolver.wellFormed_of_sideType hcatalog hinput input
      output := Resolver.wellFormed_of_sideType hcatalog houtput output
      part_eq := rfl
      get?_board := Registry.board_eq_ok_iff.mp hboard }

theorem resolve_wellFormed_widest_and_narrowest :
    let registry : Registry := Table.empty.insert "pynq-z2" { part := "xc7z020" }
    let resolver : Resolver := { catalog := registry.catalog }
    let settings : Settings :=
      { accelerator := some (Section.withPrecision {} "ap_int<32767>" "ap_ufixed<1,0>") }
    let tensors := [Tensor.named "x"]
    ∃ r, resolver.resolve settings tensors tensors = .ok r ∧
      r.config.input.bitwidth = 32768 ∧ r.config.output.bitwidth = 8 ∧
      r.config.WellFormed registry := by
  intro registry resolver settings tensors
  have h : resolver.resolve settings tensors tensors = .ok _ := rfl
  exact ⟨_, h, rfl, rfl, (resolve_wellFormed h).2.2 registry rfl⟩

end FabricConfig

import FabricConfig.Proofs.Command.Respelling

/-! The command on precisions tells what a resolution makes of a spec. Against a registry, a
resolution fails over the specs for which the command fails, and otherwise its sides are what the
command shows. -/

namespace FabricConfig

/-! ### What the command does with a spec -/

namespace Command

variable {σ : Type} {world : World σ}

/-- A command ends with an error. -/
def Fails {α : Type} (command : ExceptT CommandError (StateM (World σ)) α) (world : World σ) :
    Prop :=
  ∃ error after, runIn command world = (.error error, after)

/-- For a spec, the command on precisions shows the type of a side as the aligned one, and its
bitwidth. -/
def ShowsSide (spec : String) (side : Side) (world : World σ) : Prop :=
  ∃ output parsed, runIn (precision spec) world = (.ok output, world) ∧
    Shows output parsed side.precision.spelling side.bitwidth.toNat.repr

theorem fails_precision_iff {spec : String} :
    Fails (precision spec) world ↔ ∃ error, readPrecision spec = .error error := by
  unfold Fails precision
  cases readPrecision spec <;> simp

theorem showsSide_of_readPrecision {spec : String} {p : Precision} (h : readPrecision spec = .ok p)
    (tensor : Tensor) : ShowsSide spec ⟨p.align, p.align.width, tensor⟩ world :=
  have hshows := shows_iff.mpr rfl
  ⟨_, p.spelling, runIn_precision_eq_ok_iff.mpr ⟨p, h, hshows, rfl⟩, hshows⟩

end Command

/-! ### What a resolution does with two specs -/

namespace Resolver

variable {registry : Registry} {resolver : Resolver} {settings : Settings} {boardInfo : Board}
  {inputSpec outputSpec : String}

/-- Once the board and the specs are there, a resolution for one tensor on each side reads the two
specs and aligns what they ask for. -/
theorem resolve_eq_readPrecision (hcatalog : resolver.catalog = registry.catalog)
    (hboard : registry.board (resolver.selectedBoard settings) = .ok boardInfo)
    (hsection : (resolver.selectedSection settings).precision =
      some ⟨some inputSpec, some outputSpec⟩) (input output : Tensor) :
    resolver.resolve settings [input] [output] = (do
      let p ← (readPrecision inputSpec).mapError ConfigError.ofCatalog
      let q ← (readPrecision outputSpec).mapError ConfigError.ofCatalog
      return resolver.resolution settings boardInfo ⟨p.align, p.align.width, input⟩
        ⟨q.align, q.align.width, output⟩) := by
  have hfound : resolver.catalog.board (resolver.selectedBoard settings) = .ok boardInfo := by
    rw [hcatalog]
    exact hboard
  rw [resolve_of_specs _ _ hfound (Section.specs_eq_ok_iff.mpr hsection),
    sideType_eq_align_readPrecision hcatalog, sideType_eq_align_readPrecision hcatalog]
  cases readPrecision inputSpec with
  | error error => simp only [Except.map, mapError_error, error_bind]
  | ok p =>
      cases readPrecision outputSpec with
      | error error => simp only [Except.map, mapError_ok, mapError_error, ok_bind, error_bind]
      | ok q => simp only [Except.map, mapError_ok, ok_bind]

end Resolver

/-- Against a registry, the type of a side is what its spec is read as, in whole bytes, also where it
is not looked up. So if the board is there and each side has one tensor, a resolution fails exactly
if the command on precisions does for one of the two specs, and otherwise the command shows the
types and bitwidths of the sides. -/
theorem resolve_agrees_with_precision {registry : Registry} {resolver : Resolver}
    (hcatalog : resolver.catalog = registry.catalog) :
    (∀ spec trace, (Resolving.runFrom (resolver.wireType spec) trace).1 =
        ((readPrecision spec).map Precision.align).mapError ConfigError.ofCatalog) ∧
      ∀ (settings : Settings) (boardInfo : Board) (inputSpec outputSpec : String)
        (input output : Tensor) (σ : Type) (world : World σ),
        registry.board (resolver.selectedBoard settings) = .ok boardInfo →
        (resolver.selectedSection settings).precision = some ⟨some inputSpec, some outputSpec⟩ →
        ((∃ error, resolver.resolve settings [input] [output] = .error error) ↔
          Command.Fails (Command.precision inputSpec) world ∨
            Command.Fails (Command.precision outputSpec) world) ∧
        ∀ r, resolver.resolve settings [input] [output] = .ok r →
          Command.ShowsSide inputSpec r.config.input world ∧
            Command.ShowsSide outputSpec r.config.output world := by
  refine ⟨fun spec trace => ?_, ?_⟩
  · rw [Resolver.runFrom_wireType, Resolver.sideType_eq_align_readPrecision hcatalog]
  intro settings boardInfo inputSpec outputSpec input output σ world hboard hsection
  rw [Resolver.resolve_eq_readPrecision hcatalog hboard hsection, Command.fails_precision_iff,
    Command.fails_precision_iff]
  cases hinput : readPrecision inputSpec with
  | error error => simp
  | ok p =>
      cases houtput : readPrecision outputSpec with
      | error error => simp
      | ok q =>
          refine ⟨by simp, ?_⟩
          intro r h
          obtain rfl := Except.ok.inj h
          exact ⟨Command.showsSide_of_readPrecision hinput input,
            Command.showsSide_of_readPrecision houtput output⟩

/-- A name with blanks around it is no name to the resolver and has to be read. A width that is not
one of whole bytes grows on both ways. Any spec that is refused ends both the command and the
resolution. -/
theorem resolve_agrees_with_precision_padded :
    let registry : Registry := Table.empty.insert "pynq-z2" { part := "xc7z020" }
    let resolver : Resolver := { catalog := registry.catalog }
    let settings (input output : String) : Settings :=
      { accelerator := some (Section.withPrecision {} input output) }
    let tensor := Tensor.named "x"
    ∀ (σ : Type) (world : World σ),
      (∃ r, resolver.resolve (settings "ap_int<13>" "\tfloat ") [tensor] [tensor] = .ok r ∧
        r.config.input.precision.spelling = "ap_fixed<16,13>" ∧ r.config.input.bitwidth = 16 ∧
        r.config.output.bitwidth = 32 ∧ Command.ShowsSide "ap_int<13>" r.config.input world ∧
        Command.ShowsSide "\tfloat " r.config.output world) ∧
      Command.Fails (Command.precision "Float") world ∧
      ∃ error, resolver.resolve (settings "float" "Float") [tensor] [tensor] = .error error := by
  intro registry resolver settings tensor σ world
  obtain ⟨-, hagrees⟩ :=
    resolve_agrees_with_precision (rfl : resolver.catalog = registry.catalog)
  obtain ⟨-, hshows⟩ := hagrees (settings "ap_int<13>" "\tfloat ") { part := "xc7z020" } _ _ tensor
    tensor σ world rfl rfl
  obtain ⟨hfails, -⟩ := hagrees (settings "float" "Float") { part := "xc7z020" } _ _ tensor tensor
    σ world rfl rfl
  obtain ⟨r, hr, hspelling, hinput, houtput⟩ : ∃ r,
      resolver.resolve (settings "ap_int<13>" "\tfloat ") [tensor] [tensor] = .ok r ∧
        r.config.input.precision.spelling = "ap_fixed<16,13>" ∧ r.config.input.bitwidth = 16 ∧
        r.config.output.bitwidth = 32 := ⟨_, rfl, rfl, rfl, rfl⟩
  have hrefused : Command.Fails (Command.precision "Float") world := ⟨_, _, rfl⟩
  exact ⟨⟨r, hr, hspelling, hinput, houtput, hshows r hr⟩, hrefused, hfails.mpr (.inr hrefused)⟩

end FabricConfig

import FabricConfig.Proofs.Command.Running
import FabricConfig.Proofs.Resolution.WellFormed

/-! Types of sides used as specs again. The type of a side is within the bounds of the grammar and
already aligned, so its spelling asks for just this type, in settings as well as on the command
line. -/

namespace FabricConfig

/-! ### Sides -/

namespace Resolver

variable {resolver : Resolver} {registry : Registry}

theorem sideType_spelling (hcatalog : resolver.catalog = registry.catalog) {p : Precision}
    (hvalid : p.Valid) (haligned : p.align = p) : resolver.sideType p.spelling = .ok p := by
  have hread : readPrecision p.spelling = .ok p :=
    readPrecision_eq_ok_iff.mpr (Precision.parse_spelling_eq_ok_iff.mpr ⟨rfl, hvalid⟩)
  rw [sideType_eq_align_readPrecision hcatalog, hread]
  exact congrArg Except.ok haligned

theorem sideType_spelling_of_sideType (hcatalog : resolver.catalog = registry.catalog)
    {spec : String} {p : Precision} (h : resolver.sideType spec = .ok p) :
    resolver.sideType p.spelling = .ok p := by
  obtain ⟨q, hvalid, rfl⟩ := exists_valid_of_sideType hcatalog h
  exact sideType_spelling hcatalog hvalid.align q.align_align

/-- The resolver with a section of its own: the one that it selects, with the types it came to in
place of the specs. -/
def respelled (resolver : Resolver) (settings : Settings) (config : Accelerator) : Resolver :=
  { resolver with
    accelerator := some ((resolver.selectedSection settings).withPrecision
      config.input.precision.spelling config.output.precision.spelling) }

theorem resolve_respelled (hcatalog : resolver.catalog = registry.catalog) {settings : Settings}
    {inputs outputs : List Tensor} {r : Resolution}
    (h : resolver.resolve settings inputs outputs = .ok r) :
    ∃ again, (resolver.respelled settings r.config).resolve settings inputs outputs = .ok again ∧
      again.config = r.config := by
  obtain ⟨boardInfo, inputSpec, outputSpec, input, output, inputType, outputType, hboard, -,
    hinputs, houtputs, hinput, houtput, rfl⟩ := resolver.resolve_eq_ok_iff.mp h
  have hinput' := sideType_spelling_of_sideType hcatalog hinput
  have houtput' := sideType_spelling_of_sideType hcatalog houtput
  refine ⟨_, (resolve_eq_ok_iff _).mpr ⟨boardInfo, inputType.spelling, outputType.spelling, input,
    output, inputType, outputType, hboard, rfl, hinputs, houtputs, hinput', houtput', rfl⟩, rfl⟩

end Resolver

/-! ### What the command on precisions prints -/

theorem Precision.newline_not_mem_letters (p : Precision) : '\n' ∉ p.letters := by
  cases p with
  | floating kind => cases kind <;> decide
  | fixed type =>
      have hparams : '\n' ∉ Text.join ',' type.form.params :=
        not_mem_join (by decide) (by decide) fun w => FixedType.word_of_mem_form
      have hkeyword : '\n' ∉ type.form.family.keyword := by cases type.form.family <;> decide
      rw [letters, FixedType.letters_eq]
      cases type.form.signed <;> simp [hparams, hkeyword]

namespace Command

variable {σ : Type} {world after : World σ}

/-- A printed text of three lines: a precision as it was read, its form in whole bytes, and the
width of that. -/
def Shows (output parsed aligned bitwidth : String) : Prop :=
  Text.split '\n' output.toList =
    [("parsed: " ++ parsed).toList, ("aligned: " ++ aligned).toList,
      ("bitwidth: " ++ bitwidth).toList, []]

/-- What stands after the labels is determined by the text. -/
theorem Shows.unique {output parsed aligned bitwidth parsed' aligned' bitwidth' : String}
    (h : Shows output parsed aligned bitwidth) (h' : Shows output parsed' aligned' bitwidth') :
    parsed = parsed' ∧ aligned = aligned' ∧ bitwidth = bitwidth' := by
  have hlines := h.symm.trans h'
  simpa [String.toList_append, String.toList_inj] using hlines

/-- Neither spellings nor numbers have line breaks, so the lines can be told apart. -/
theorem shows_iff {output : String} {p q : Precision} {bitwidth : Nat} :
    Shows output p.spelling q.spelling bitwidth.repr ↔
      output = "parsed: " ++ p.spelling ++ "\n" ++ "aligned: " ++ q.spelling ++ "\n" ++
        "bitwidth: " ++ bitwidth.repr ++ "\n" := by
  have hparsed := p.newline_not_mem_letters
  have haligned := q.newline_not_mem_letters
  have hbitwidth : '\n' ∉ Nat.toDigits 10 bitwidth :=
    (word_decimal bitwidth).not_mem (by decide)
  rw [Shows, Text.split_eq_iff, ← String.toList_inj]
  constructor
  · intro h
    rw [← h.join_eq]
    simp [Text.join]
  · intro h
    refine ⟨by simp, ?_, ?_⟩
    · simp [Precision.spelling, Nat.repr, hparsed, haligned, hbitwidth]
    · rw [h]
      simp [Text.join]

theorem runIn_precision_eq_ok_iff {spec output : String} :
    runIn (precision spec) world = (.ok output, after) ↔
      ∃ p, readPrecision spec = .ok p ∧
        Shows output p.spelling p.align.spelling p.align.width.toNat.repr ∧ after = world := by
  unfold precision
  cases readPrecision spec with
  | error error => simp
  | ok p => simp [shows_iff, eq_comm]

theorem precision_respelled {spec output : String}
    (h : runIn (precision spec) world = (.ok output, after)) :
    ∃ parsed aligned bitwidth again, Shows output parsed aligned bitwidth ∧
      runIn (precision aligned) after = (.ok again, after) ∧
      Shows again aligned aligned bitwidth := by
  obtain ⟨p, hread, hshows, rfl⟩ := runIn_precision_eq_ok_iff.mp h
  have hvalid := (Precision.valid_of_parse (readPrecision_eq_ok_iff.mp hread)).align
  have hagain : readPrecision p.align.spelling = .ok p.align :=
    readPrecision_eq_ok_iff.mpr (Precision.parse_spelling_eq_ok_iff.mpr ⟨rfl, hvalid⟩)
  obtain ⟨again, hshows'⟩ : ∃ again, Shows again p.align.spelling p.align.spelling
      p.align.width.toNat.repr := ⟨_, shows_iff.mpr rfl⟩
  refine ⟨_, _, _, again, hshows, runIn_precision_eq_ok_iff.mpr ⟨p.align, hagain, ?_, rfl⟩, hshows'⟩
  rwa [p.align_align]

end Command

/-! ### Both -/

/-- Resolved types are stable as specs. If the types that a resolution came to are given in place of
the specs, it comes to the same configuration. And what the command on precisions shows as aligned
it reads as that and shows unchanged. -/
theorem spellings_stable :
    (∀ (registry : Registry) (resolver : Resolver) (settings : Settings)
        (inputs outputs : List Tensor) (r : Resolution), resolver.catalog = registry.catalog →
      resolver.resolve settings inputs outputs = .ok r →
      ∃ again, (resolver.respelled settings r.config).resolve settings inputs outputs = .ok again ∧
        again.config = r.config) ∧
    ∀ (σ : Type) (world after : World σ) (spec output : String),
      Command.runIn (Command.precision spec) world = (.ok output, after) →
      ∃ parsed aligned bitwidth again, Command.Shows output parsed aligned bitwidth ∧
        Command.runIn (Command.precision aligned) after = (.ok again, after) ∧
        Command.Shows again aligned aligned bitwidth :=
  ⟨fun _ _ _ _ _ _ hcatalog h => Resolver.resolve_respelled hcatalog h,
    fun _ _ _ _ _ h => Command.precision_respelled h⟩

/-- The widest integer that is not aligned grows to the largest width of the grammar. -/
theorem spellings_stable_widest :
    let registry : Registry := Table.empty.insert "pynq-z2" { part := "xc7z020" }
    let resolver : Resolver := { catalog := registry.catalog }
    let settings : Settings :=
      { accelerator := some (Section.withPrecision {} "ap_int<32767>" " double ") }
    let tensors := [Tensor.named "x"]
    let again : Resolver :=
      { resolver with
        accelerator := some (Section.withPrecision {} "ap_fixed<32768,32767>" "double") }
    (∃ r s, resolver.resolve settings tensors tensors = .ok r ∧
      again.resolve settings tensors tensors = .ok s ∧ s.config = r.config) ∧
    let output := "parsed: ap_int<13>\naligned: ap_fixed<16,13>\nbitwidth: 16\n"
    ∀ (σ : Type) (world : World σ),
      Command.runIn (Command.precision "int<13>") world = (.ok output, world) ∧
      ∃ result, Command.runIn (Command.precision "ap_fixed<16,13>") world = (.ok result, world) ∧
        Command.Shows result "ap_fixed<16,13>" "ap_fixed<16,13>" "16" := by
  intro registry resolver settings tensors again
  obtain ⟨hresolve, hprecision⟩ := spellings_stable
  constructor
  · have h : resolver.resolve settings tensors tensors = .ok _ := rfl
    obtain ⟨s, hs, hconfig⟩ := hresolve registry resolver settings tensors tensors _ rfl h
    exact ⟨_, s, h, hs, hconfig⟩
  · intro output σ world
    have h : Command.runIn (Command.precision "int<13>") world = (.ok output, world) := rfl
    have hshows : Command.Shows output "ap_int<13>" "ap_fixed<16,13>" "16" := by
      simp [Command.Shows, output, Text.split]
    obtain ⟨parsed, aligned, bitwidth, result, hshows', hagain, hresult⟩ :=
      hprecision σ world world "int<13>" output h
    obtain ⟨rfl, rfl, rfl⟩ := hshows.unique hshows'
    exact ⟨h, result, hagain, hresult⟩

end FabricConfig

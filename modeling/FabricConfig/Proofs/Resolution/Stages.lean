import FabricConfig.Outcome
import FabricConfig.Proofs.Named
import FabricConfig.Resolution.Resolver

/-! The stages of a resolution. Each stage is described by what it returns and by what it adds to the
trace. Put together they say which stage decides the result: the first one that fails, or the last. -/

namespace FabricConfig

/-! ### Running a computation -/

/-- A trace after some more events. -/
def Trace.logged (trace : Trace) (events : List Event) : Trace :=
  { trace with events := trace.events ++ events }

/-- A trace after some more questions to the catalog. -/
def Trace.asking (trace : Trace) (specs : List String) : Trace :=
  { trace with asked := trace.asked ++ specs }

@[simp] theorem Trace.logged_nil (trace : Trace) : trace.logged [] = trace := by
  simp [Trace.logged]

@[simp] theorem Trace.asking_nil (trace : Trace) : trace.asking [] = trace := by
  simp [Trace.asking]

namespace Resolving

variable {α β : Type}

/-- Runs a computation that continues a trace. -/
def runFrom (computation : Resolving α) (trace : Trace) : Except ConfigError α × Trace :=
  StateT.run (ExceptT.run computation) trace

@[simp] theorem runFrom_pure (a : α) (trace : Trace) :
    runFrom (pure a) trace = (.ok a, trace) :=
  rfl

theorem runFrom_bind (first : Resolving α) (next : α → Resolving β) (trace : Trace) :
    runFrom (first >>= next) trace =
      match runFrom first trace with
      | (.ok a, trace) => runFrom (next a) trace
      | (.error e, trace) => (.error e, trace) := by
  simp only [runFrom, ExceptT.run_bind, StateT.run_bind]
  rcases StateT.run (ExceptT.run first) trace with ⟨_ | _, _⟩ <;> rfl

@[simp] theorem runFrom_log (event : Event) (trace : Trace) :
    runFrom (log event) trace = (.ok (), trace.logged [event]) :=
  rfl

@[simp] theorem runFrom_ask (spec : String) (trace : Trace) :
    runFrom (ask spec) trace = (.ok (), trace.asking [spec]) :=
  rfl

@[simp] theorem runFrom_liftExcept (result : Except ConfigError α) (trace : Trace) :
    runFrom (liftExcept result) trace = (result, trace) := by
  cases result <;> rfl

@[simp] theorem runFrom_ofCatalog (answer : Except CatalogError α) (trace : Trace) :
    runFrom (ofCatalog answer) trace = (answer.mapError ConfigError.ofCatalog, trace) :=
  runFrom_liftExcept _ _

end Resolving

/-! ### One stage -/

theorem Section.specs_eq_ok_iff {accelerator : Section} {input output : String} :
    accelerator.specs = .ok (input, output) ↔
      accelerator.precision = some ⟨some input, some output⟩ := by
  unfold specs
  rcases accelerator.precision with _ | ⟨_ | input, _ | output⟩ <;> simp

/-- The event that tells of a correction. -/
def Correction.event (board : String) : Correction → Event
  | .part requested canonical => .partReplaced board requested canonical
  | .accelerator _ => .sectionDefaulted board

namespace Resolver

open Resolving

variable (resolver : Resolver) (settings : Settings)

/-- The name of the board that is used. -/
def selectedBoard : String :=
  (resolver.board <|> settings.board).getD "pynq-z2"

/-- The section on the accelerator that is used. -/
def selectedSection : Section :=
  (resolver.accelerator <|> settings.accelerator).getD .fallback

/-- The correction of a part that is not the board's one. -/
def partCorrections (canonical : String) : List Correction :=
  match settings.part with
  | none => []
  | some requested => if requested = canonical then [] else [.part requested canonical]

/-- The correction of a section that nothing gives. -/
def sectionCorrections : List Correction :=
  match resolver.accelerator <|> settings.accelerator with
  | some _ => []
  | none => [.accelerator .fallback]

/-- The type of a side, or why there is none. -/
def sideType (spec : String) : Except ConfigError Precision :=
  match (Named.ofName? spec : Option FloatKind) with
  | some kind => .ok (.floating kind)
  | none => ((resolver.catalog.precision spec).mapError ConfigError.ofCatalog).map Precision.align

/-- What the catalog is asked about a side. -/
def questions (spec : String) : List String :=
  match (Named.ofName? spec : Option FloatKind) with
  | some _ => []
  | none => [spec]

theorem runFrom_checkPart (board canonical : String) (trace : Trace) :
    runFrom (checkPart board canonical settings.part) trace =
      (.ok (partCorrections settings canonical),
        trace.logged ((partCorrections settings canonical).map (Correction.event board))) := by
  unfold checkPart partCorrections
  cases settings.part with
  | none => simp
  | some requested =>
      dsimp only
      by_cases h : requested = canonical
      · simp [h]
      · rw [if_neg h, if_neg h, runFrom_bind]
        rfl

theorem runFrom_chooseSection (board : String) (trace : Trace) :
    runFrom (resolver.chooseSection settings board) trace =
      (.ok (resolver.selectedSection settings, resolver.sectionCorrections settings),
        trace.logged ((resolver.sectionCorrections settings).map (Correction.event board))) := by
  unfold chooseSection selectedSection sectionCorrections
  cases resolver.accelerator <|> settings.accelerator with
  | none =>
      rw [runFrom_bind]
      rfl
  | some accelerator => simp

theorem runFrom_wireType (spec : String) (trace : Trace) :
    runFrom (resolver.wireType spec) trace =
      (resolver.sideType spec, trace.asking (questions spec)) := by
  unfold wireType sideType questions
  cases (Named.ofName? spec : Option FloatKind) with
  | some kind => simp
  | none =>
      simp only [runFrom_bind, runFrom_ask, runFrom_ofCatalog]
      cases resolver.catalog.precision spec <;> rfl

/-! ### All stages -/

/-- The resolution that comes out when every stage has passed. -/
def resolution (boardInfo : Board) (input output : Side) : Resolution where
  config :=
    { board := resolver.selectedBoard settings
      part := boardInfo.part
      boardInfo
      interface := (resolver.selectedSection settings).interface.getD .stream
      driver := (resolver.selectedSection settings).driver.getD .python
      input
      output
      templateRoot := resolver.templateRoot }
  corrections :=
    partCorrections settings boardInfo.part ++ resolver.sectionCorrections settings

/-- The event that ends a resolution, if it comes to its end. -/
def finalEvents : Except ConfigError Resolution → List Event
  | .ok r => [.resolved r.config]
  | .error _ => []

/-- What is logged by a resolution with a given result: once the board is found, one event for each
correction, and the one at the end. -/
def loggedEvents (result : Except ConfigError Resolution) : List Event :=
  match resolver.catalog.board (resolver.selectedBoard settings) with
  | .error _ => []
  | .ok boardInfo =>
    (partCorrections settings boardInfo.part ++ resolver.sectionCorrections settings).map
      (Correction.event (resolver.selectedBoard settings)) ++ finalEvents result

/-- A resolution is its stages in a row, and what it logs is determined by how it ends. -/
theorem trace_stages (inputs outputs : List Tensor) :
    (resolver.trace settings inputs outputs).1 = (do
      let boardInfo ← (resolver.catalog.board (resolver.selectedBoard settings)).mapError
        ConfigError.ofCatalog
      let specs ← (resolver.selectedSection settings).specs
      let tensors ← tensorPair inputs outputs
      let inputType ← resolver.sideType specs.1
      let outputType ← resolver.sideType specs.2
      return resolver.resolution settings boardInfo ⟨inputType, inputType.width, tensors.1⟩
        ⟨outputType, outputType.width, tensors.2⟩) ∧
      (resolver.trace settings inputs outputs).2.events =
        resolver.loggedEvents settings (resolver.trace settings inputs outputs).1 := by
  have htrace : resolver.trace settings inputs outputs =
      runFrom (resolver.run settings inputs outputs) {} := rfl
  have hname : resolver.boardName settings = resolver.selectedBoard settings := rfl
  rw [htrace, run, loggedEvents]
  simp only [runFrom_bind, runFrom_ofCatalog, hname]
  cases resolver.catalog.board (resolver.selectedBoard settings) with
  | error e => exact ⟨rfl, rfl⟩
  | ok boardInfo =>
      simp only [mapError_ok, runFrom_checkPart, runFrom_chooseSection, runFrom_liftExcept, ok_bind]
      cases (resolver.selectedSection settings).specs with
      | error e => exact ⟨rfl, by simp [Trace.logged, finalEvents]⟩
      | ok specs =>
          simp only [ok_bind]
          cases tensorPair inputs outputs with
          | error e => exact ⟨rfl, by simp [Trace.logged, finalEvents]⟩
          | ok tensors =>
              simp only [runFrom_wireType, ok_bind]
              cases resolver.sideType specs.1 with
              | error e => exact ⟨rfl, by simp [Trace.logged, Trace.asking, finalEvents]⟩
              | ok inputType =>
                  simp only [ok_bind]
                  cases resolver.sideType specs.2 with
                  | error e => exact ⟨rfl, by simp [Trace.logged, Trace.asking, finalEvents]⟩
                  | ok outputType =>
                      exact ⟨rfl, by simp [Trace.logged, Trace.asking, finalEvents]⟩

/-- A resolution without its trace: the stages in a row. -/
theorem resolve_eq (inputs outputs : List Tensor) :
    resolver.resolve settings inputs outputs = (do
      let boardInfo ← (resolver.catalog.board (resolver.selectedBoard settings)).mapError
        ConfigError.ofCatalog
      let specs ← (resolver.selectedSection settings).specs
      let tensors ← tensorPair inputs outputs
      let inputType ← resolver.sideType specs.1
      let outputType ← resolver.sideType specs.2
      return resolver.resolution settings boardInfo ⟨inputType, inputType.width, tensors.1⟩
        ⟨outputType, outputType.width, tensors.2⟩) :=
  (resolver.trace_stages settings inputs outputs).1

theorem events_eq (inputs outputs : List Tensor) :
    (resolver.trace settings inputs outputs).2.events =
      resolver.loggedEvents settings (resolver.resolve settings inputs outputs) :=
  (resolver.trace_stages settings inputs outputs).2

/-- Once the board, the specs and the tensors are there, only the types can fail. -/
theorem resolve_of_specs {boardInfo : Board} {inputSpec outputSpec : String}
    (hboard : resolver.catalog.board (resolver.selectedBoard settings) = .ok boardInfo)
    (hspecs : (resolver.selectedSection settings).specs = .ok (inputSpec, outputSpec))
    (input output : Tensor) :
    resolver.resolve settings [input] [output] = (do
      let inputType ← resolver.sideType inputSpec
      let outputType ← resolver.sideType outputSpec
      return resolver.resolution settings boardInfo ⟨inputType, inputType.width, input⟩
        ⟨outputType, outputType.width, output⟩) := by
  rw [resolve_eq, hboard, hspecs]
  rfl

theorem tensorPair_eq_ok_iff {inputs outputs : List Tensor} {input output : Tensor} :
    tensorPair inputs outputs = .ok (input, output) ↔ inputs = [input] ∧ outputs = [output] := by
  unfold tensorPair
  split
  · simp
  · rename_i hnot
    constructor
    · intro h
      contradiction
    · rintro ⟨rfl, rfl⟩
      exact absurd rfl (hnot input output rfl)

theorem resolve_eq_ok_iff {settings : Settings} {inputs outputs : List Tensor} {r : Resolution} :
    resolver.resolve settings inputs outputs = .ok r ↔
      ∃ boardInfo inputSpec outputSpec input output inputType outputType,
        resolver.catalog.board (resolver.selectedBoard settings) = .ok boardInfo ∧
        (resolver.selectedSection settings).specs = .ok (inputSpec, outputSpec) ∧
        inputs = [input] ∧ outputs = [output] ∧
        resolver.sideType inputSpec = .ok inputType ∧
        resolver.sideType outputSpec = .ok outputType ∧
        r = resolver.resolution settings boardInfo ⟨inputType, inputType.width, input⟩
          ⟨outputType, outputType.width, output⟩ := by
  constructor
  · intro h
    rw [resolve_eq] at h
    obtain ⟨boardInfo, hboard, h⟩ := bind_eq_ok_iff.mp h
    obtain ⟨⟨inputSpec, outputSpec⟩, hspecs, h⟩ := bind_eq_ok_iff.mp h
    obtain ⟨⟨input, output⟩, htensors, h⟩ := bind_eq_ok_iff.mp h
    obtain ⟨inputType, hinput, h⟩ := bind_eq_ok_iff.mp h
    obtain ⟨outputType, houtput, h⟩ := bind_eq_ok_iff.mp h
    obtain ⟨hinputs, houtputs⟩ := tensorPair_eq_ok_iff.mp htensors
    exact ⟨boardInfo, inputSpec, outputSpec, input, output, inputType, outputType,
      mapError_eq_ok_iff.mp hboard, hspecs, hinputs, houtputs, hinput, houtput,
      (Except.ok.inj h).symm⟩
  · rintro ⟨boardInfo, inputSpec, outputSpec, input, output, inputType, outputType, hboard, hspecs,
      rfl, rfl, hinput, houtput, rfl⟩
    rw [resolve_of_specs _ _ hboard hspecs, hinput, houtput]
    rfl

end Resolver

end FabricConfig

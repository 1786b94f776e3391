import FabricConfig.Log.Event

/-! Resolution of settings against a catalog: the board and its part, the section on the
accelerator, the tensors and the types of the two sides, in this order. The first problem ends it.
-/

namespace FabricConfig

/-- A resolver: where it looks things up, and what it uses instead of the settings. -/
structure Resolver where
  catalog : Catalog
  board : Option String := none
  accelerator : Option Section := none
  templateRoot : String := Accelerator.defaultTemplateRoot

/-- What a resolution leaves behind besides its result: the events it logged and the specs that it
asked the catalog about, in order. -/
structure Trace where
  events : List Event := []
  asked : List String := []
deriving DecidableEq

/-- A computation that may fail and leaves a trace. -/
abbrev Resolving : Type → Type :=
  ExceptT ConfigError (StateM Trace)

namespace Resolving

/-- Logs an event. -/
def log (event : Event) : Resolving Unit :=
  modify fun trace => { trace with events := trace.events ++ [event] }

/-- Notes a spec that the catalog is asked about. -/
def ask (spec : String) : Resolving Unit :=
  modify fun trace => { trace with asked := trace.asked ++ [spec] }

/-- Uses the answer of a catalog. -/
def ofCatalog {α : Type} (answer : Except CatalogError α) : Resolving α :=
  liftExcept (answer.mapError ConfigError.ofCatalog)

end Resolving

/-- The specs of the two sides, which both have to be there. -/
def Section.specs (accelerator : Section) : Except ConfigError (String × String) :=
  match accelerator.precision with
  | none => .error (.incomplete "Precision")
  | some ⟨none, _⟩ => .error (.incomplete "Precision.Input")
  | some ⟨some _, none⟩ => .error (.incomplete "Precision.Output")
  | some ⟨some input, some output⟩ => .ok (input, output)

/-- The only input and the only output of a model. -/
def tensorPair : List Tensor → List Tensor → Except ConfigError (Tensor × Tensor)
  | [input], [output] => .ok (input, output)
  | inputs, outputs => .error (.unsupportedTensorCount inputs.length outputs.length)

namespace Resolver

/-- The board used if nothing names one. -/
def defaultBoard : String := "pynq-z2"

/-- The name of the board. -/
def boardName (resolver : Resolver) (settings : Settings) : String :=
  (resolver.board <|> settings.board).getD defaultBoard

/-- Compares the part that was asked for with the board's one, which is used in any case. -/
def checkPart (board canonical : String) : Option String → Resolving (List Correction)
  | none => return []
  | some requested =>
    if requested = canonical then return []
    else do
      Resolving.log (.partReplaced board requested canonical)
      return [.part requested canonical]

/-- The section on the accelerator. -/
def chooseSection (resolver : Resolver) (settings : Settings) (board : String) :
    Resolving (Section × List Correction) :=
  match resolver.accelerator <|> settings.accelerator with
  | some accelerator => return (accelerator, [])
  | none => do
    Resolving.log (.sectionDefaulted board)
    return (.fallback, [.accelerator .fallback])

/-- The type of one side: what its spec asks for, in whole bytes. The names of the floating-point
formats are not looked up. -/
def wireType (resolver : Resolver) (spec : String) : Resolving Precision :=
  match Named.ofName? spec with
  | some kind => return .floating kind
  | none => do
    Resolving.ask spec
    let precision ← Resolving.ofCatalog (resolver.catalog.precision spec)
    return precision.align

/-- Resolves settings for a model. -/
def run (resolver : Resolver) (settings : Settings) (inputs outputs : List Tensor) :
    Resolving Resolution := do
  let board := resolver.boardName settings
  let boardInfo ← Resolving.ofCatalog (resolver.catalog.board board)
  let partCorrections ← checkPart board boardInfo.part settings.part
  let (accelerator, sectionCorrections) ← resolver.chooseSection settings board
  let (inputSpec, outputSpec) ← liftExcept accelerator.specs
  let (input, output) ← liftExcept (tensorPair inputs outputs)
  let inputType ← resolver.wireType inputSpec
  let outputType ← resolver.wireType outputSpec
  let config : Accelerator :=
    { board, part := boardInfo.part, boardInfo
      interface := accelerator.interface.getD default
      driver := accelerator.driver.getD default
      input := ⟨inputType, inputType.width, input⟩
      output := ⟨outputType, outputType.width, output⟩
      templateRoot := resolver.templateRoot }
  Resolving.log (.resolved config)
  return { config, corrections := partCorrections ++ sectionCorrections }

/-- The result of a resolution and its trace. -/
def trace (resolver : Resolver) (settings : Settings) (inputs outputs : List Tensor) :
    Except ConfigError Resolution × Trace :=
  StateT.run (ExceptT.run (resolver.run settings inputs outputs)) {}

/-- The result of a resolution. -/
def resolve (resolver : Resolver) (settings : Settings) (inputs outputs : List Tensor) :
    Except ConfigError Resolution :=
  (resolver.trace settings inputs outputs).1

end Resolver

end FabricConfig

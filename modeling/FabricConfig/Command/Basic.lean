import FabricConfig.Command.Surroundings
import FabricConfig.Json.Printer
import FabricConfig.Resolution.Encoding
import FabricConfig.Resolution.Resolver

/-! The commands. Each gives the text that it prints. -/

namespace FabricConfig

/-- Why a command fails. -/
inductive CommandError where
  | registryNotRead (path : String) (fault : FileFault)
  | registryInvalid (path : String) (error : CatalogError)
  | settingsNotRead (path : String) (fault : FileFault)
  | settingsInvalid (path : String) (error : Json.DecodeError)
  | boardNotKnown (known : List String) (name : String)
  | notResolved (error : ConfigError)
  | noScript (error : ConfigError)
  | invalidPrecision (error : CatalogError)
  | notWritten (path : String) (fault : FileFault)

/-- The messages of an error, from what could not be done to why. -/
def CommandError.chain : CommandError → List String
  | .registryNotRead path fault =>
    ["Failed to read board registry " ++ Text.inQuotes path, fault.message]
  | .registryInvalid path error =>
    ["Invalid board registry in " ++ Text.inQuotes path, error.message]
  | .settingsNotRead path fault => ["Failed to read config " ++ Text.inQuotes path, fault.message]
  | .settingsInvalid path error => ["Invalid JSON in " ++ Text.inQuotes path, error.message]
  | .boardNotKnown known name =>
    ["Failed to resolve accelerator config (known boards: " ++ ", ".intercalate known ++ ")",
     (ConfigError.unknownBoard name).message]
  | .notResolved error => ["Failed to resolve accelerator config", error.message]
  | .noScript error => [error.message]
  | .invalidPrecision error => [error.message]
  | .notWritten path fault => ["Failed to write " ++ Text.inQuotes path, fault.message]

namespace Command

variable {m : Type → Type} [Monad m] [Surroundings m]

/-- Logs an event. -/
def log (event : Event) : ExceptT CommandError m Unit :=
  ExceptT.lift (Surroundings.log event)

/-- Reads the registry in a file. -/
def loadRegistry (path : String) : ExceptT CommandError m Registry := do
  match ← ExceptT.lift (readText path) with
  | .error fault => throw (.registryNotRead path fault)
  | .ok text =>
    match Registry.ofText text with
    | .error error => throw (.registryInvalid path error)
    | .ok registry =>
      log (.registryLoaded registry.size)
      return registry

/-- Reads the settings in a file. -/
def loadSettings (path : String) : ExceptT CommandError m Settings := do
  match ← ExceptT.lift (readText path) with
  | .error fault => throw (.settingsNotRead path fault)
  | .ok text =>
    match Settings.ofText text with
    | .error error => throw (.settingsInvalid path error)
    | .ok settings => return settings

/-- Resolves settings for a model with tensors of the given names. -/
def resolveSettings (registry : Registry) (settings : Settings) (board : Option String)
    (inputs outputs : List String) : ExceptT CommandError m Resolution := do
  let resolver : Resolver := { catalog := registry.catalog, board }
  let (result, trace) :=
    resolver.trace settings (inputs.map Tensor.named) (outputs.map Tensor.named)
  trace.events.forM log
  match result with
  | .ok resolution => return resolution
  | .error (.unknownBoard name) => throw (.boardNotKnown registry.keys name)
  | .error error => throw (.notResolved error)

/-- Writes settings to a file. -/
def saveSettings (path : String) (settings : Settings) : ExceptT CommandError m Unit := do
  match ← ExceptT.lift (Surroundings.write path settings.toJson.pretty) with
  | .ok () => return
  | .error fault => throw (.notWritten path fault)

/-- Resolves the settings in a file. With `writeBack`, the corrected settings are written there. -/
def resolve (boards config : String) (board : Option String) (inputs outputs : List String)
    (writeBack : Option String) : ExceptT CommandError m String := do
  let registry ← loadRegistry boards
  let settings ← loadSettings config
  let resolution ← resolveSettings registry settings board inputs outputs
  if let some path := writeBack then
    saveSettings path (resolution.applyCorrections settings)
    log (.settingsWritten path resolution.corrections.length)
  return resolution.toJson.pretty

/-- Lists the paths of the templates of a resolved accelerator. -/
def paths (boards config : String) (board : Option String) : ExceptT CommandError m String := do
  let registry ← loadRegistry boards
  let settings ← loadSettings config
  let resolution ← resolveSettings registry settings board ["input"] ["output"]
  let config := resolution.config
  match config.scriptPath with
  | .error error => throw (.noScript error)
  | .ok script =>
    return "driver: " ++ config.driverPath ++ "\n" ++
      "wrapper: " ++ config.wrapperPath ++ "\n" ++
      "constraints: " ++ config.constraintsPath ++ "\n" ++
      "tcl: " ++ script ++ "\n"

/-- Shows a precision and its form in whole bytes. -/
def precision (spec : String) : ExceptT CommandError m String :=
  match readPrecision spec with
  | .error error => throw (.invalidPrecision error)
  | .ok precision =>
    return "parsed: " ++ precision.spelling ++ "\n" ++
      "aligned: " ++ precision.align.spelling ++ "\n" ++
      "bitwidth: " ++ precision.align.width.toNat.repr ++ "\n"

/-- Lists the boards of a registry with their parts. -/
def boards (path : String) : ExceptT CommandError m String := do
  let registry ← loadRegistry path
  return String.join (registry.entries.map fun (name, board) => name ++ "\t" ++ board.part ++ "\n")

end Command

end FabricConfig

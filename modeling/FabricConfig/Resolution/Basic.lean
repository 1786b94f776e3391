import FabricConfig.Catalog
import FabricConfig.Precision.Alignment
import FabricConfig.Precision.Spelling
import FabricConfig.Settings.Basic

/-! Resolved accelerators, where their template files are, and the corrections to the settings that
a resolution made. -/

namespace FabricConfig

/-- Why settings cannot be resolved. -/
inductive ConfigError where
  | unknownBoard (name : String)
  | incomplete (missing : String)
  | unsupportedTensorCount (inputs outputs : Nat)
  | invalidPrecision (spec reason : String)
  | missingScript (board : String) (interface : Interface)
  | catalog (message : String)
deriving DecidableEq

namespace ConfigError

def message : ConfigError → String
  | .unknownBoard name => "board '" ++ name ++ "' does not appear in the board registry"
  | .incomplete missing => "incomplete AcceleratorConfig: " ++ missing ++ " must be provided"
  | .unsupportedTensorCount inputs outputs =>
    "only models with one input and one output tensor are supported (got " ++ inputs.repr ++
      " input(s), " ++ outputs.repr ++ " output(s))"
  | .invalidPrecision spec reason => "invalid precision spec '" ++ spec ++ "': " ++ reason
  | .missingScript board interface =>
    "no tcl script available for board '" ++ board ++ "' and interface " ++ Named.name interface
  | .catalog message => "catalog error: " ++ message

/-- What the failure of a catalog means for a resolution. -/
def ofCatalog : CatalogError → ConfigError
  | .unknownBoard name => .unknownBoard name
  | .invalidPrecision spec reason => .invalidPrecision spec reason
  | .registry message => .catalog message

end ConfigError

/-- One side of an accelerator. -/
structure Side where
  precision : Precision
  bitwidth : UInt32
  tensor : Tensor
deriving DecidableEq

/-- A resolved accelerator. -/
structure Accelerator where
  board : String
  part : String
  boardInfo : Board
  interface : Interface
  driver : Driver
  input : Side
  output : Side
  templateRoot : String
deriving DecidableEq

namespace Accelerator

/-- Where templates are, unless a resolver says otherwise. -/
def defaultTemplateRoot : String := "../templates/vivado_accelerator"

/-- The directory of the board's templates. -/
def boardDirectory (a : Accelerator) : String :=
  a.templateRoot ++ "/" ++ a.board

/-- The last part of the path of the driver. -/
def driverFiles (a : Accelerator) : String :=
  match a.driver.extension? with
  | none => "sdk"
  | some extension => Named.name a.interface ++ "_driver." ++ extension

def driverPath (a : Accelerator) : String :=
  a.boardDirectory ++ "/" ++ Named.name a.driver ++ "_drivers/" ++ a.driverFiles

def wrapperPath (a : Accelerator) : String :=
  a.boardDirectory ++ "/verilog_wrappers"

def constraintsPath (a : Accelerator) : String :=
  a.boardDirectory ++ "/xdc_constraints"

/-- The path of the script for the interface, if the board has one. -/
def scriptPath (a : Accelerator) : Except ConfigError String :=
  match a.boardInfo.script? a.interface with
  | some script => .ok (a.boardDirectory ++ "/tcl_scripts/" ++ script)
  | none => .error (.missingScript a.board a.interface)

end Accelerator

/-- A change to the settings. -/
inductive Correction where
  /-- The part that was asked for is not the board's one. -/
  | part (requested canonical : String)
  /-- There was no section on the accelerator. -/
  | accelerator (fallback : Section)
deriving DecidableEq

namespace Correction

/-- Makes the change. -/
def apply (correction : Correction) (settings : Settings) : Settings :=
  match correction with
  | .part _ canonical => { settings with part := some canonical }
  | .accelerator fallback => { settings with accelerator := some fallback }

/-- Whether the change overrides what the user asked for. -/
def isWarning : Correction → Bool
  | .part .. => true
  | .accelerator _ => false

def message : Correction → String
  | .part requested canonical =>
    "XilinxPart '" ++ requested ++ "' does not correspond to the board; using '" ++ canonical ++ "'"
  | .accelerator _ => "no AcceleratorConfig given; using default section"

end Correction

/-- A resolved accelerator and the corrections made on the way, in order. -/
structure Resolution where
  config : Accelerator
  corrections : List Correction
deriving DecidableEq

namespace Resolution

/-- The settings with all corrections made. -/
def applyCorrections (resolution : Resolution) (settings : Settings) : Settings :=
  resolution.corrections.foldl (fun settings correction => correction.apply settings) settings

/-- The corrections that override what the user asked for. -/
def warnings (resolution : Resolution) : List Correction :=
  resolution.corrections.filter Correction.isWarning

end Resolution

end FabricConfig

import FabricConfig.Resolution.Basic
import FabricConfig.Text.Quoted

/-! Log events. -/

namespace FabricConfig

/-- How important an event is. -/
inductive Level where
  | error
  | warn
  | info
  | debug
  | trace
deriving DecidableEq

namespace Level

/-- Higher for events that are shown less often. -/
def rank : Level → Nat
  | .error => 1
  | .warn => 2
  | .info => 3
  | .debug => 4
  | .trace => 5

instance : Named Level where
  all := [.error, .warn, .info, .debug, .trace]
  name
    | .error => "ERROR"
    | .warn => "WARN"
    | .info => "INFO"
    | .debug => "DEBUG"
    | .trace => "TRACE"

end Level

/-- What is worth a line in the log. -/
inductive Event where
  | registryLoaded (boards : Nat)
  | partReplaced (board requested canonical : String)
  | sectionDefaulted (board : String)
  | resolved (config : Accelerator)
  | settingsWritten (path : String) (corrections : Nat)
deriving DecidableEq

/-- The value of a field of an event. -/
inductive FieldValue where
  | text (value : String)
  | number (value : Nat)
deriving DecidableEq

namespace Event

def level : Event → Level
  | .registryLoaded _ => .debug
  | .partReplaced .. => .warn
  | .sectionDefaulted _ => .info
  | .resolved _ => .debug
  | .settingsWritten .. => .info

def message : Event → String
  | .registryLoaded _ => "loaded board registry"
  | .partReplaced .. => "XilinxPart does not correspond to the board; the board's part is used"
  | .sectionDefaulted _ => "no AcceleratorConfig given, using default section"
  | .resolved _ => "resolved accelerator config"
  | .settingsWritten .. => "wrote corrected config"

/-- The details of an event. -/
def fields : Event → List (String × FieldValue)
  | .registryLoaded boards => [("boards", .number boards)]
  | .partReplaced board requested canonical =>
    [("board", .text board), ("requested", .text requested), ("canonical", .text canonical)]
  | .sectionDefaulted board => [("board", .text board)]
  | .resolved config =>
    [("board", .text config.board), ("interface", .text (Named.name config.interface)),
     ("driver", .text (Named.name config.driver)),
     ("input_type", .text config.input.precision.spelling),
     ("output_type", .text config.output.precision.spelling),
     ("input_bitwidth", .number config.input.bitwidth.toNat),
     ("output_bitwidth", .number config.output.bitwidth.toNat)]
  | .settingsWritten path corrections =>
    [("path", .text (Text.inQuotes path)), ("corrections", .number corrections)]

end Event

end FabricConfig

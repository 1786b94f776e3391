import FabricConfig.Command.Basic
import FabricConfig.Command.Line
import FabricConfig.Log.Format

/-! What an invocation prints and how it ends. -/

namespace FabricConfig.Command

/-- The name and version of the program. -/
def versionLine : String := "accelcfg 0.1.0\n"

/-- How the program is called. -/
def usageText : String :=
  "Usage: accelcfg [-v] [--json] <COMMAND>\n\nCommands:\n" ++
  "  resolve --boards <FILE> -c <FILE> [--board <NAME>] [--input <NAME>]... " ++
  "[--output <NAME>]... [--write-back <FILE>]\n" ++
  "  paths --boards <FILE> -c <FILE> [--board <NAME>]\n" ++
  "  precision <SPEC>\n" ++
  "  boards --boards <FILE>\n"

/-- What a run of the program leaves: its exit code and what it printed. -/
structure Outcome where
  exit : UInt8
  output : String := ""
  errors : String := ""
deriving DecidableEq

/-- Carries out a request. -/
def Request.perform {m : Type → Type} [Monad m] [Surroundings m] :
    Request → m (Except CommandError String)
  | .resolve registry config board inputs outputs writeBack =>
    (Command.resolve registry config board inputs outputs writeBack).run
  | .paths registry config board => (Command.paths registry config board).run
  | .precision spec => (Command.precision spec).run
  | .boards path => (Command.boards path).run

/-- A text that ends with its last line complete. -/
def completed (text : String) : String :=
  if text.endsWith "\n" then text else text ++ "\n"

/-- A text whose lines after the first are indented like its first one. -/
def indented (indent text : String) : String :=
  ("\n" ++ indent).intercalate (text.splitOn "\n")

/-- The causes of an error, numbered if there are several. -/
def causeLines : List String → List String
  | [] => []
  | [cause] => ["    " ++ indented "    " cause]
  | causes => causes.mapIdx fun index cause =>
    "    " ++ index.repr ++ ": " ++ indented "       " cause

/-- The report of an error, given its messages. -/
def report : List String → String
  | [] => ""
  | [problem] => "Error: " ++ problem ++ "\n"
  | problem :: causes =>
    "Error: " ++ problem ++ "\n\nCaused by:\n" ++ "\n".intercalate (causeLines causes) ++ "\n"

/-- How a request ends. -/
def Outcome.ofResult : Except CommandError String → Outcome
  | .ok text => { exit := 0, output := completed text }
  | .error error => { exit := 1, errors := report error.chain }

/-- How a command line ends that asks for no command. -/
def Outcome.ofRefusal : Refusal → Outcome
  | .usage => { exit := 2, errors := usageText }
  | .help => { exit := 0, output := usageText }
  | .version => { exit := 0, output := versionLine }

end FabricConfig.Command

import FabricConfig.Command.Outcome
import FabricConfig.Json.Printer

/-! The program. -/

namespace FabricConfig.Command

/-- A fault for an error of the operating system. -/
def faultOfError : IO.Error → FileFault
  | .noFileOrDirectory .. => .notFound
  | .permissionDenied .. => .permissionDenied
  | error => .other (toString error)

/-- Writes an event to the standard error stream, if it is to be shown. -/
def printEvent (filter : Option String) (verbose json : Bool) (event : Event) : IO Unit := do
  for event in shown filter verbose [event] do
    IO.eprintln (if json then event.toJson.compact else event.line)

/-- The surroundings of a program: real files, and a log on the standard error stream. -/
abbrev Program : Type → Type :=
  ReaderT (Event → IO Unit) IO

instance : Surroundings Program where
  read path _ := do
    try return .ok (← IO.FS.readBinFile path)
    catch error => return .error (faultOfError error)
  write path text _ := do
    try
      IO.FS.writeFile path text
      return .ok ()
    catch error => return .error (faultOfError error)
  log event print := print event

/-- Runs a command line. -/
def runArguments (arguments : List String) : IO Outcome := do
  let environment : Environment :=
    { boards := ← IO.getEnv "ACCELCFG_BOARDS", logFilter := ← IO.getEnv "RUST_LOG" }
  match Invocation.ofArguments environment arguments with
  | .error refusal => return .ofRefusal refusal
  | .ok invocation =>
    let print := printEvent environment.logFilter invocation.verbose invocation.json
    let result ← (invocation.request.perform : Program _).run print
    return .ofResult result

end FabricConfig.Command

/-- Runs the program with the arguments of the command line. -/
def main (arguments : List String) : IO UInt32 := do
  let outcome ← FabricConfig.Command.runArguments arguments
  IO.print outcome.output
  IO.eprint outcome.errors
  return outcome.exit.toUInt32

import FabricConfig.Board.Basic
import FabricConfig.Json.Record

/-! The JSON form of boards. -/

namespace FabricConfig

open Json

namespace Scripts

def toJson (scripts : Scripts) : Json :=
  .object ((Named.all : List Interface).flatMap fun interface =>
    member? (Named.name interface) .string (scripts.get? interface))

/-- Stores the members of an object. -/
def readMembers (scripts : Scripts) :
    List (Option String × Document) → Except DecodeError Scripts
  | [] => .ok scripts
  | (key, d) :: rest => do
    let interface ← Decoder.variant (← content key)
    let script ← Decoder.string d
    readMembers (scripts.insert interface script) rest

def decoder : Decoder Scripts
  | .object members stop => do
    let scripts ← readMembers {} members
    stop.check
    return scripts
  | d => d.mismatch .map

end Scripts

namespace Board

def toJson (board : Board) : Json :=
  .object (("part", .string board.part) :: member? "tcl_scripts" Scripts.toJson board.scripts)

def record : Record Board where
  title := "struct BoardInfo"
  fields :=
    [⟨"part", true, fun d board => return { board with part := ← Decoder.string d }⟩,
     ⟨"tcl_scripts", false,
      fun d board => return { board with scripts := ← Decoder.optional Scripts.decoder d }⟩]
  blank := { part := "" }

def decoder : Decoder Board :=
  record.decoder .text

end Board

end FabricConfig

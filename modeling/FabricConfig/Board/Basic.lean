import FabricConfig.Named

/-! Boards: the part that sits on a board, and the scripts that build a design for it, one for each
interface that is supported. -/

namespace FabricConfig

/-- How data reach the accelerator. -/
inductive Interface where
  | stream
  | master
  | lite
deriving DecidableEq

instance : Inhabited Interface := ⟨.stream⟩

instance : Named Interface where
  all := [.stream, .master, .lite]
  name
    | .stream => "axi_stream"
    | .master => "axi_master"
    | .lite => "axi_lite"

/-- The language of the driver on the host. -/
inductive Driver where
  | python
  | c
deriving DecidableEq

namespace Driver

instance : Inhabited Driver := ⟨.python⟩

instance : Named Driver where
  all := [.python, .c]
  name
    | .python => "python"
    | .c => "c"

/-- The extension of the driver's file, for drivers that are one file. -/
def extension? : Driver → Option String
  | .python => some "py"
  | .c => none

end Driver

/-- A script for some of the interfaces. -/
structure Scripts where
  stream : Option String := none
  master : Option String := none
  lite : Option String := none
deriving DecidableEq

namespace Scripts

def get? (scripts : Scripts) : Interface → Option String
  | .stream => scripts.stream
  | .master => scripts.master
  | .lite => scripts.lite

/-- Stores a script; an older one is replaced. -/
def insert (scripts : Scripts) (interface : Interface) (script : String) : Scripts :=
  match interface with
  | .stream => { scripts with stream := some script }
  | .master => { scripts with master := some script }
  | .lite => { scripts with lite := some script }

end Scripts

/-- A board. A board without scripts is not the same as one with an empty collection of them. -/
structure Board where
  part : String
  scripts : Option Scripts := none
deriving DecidableEq

namespace Board

/-- The script for an interface. -/
def script? (board : Board) (interface : Interface) : Option String :=
  board.scripts.bind (·.get? interface)

/-- Adds a script. -/
def withScript (board : Board) (interface : Interface) (script : String) : Board :=
  { board with scripts := some ((board.scripts.getD {}).insert interface script) }

end Board

end FabricConfig

import FabricConfig.Board.Basic
import FabricConfig.Json.Value
import FabricConfig.Table

/-! Settings, as a user gives them: which board and part to use, and a section on the accelerator
itself. Settings for other tools are kept as they are. -/

namespace FabricConfig

/-- The specs of the two sides of an accelerator. -/
structure SpecPair where
  input : Option String := none
  output : Option String := none
deriving DecidableEq

/-- The section on the accelerator. -/
structure Section where
  precision : Option SpecPair := none
  driver : Option Driver := none
  interface : Option Interface := none
deriving DecidableEq

namespace Section

/-- The section used by settings that have none. -/
def fallback : Section where
  precision := some ⟨some "float", some "float"⟩
  driver := some .python
  interface := some .stream

def withPrecision (accelerator : Section) (input output : String) : Section :=
  { accelerator with precision := some ⟨some input, some output⟩ }

def withInterface (accelerator : Section) (interface : Interface) : Section :=
  { accelerator with interface := some interface }

def withDriver (accelerator : Section) (driver : Driver) : Section :=
  { accelerator with driver := some driver }

end Section

/-- The settings. -/
structure Settings where
  board : Option String := none
  part : Option String := none
  accelerator : Option Section := none
  /-- Settings for other tools. -/
  extra : Table Json := .empty

namespace Settings

instance : Inhabited Settings := ⟨{}⟩

def withBoard (settings : Settings) (board : String) : Settings :=
  { settings with board := some board }

def withPart (settings : Settings) (part : String) : Settings :=
  { settings with part := some part }

def withAccelerator (settings : Settings) (accelerator : Section) : Settings :=
  { settings with accelerator := some accelerator }

end Settings

/-- An input or output tensor of a model. Nothing depends on what it says. -/
structure Tensor where
  name : String
  shape : List UInt64 := []
deriving DecidableEq

/-- A tensor of which only the name is known. -/
def Tensor.named (name : String) : Tensor where
  name

end FabricConfig

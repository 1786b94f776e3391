import FabricConfig.Board.Encoding
import FabricConfig.Precision.Spec
import FabricConfig.Table

/-! Catalogs answer two questions: what a board has, and what precision a spec asks for. A registry
of boards is a catalog. -/

namespace FabricConfig

/-- Why a catalog has no answer. -/
inductive CatalogError where
  | unknownBoard (name : String)
  | invalidPrecision (spec reason : String)
  | registry (message : String)
deriving DecidableEq

def CatalogError.message : CatalogError → String
  | .unknownBoard name => "unknown board: " ++ name
  | .invalidPrecision spec reason => "invalid precision spec '" ++ spec ++ "': " ++ reason
  | .registry message => "board registry error: " ++ message

/-- What a resolver asks for. -/
structure Catalog where
  board : String → Except CatalogError Board
  precision : String → Except CatalogError Precision

/-- The precision that a spec asks for. -/
def readPrecision (spec : String) : Except CatalogError Precision :=
  (Precision.parse spec).mapError fun fault => .invalidPrecision spec fault.message

/-- Boards by their names. -/
abbrev Registry : Type :=
  Table Board

namespace Registry

/-- The board with a given name. -/
def board (registry : Registry) (name : String) : Except CatalogError Board :=
  match registry.get? name with
  | some board => .ok board
  | none => .error (.unknownBoard name)

/-- The registry of the boards in a list, of which the last one with a name counts. -/
def ofBoards (boards : List (String × Board)) : Registry :=
  .collect boards

/-- Reads a registry from a JSON text. -/
def ofText (text : String) : Except CatalogError Registry :=
  ((Json.Decoder.table Board.decoder).run text).mapError fun e => .registry e.message

/-- A registry with the usual reading of specs. -/
def catalog (registry : Registry) : Catalog where
  board := registry.board
  precision := readPrecision

end Registry

end FabricConfig

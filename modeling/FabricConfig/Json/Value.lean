import FabricConfig.Json.Number
import FabricConfig.Named

/-! JSON values. An object is a list of members, so that a value can be printed with its members in
any order; objects that were read have their keys in byte order, each once. -/

namespace FabricConfig

/-- A JSON value. -/
inductive Json where
  | null
  | bool (value : Bool)
  | number (value : Json.Number)
  | string (value : String)
  | array (items : List Json)
  | object (members : List (String × Json))

instance : Inhabited Json := ⟨.null⟩

namespace Json

/-- A natural number as a value. -/
def nat (n : Nat) : Json :=
  .number (.int n)

/-- A name as a value. -/
def name {α : Type} [Named α] (a : α) : Json :=
  .string (Named.name a)

/-- A member that is left out if it has no value. -/
def member? {α : Type} (key : String) (toJson : α → Json) : Option α → List (String × Json)
  | none => []
  | some a => [(key, toJson a)]

end Json

end FabricConfig

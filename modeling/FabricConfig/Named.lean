/-! Finite types whose values are written as names. -/

namespace FabricConfig

/-- A finite type whose values are written as names. Messages that list the possible names follow
the order of `all`. -/
class Named (α : Type) where
  all : List α
  name : α → String

namespace Named

variable {α : Type} [Named α]

/-- The value that has a given name. -/
def ofName? (s : String) : Option α :=
  (all : List α).find? fun a => name a == s

variable (α) in
/-- All names, in order. -/
def names : List String :=
  (all : List α).map name

end Named

end FabricConfig

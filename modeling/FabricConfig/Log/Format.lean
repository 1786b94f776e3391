import FabricConfig.Json.Value
import FabricConfig.Log.Event

/-! How events are shown, and which of them. -/

namespace FabricConfig

namespace FieldValue

def letters : FieldValue → String
  | .text value => value
  | .number value => value.repr

def toJson : FieldValue → Json
  | .text value => .string value
  | .number value => .nat value

end FieldValue

namespace Event

/-- An event on a line: its level, its message and its fields. -/
def line (event : Event) : String :=
  " ".intercalate (Named.name event.level :: event.message ::
    event.fields.map fun (key, value) => key ++ "=" ++ value.letters)

/-- An event as a JSON object. The message is one of its fields. -/
def toJson (event : Event) : Json :=
  .object
    [("level", .name event.level),
     ("fields", .object (("message", .string event.message) ::
       event.fields.map fun (key, value) => (key, value.toJson)))]

end Event

/-- The highest rank of the levels that are shown. A `filter` is the name of a level, in upper or
lower case, or `off`; an empty one shows errors, and any other text shows nothing. Without a filter,
events are shown down to the level of information, or of debugging if `verbose`. -/
def shownRank (filter : Option String) (verbose : Bool) : Nat :=
  match filter with
  | none => if verbose then Level.debug.rank else Level.info.rank
  | some "" => Level.error.rank
  | some name => ((Named.ofName? name.toUpper).map Level.rank).getD 0

/-- The events that are shown. -/
def shown (filter : Option String) (verbose : Bool) (events : List Event) : List Event :=
  events.filter fun event => event.level.rank ≤ shownRank filter verbose

end FabricConfig

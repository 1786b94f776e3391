import FabricConfig.Json.DecodeError
import FabricConfig.Json.Document
import FabricConfig.Json.Value
import FabricConfig.Named
import FabricConfig.Table

/-! Decoders: functions that read a value of some type off the tree of a JSON text. They walk the
tree in the order of the text and stop at the first problem. -/

namespace FabricConfig.Json

/-- A decoder of values of a type. -/
abbrev Decoder (α : Type) : Type :=
  Document → Except DecodeError α

/-! ### Problems of the text -/

/-- Why nothing that fits can be read where `found` stands. -/
def gapCause : Option Token → Cause
  | none => .ended
  | some _ => .malformed

/-- Why no value can be read where `found` stands. -/
def valueCause : Option Token → Cause
  | none => .ended
  | some (.fault fault) => fault.used
  | some _ => .malformed

/-- Why no value can be passed over where `found` stands. -/
def skippedValueCause : Option Token → Cause
  | none => .ended
  | some (.fault fault) => fault.skipped
  | some _ => .malformed

/-- Why no string can be read where `found` stands and nothing but a string may stand. -/
def stringCause : Option Token → Cause
  | none => .ended
  | some (.fault fault) => if fault.lead = .string then fault.used else .malformed
  | some _ => .malformed

/-- Why no string can be passed over where `found` stands and nothing but a string may stand. -/
def skippedStringCause : Option Token → Cause
  | none => .ended
  | some (.fault fault) => if fault.lead = .string then fault.skipped else .malformed
  | some _ => .malformed

/-- The error for a problem of the text. -/
def unreadable {α : Type} (cause : Cause) : Except DecodeError α :=
  .error (.unreadable cause)

/-- Accepts the end of a container that is complete. -/
def Stop.check : Stop → Except DecodeError Unit
  | .closed => .ok ()
  | .unseparated found => unreadable (gapCause found)
  | .noKey found => unreadable (stringCause found)

/-- Accepts the end of a container that is passed over, if it is complete. -/
def Stop.checkSkipped : Stop → Except DecodeError Unit
  | .closed => .ok ()
  | .unseparated found => unreadable (gapCause found)
  | .noKey found => unreadable (skippedStringCause found)

/-- The content of a string or key that is used. -/
def content : Option String → Except DecodeError String
  | some s => .ok s
  | none => unreadable .malformed

namespace Document

/-- What kind of value a document is, without looking inside. -/
def look : Document → Except DecodeError Found
  | .null => .ok .null
  | .bool value => .ok (.boolean value)
  | .number (some (.int value)) => .ok (.integer value)
  | .number (some (.float value)) => .ok (.float value)
  | .number none => unreadable .malformed
  | .string (some s) => .ok (.string s)
  | .string none => unreadable .malformed
  | .array .. => .ok .sequence
  | .object .. => .ok .map
  | .noValue found => unreadable (valueCause found)
  | .noColon found => unreadable (gapCause found)

/-- The error for a document of the wrong type. -/
def mismatch {α : Type} (expected : Expected) (d : Document) : Except DecodeError α := do
  throw (.invalidType (← d.look) expected)

/-! ### Values of any type -/

mutual

/-- Passes over a document, which need only be well formed. -/
def skip : Document → Except DecodeError Unit
  | .array items stop => do
    skipItems items
    stop.checkSkipped
  | .object members stop => do
    skipMembers members
    stop.checkSkipped
  | .noValue found => unreadable (skippedValueCause found)
  | .noColon found => unreadable (gapCause found)
  | _ => .ok ()

/-- Passes over the items of an array. -/
def skipItems : List Document → Except DecodeError Unit
  | [] => .ok ()
  | item :: rest => do
    skip item
    skipItems rest

/-- Passes over the members of an object. -/
def skipMembers : List (Option String × Document) → Except DecodeError Unit
  | [] => .ok ()
  | (_, value) :: rest => do
    skip value
    skipMembers rest

end

mutual

/-- The JSON value of a document, in which containers may be nested `room` deep. Of several members
with one key the last one counts. -/
def value (room : Nat) : Document → Except DecodeError Json
  | .null => .ok .null
  | .bool b => .ok (.bool b)
  | .number (some n) => .ok (.number n)
  | .number none => unreadable .malformed
  | .string s => return .string (← content s)
  | .array items stop =>
    match room with
    | 0 => unreadable .malformed
    | room + 1 => do
      let items ← itemValues room items
      stop.check
      return .array items
  | .object members stop =>
    match room with
    | 0 => unreadable .malformed
    | room + 1 => do
      let members ← memberValues room [] members
      stop.check
      return .object members
  | .noValue found => unreadable (valueCause found)
  | .noColon found => unreadable (gapCause found)

/-- The values of the items of an array. -/
def itemValues (room : Nat) : List Document → Except DecodeError (List Json)
  | [] => .ok []
  | item :: rest => do
    let item ← value room item
    return item :: (← itemValues room rest)

/-- Stores the values of the members of an object. -/
def memberValues (room : Nat) (entries : List (String × Json)) :
    List (Option String × Document) → Except DecodeError (List (String × Json))
  | [] => .ok entries
  | (key, member) :: rest => do
    let key ← content key
    let member ← value room member
    memberValues room (insertEntry key member entries) rest

end

end Document

/-! ### Values of given types -/

namespace Decoder

/-- The deepest nesting of containers in a text. -/
def maxDepth : Nat := 127

def string : Decoder String
  | .string (some s) => .ok s
  | d => d.mismatch .string

def boolean : Decoder Bool
  | .bool value => .ok value
  | d => d.mismatch .boolean

/-- A natural number below a bound. -/
def natural (bound : Nat) (expected : Expected) : Decoder Nat
  | .number (some (.int value)) =>
    if 0 ≤ value ∧ value < bound then .ok value.toNat
    else .error (.invalidValue (.integer value) expected)
  | d => d.mismatch expected

def word32 : Decoder UInt32 :=
  fun d => UInt32.ofNat <$> natural UInt32.size .word32 d

def word64 : Decoder UInt64 :=
  fun d => UInt64.ofNat <$> natural UInt64.size .word64 d

/-- A value that is left out if it is null. -/
def optional {α : Type} (decoder : Decoder α) : Decoder (Option α)
  | .null => .ok none
  | .noValue (some (.fault fault)) =>
    if fault.lead = .null then unreadable fault.used
    else some <$> decoder (.noValue (some (.fault fault)))
  | d => some <$> decoder d

/-- The items of an array. -/
def list {α : Type} (decoder : Decoder α) : Decoder (List α)
  | .array items stop => do
    let items ← items.mapM decoder
    stop.check
    return items
  | d => d.mismatch .sequence

/-- Stores the members of an object. -/
def tableMembers {α : Type} (decoder : Decoder α) (table : Table α) :
    List (Option String × Document) → Except DecodeError (Table α)
  | [] => .ok table
  | (key, d) :: rest => do
    let key ← content key
    let a ← decoder d
    tableMembers decoder (table.insert key a) rest

/-- The members of an object, of which the last one with a key counts. -/
def table {α : Type} (decoder : Decoder α) : Decoder (Table α)
  | .object members stop => do
    let table ← tableMembers decoder .empty members
    stop.check
    return table
  | d => d.mismatch .map

/-- The value with a given name. -/
def variant {α : Type} [Named α] (name : String) : Except DecodeError α :=
  match Named.ofName? name with
  | some a => .ok a
  | none => .error (.unknownVariant name (Named.names α))

/-- Where a document comes from. Documents taken from a text that is being read and those put aside
for later, after they have been read as values of any type, are held to different rules. -/
inductive Origin where
  | text
  | store
deriving DecidableEq

/-- Accepts the value of a name that is written as a key. -/
def unit : Origin → Decoder Unit
  | _, .null => .ok ()
  | .store, .object [] .closed => .ok ()
  | _, d => d.mismatch .unit

/-- One of several names: a string, or an object with the name as its only key and null under it. -/
def named {α : Type} [Named α] : Origin → Decoder α
  | .text, .string s => do variant (← content s)
  | .text, .object ((key, value) :: rest) stop => do
    let a ← variant (← content key)
    unit .text value
    match rest, stop with
    | [], .closed => return a
    | [], .unseparated found => unreadable (gapCause found)
    | _, _ => unreadable .malformed
  | .text, .object [] (.noKey found) => unreadable (stringCause found)
  | .text, .noValue found => unreadable (stringCause found)
  | .text, .noColon found => unreadable (gapCause found)
  | .text, _ => unreadable .malformed
  | .store, .string s => do variant (← content s)
  | .store, .object [(key, value)] _ => do
    let a ← variant (← content key)
    unit .store value
    return a
  | .store, .object _ _ => .error (.invalidValue .map .singleKey)
  | .store, d => d.mismatch .nameOrMap

/-- Reads a text, all of which has to be one document. -/
def run {α : Type} (decoder : Decoder α) (text : String) : Except DecodeError α := do
  let (document, rest) := Document.readValue [] (tokens text.toList)
  let a ← decoder document
  if rest.isEmpty then return a else unreadable .malformed

end Decoder

end FabricConfig.Json

import FabricConfig.Json.Decoder

/-! Records. A record is written as an object or, field by field, as an array. Fields that may be
left out keep the value of a blank record. -/

namespace FabricConfig.Json

/-- A field of records of type `α`. -/
structure Field (α : Type) where
  key : String
  required : Bool
  /-- Reads the field into a record. -/
  store : Document → α → Except DecodeError α

/-- How records of type `α` are written. -/
structure Record (α : Type) where
  /-- What messages call such a record. -/
  title : String
  fields : List (Field α)
  /-- A record that no field has been read into. -/
  blank : α

namespace Record

variable {α : Type}

/-- The field with a given key. -/
def field? (record : Record α) (key : String) : Option (Field α) :=
  record.fields.find? fun field => field.key == key

/-- The first required field without a value, given the keys that have one. -/
def missing? (record : Record α) (seen : List String) : Option String :=
  (record.fields.find? fun field => field.required && !seen.contains field.key).map Field.key

/-- Reads the members of an object into a record. Members with other keys go to `other`. -/
def readMembers (record : Record α) (other : String → Document → α → Except DecodeError α)
    (seen : List String) (a : α) :
    List (Option String × Document) → Except DecodeError (List String × α)
  | [] => .ok (seen, a)
  | (key, d) :: rest => do
    let key ← content key
    match record.field? key with
    | some field =>
      if seen.contains key then throw (.duplicateField key)
      let a ← field.store d a
      readMembers record other (key :: seen) a rest
    | none =>
      let a ← other key d a
      readMembers record other seen a rest

/-- Reads an object into a record. -/
def readObject (record : Record α) (other : String → Document → α → Except DecodeError α)
    (members : List (Option String × Document)) (stop : Stop) : Except DecodeError α := do
  let (seen, a) ← record.readMembers other [] record.blank members
  stop.check
  match record.missing? seen with
  | some key => throw (.missingField key)
  | none => return a

/-- Passes over a member with a key that no field has. -/
def ignoreOther : Decoder.Origin → String → Document → α → Except DecodeError α
  | .text, _, d, a => do
    d.skip
    return a
  | .store, _, _, a => .ok a

/-- Reads the items of an array into the fields of a record, the first of which is the one number
`index`. -/
def readItems (record : Record α) (origin : Decoder.Origin) (stop : Stop) (a : α) (index : Nat) :
    List (Field α) → List Document → Except DecodeError α
  | [], [] => do
    stop.check
    return a
  | [], extra =>
    match origin with
    | .text => unreadable .malformed
    | .store => .error (.tooLong (index + extra.length) record.fields.length)
  | field :: fields, [] => do
    stop.check
    if field.required then throw (.tooShort index record.title record.fields.length)
    readItems record origin stop a (index + 1) fields []
  | field :: fields, item :: items => do
    let a ← field.store item a
    readItems record origin stop a (index + 1) fields items

/-- Reads a record. -/
def decoder (record : Record α) (origin : Decoder.Origin) : Decoder α
  | .object members stop => record.readObject (ignoreOther origin) members stop
  | .array items stop => record.readItems origin stop record.blank 0 record.fields items
  | d => d.mismatch (.record record.title)

end Record

end FabricConfig.Json

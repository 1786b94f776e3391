import FabricConfig.Json.Token
import FabricConfig.Text.Quoted

/-! What can be wrong with a JSON text that is read as a value of a given type, and the messages for
it. -/

namespace FabricConfig.Json

/-- What a decoder met. -/
inductive Found where
  | null
  | boolean (value : Bool)
  | integer (value : Int)
  | float (value : Binary64)
  | string (content : String)
  | sequence
  | map

/-- What a decoder expected. -/
inductive Expected where
  | string
  | boolean
  | word32
  | word64
  | unit
  | sequence
  | map
  /-- A record, by its title. -/
  | record (title : String)
  /-- A record whose kind one of its members tells, by its title. -/
  | tagged (title : String)
  /-- One of several names, as a key. -/
  | variant
  /-- One of several names, as a string or as the key of an object. -/
  | nameOrMap
  | singleKey

/-- Why a text is not a value of the expected type. -/
inductive DecodeError where
  | unreadable (cause : Cause)
  | missingField (key : String)
  | duplicateField (key : String)
  | unknownVariant (name : String) (variants : List String)
  | invalidType (found : Found) (expected : Expected)
  | invalidValue (found : Found) (expected : Expected)
  /-- A record given as a sequence that lacks a field. -/
  | tooShort (length : Nat) (title : String) (fields : Nat)
  /-- A record given as a sequence with more items than fields. -/
  | tooLong (length : Nat) (fields : Nat)

/-! ### Messages -/

/-- A text between backquotes. -/
def inBackquotes (text : String) : String :=
  "`" ++ text ++ "`"

def Cause.message : Cause → String
  | .ended => "<eof>"
  | .malformed => "<syntax>"

def Found.message : Found → String
  | .null => "null"
  | .boolean value => "boolean " ++ inBackquotes (if value then "true" else "false")
  | .integer value => "integer " ++ inBackquotes (String.ofList (intLetters value))
  | .float value => "floating point " ++ inBackquotes (String.ofList (floatLetters value))
  | .string content => "string " ++ Text.inQuotes content
  | .sequence => "sequence"
  | .map => "map"

def Expected.message : Expected → String
  | .string => "a string"
  | .boolean => "a boolean"
  | .word32 => "u32"
  | .word64 => "usize"
  | .unit => "unit"
  | .sequence => "a sequence"
  | .map => "a map"
  | .record title => title
  | .tagged title => "internally tagged enum " ++ title
  | .variant => "variant identifier"
  | .nameOrMap => "string or map"
  | .singleKey => "map with a single key"

/-- The names that a message offers. -/
def variantsMessage : List String → String
  | [a, b] => inBackquotes a ++ " or " ++ inBackquotes b
  | names => "one of " ++ ", ".intercalate (names.map inBackquotes)

/-- A number of elements in words. -/
def elementsMessage (count : Nat) : String :=
  count.repr ++ if count = 1 then " element" else " elements"

def DecodeError.message : DecodeError → String
  | .unreadable cause => cause.message
  | .missingField key => "missing field " ++ inBackquotes key
  | .duplicateField key => "duplicate field " ++ inBackquotes key
  | .unknownVariant name variants =>
    "unknown variant " ++ inBackquotes name ++ ", expected " ++ variantsMessage variants
  | .invalidType found expected =>
    "invalid type: " ++ found.message ++ ", expected " ++ expected.message
  | .invalidValue found expected =>
    "invalid value: " ++ found.message ++ ", expected " ++ expected.message
  | .tooShort length title fields =>
    "invalid length " ++ length.repr ++ ", expected " ++ title ++ " with " ++
      elementsMessage fields
  | .tooLong length fields =>
    "invalid length " ++ length.repr ++ ", expected " ++ elementsMessage fields ++ " in sequence"

end FabricConfig.Json

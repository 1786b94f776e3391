import FabricConfig.Json.Token

/-! The tree of a JSON text, as far as the text can be read. Where the text goes wrong the tree says
what stands there instead, so that a decoder that walks the tree in the order of the text meets the
first problem first, be it one of the text or one of the values. -/

namespace FabricConfig.Json

/-- How a list of items or members ends. The token found instead of what is needed is missing if the
text ends there. -/
inductive Stop where
  /-- The closing bracket. -/
  | closed
  /-- Neither a comma nor the closing bracket. -/
  | unseparated (found : Option Token)
  /-- No key after the opening brace or a comma. -/
  | noKey (found : Option Token)
deriving DecidableEq

/-- The tree of a text. Keys and strings are missing if they have an unpaired surrogate, numbers if
they are too large. -/
inductive Document where
  | null
  | bool (value : Bool)
  | number (value : Option Number)
  | string (content : Option String)
  | array (items : List Document) (stop : Stop)
  | object (members : List (Option String × Document)) (stop : Stop)
  /-- Something that is no value. -/
  | noValue (found : Option Token)
  /-- Something other than the colon before a value. -/
  | noColon (found : Option Token)

namespace Document

/-- A container that is still open, with what it holds so far, last first. An object also has the
key whose value comes next. -/
inductive Frame where
  | array (items : List Document)
  | object (members : List (Option String × Document)) (key : Option String)

/-- The containers around a document in which reading broke off. Nothing after it is kept. -/
def breakOff : List Frame → Document → Document
  | [], d => d
  | .array items :: frames, d => breakOff frames (.array (d :: items).reverse (.unseparated none))
  | .object members key :: frames, d =>
    breakOff frames (.object ((key, d) :: members).reverse (.unseparated none))

mutual

/-- Reads a value inside some open containers, and then the rest of these. -/
def readValue (frames : List Frame) : List Token → Document × List Token
  | .null :: rest => readAfter frames .null rest
  | .bool b :: rest => readAfter frames (.bool b) rest
  | .number n :: rest => readAfter frames (.number n) rest
  | .string s :: rest => readAfter frames (.string s) rest
  | .openBracket :: .closeBracket :: rest => readAfter frames (.array [] .closed) rest
  | .openBracket :: rest => readValue (.array [] :: frames) rest
  | .openBrace :: .closeBrace :: rest => readAfter frames (.object [] .closed) rest
  | .openBrace :: .string key :: .colon :: rest => readValue (.object [] key :: frames) rest
  | .openBrace :: .string key :: rest =>
    (breakOff (.object [] key :: frames) (.noColon rest.head?), rest)
  | .openBrace :: rest => (breakOff frames (.object [] (.noKey rest.head?)), rest)
  | rest => (breakOff frames (.noValue rest.head?), rest)

/-- Goes on after a value: to the next one of its container or, if that is complete, to what comes
after the container. -/
def readAfter : List Frame → Document → List Token → Document × List Token
  | [], d, rest => (d, rest)
  | .array items :: frames, d, .comma :: rest => readValue (.array (d :: items) :: frames) rest
  | .array items :: frames, d, .closeBracket :: rest =>
    readAfter frames (.array (d :: items).reverse .closed) rest
  | .array items :: frames, d, rest =>
    (breakOff frames (.array (d :: items).reverse (.unseparated rest.head?)), rest)
  | .object members key :: frames, d, .comma :: .string next :: .colon :: rest =>
    readValue (.object ((key, d) :: members) next :: frames) rest
  | .object members key :: frames, d, .comma :: .string next :: rest =>
    (breakOff (.object ((key, d) :: members) next :: frames) (.noColon rest.head?), rest)
  | .object members key :: frames, d, .comma :: rest =>
    (breakOff frames (.object ((key, d) :: members).reverse (.noKey rest.head?)), rest)
  | .object members key :: frames, d, .closeBrace :: rest =>
    readAfter frames (.object ((key, d) :: members).reverse .closed) rest
  | .object members key :: frames, d, rest =>
    (breakOff frames (.object ((key, d) :: members).reverse (.unseparated rest.head?)), rest)

end

end Document

end FabricConfig.Json

import FabricConfig.Json.Value

/-! JSON texts of values, on one line without blanks or indented by two blanks a level. -/

namespace FabricConfig.Json

/-- The blanks of a printed text: those before an item or a closing bracket that stands at a given
depth, and those after a colon. -/
structure Style where
  lineBreak : Nat → List Char
  afterColon : List Char

namespace Style

/-- No blanks. -/
def compact : Style where
  lineBreak _ := []
  afterColon := []

/-- Every item on a line of its own. -/
def pretty : Style where
  lineBreak depth := '\n' :: List.replicate (2 * depth) ' '
  afterColon := [' ']

end Style

/-- A hexadecimal digit. -/
def hexDigit (n : Nat) : Char :=
  (Nat.toDigits 16 n).headD '0'

/-- A character inside a string. Quotes, backslashes and control characters are escaped. -/
def escaped (c : Char) : List Char :=
  match c with
  | '"' => ['\\', '"']
  | '\\' => ['\\', '\\']
  | '\x08' => ['\\', 'b']
  | '\x0c' => ['\\', 'f']
  | '\n' => ['\\', 'n']
  | '\r' => ['\\', 'r']
  | '\t' => ['\\', 't']
  | c =>
    if c.toNat < 0x20 then
      ['\\', 'u', '0', '0', hexDigit (c.toNat / 16), hexDigit (c.toNat % 16)]
    else [c]

/-- A string in quotes. -/
def quoted (s : String) : List Char :=
  '"' :: s.toList.flatMap escaped ++ ['"']

mutual

/-- The characters of a value that starts at a given depth. -/
def letters (style : Style) (depth : Nat) : Json → List Char
  | .null => "null".toList
  | .bool true => "true".toList
  | .bool false => "false".toList
  | .number n => n.letters
  | .string s => quoted s
  | .array [] => ['[', ']']
  | .array (item :: rest) =>
    '[' :: style.lineBreak (depth + 1) ++ letters style (depth + 1) item ++
      moreItems style depth rest
  | .object [] => ['\x7b', '\x7d']
  | .object ((key, value) :: rest) =>
    '\x7b' :: style.lineBreak (depth + 1) ++ quoted key ++ ':' :: style.afterColon ++
      letters style (depth + 1) value ++ moreMembers style depth rest

/-- The items of an array after the first one, and its end. -/
def moreItems (style : Style) (depth : Nat) : List Json → List Char
  | [] => style.lineBreak depth ++ [']']
  | item :: rest =>
    ',' :: style.lineBreak (depth + 1) ++ letters style (depth + 1) item ++
      moreItems style depth rest

/-- The members of an object after the first one, and its end. -/
def moreMembers (style : Style) (depth : Nat) : List (String × Json) → List Char
  | [] => style.lineBreak depth ++ ['\x7d']
  | (key, value) :: rest =>
    ',' :: style.lineBreak (depth + 1) ++ quoted key ++ ':' :: style.afterColon ++
      letters style (depth + 1) value ++ moreMembers style depth rest

end

/-- The text of a value on one line, without blanks. -/
def compact (value : Json) : String :=
  String.ofList (value.letters .compact 0)

/-- The indented text of a value. -/
def pretty (value : Json) : String :=
  String.ofList (value.letters .pretty 0)

end FabricConfig.Json

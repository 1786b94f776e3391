import FabricConfig.Precision.Basic
import FabricConfig.Text.Blank
import FabricConfig.Text.Decimal
import FabricConfig.Text.Split

/-! Precision specs: texts such as `float`, `ap_uint<12>` or `fixed<16, 6, RND, SAT>`. White space
around the whole, before the opening bracket and around each parameter means nothing. -/

namespace FabricConfig

open Text

namespace Precision

/-- A parameter that counts bits. -/
inductive BitCount where
  | width
  | integerBits
  | saturationBits
deriving DecidableEq

/-- What is wrong with a spec. -/
inductive SpecFault where
  | unrecognised
  | notABitCount (what : BitCount) (text : String)
  | zeroWidth
  | tooWide
  | integerArity
  | tooFewParameters
  | tooManyParameters
  | integerBitsExceedWidth (integerBits width : UInt32)
  | unknownRounding (text : String)
  | unknownOverflow (text : String)
deriving DecidableEq

/-- How messages call a parameter. -/
def BitCount.label : BitCount → String
  | .width => "width"
  | .integerBits => "integer bits"
  | .saturationBits => "saturation bits"

/-- The message for a rounding mode that does not exist. -/
def unknownRoundingMessage (text : String) : String :=
  "unknown rounding mode '" ++ text ++ "'"

/-- The message for an overflow mode that does not exist. -/
def unknownOverflowMessage (text : String) : String :=
  "unknown saturation mode '" ++ text ++ "'"

/-- The reason given for refusing a spec. -/
def SpecFault.message : SpecFault → String
  | .unrecognised => "expected float, double, fixed<..> or int<..>"
  | .notABitCount what text => what.label ++ " '" ++ text ++ "' is not a bit count"
  | .zeroWidth => "width must be positive"
  | .tooWide => "width exceeds " ++ FixedType.maxWidth.toNat.repr ++ " bits"
  | .integerArity => "integer types take exactly one parameter"
  | .tooFewParameters => "fixed types need at least width and integer bits"
  | .tooManyParameters => "too many parameters"
  | .integerBitsExceedWidth integerBits width =>
    "integer bits (" ++ integerBits.toNat.repr ++ ") exceed width (" ++ width.toNat.repr ++ ")"
  | .unknownRounding text => unknownRoundingMessage text
  | .unknownOverflow text => unknownOverflowMessage text

/-- The two families of types with parameters. -/
inductive Family where
  | fixed
  | integer
deriving DecidableEq

/-- A spec with parameters, taken apart but not yet interpreted. -/
structure Form where
  signed : Bool
  family : Family
  params : List (List Char)
deriving DecidableEq

namespace Form

/-- Takes an optional `start` off a text; tells whether it was there. -/
def optionally (start text : List Char) : Bool × List Char :=
  match start.isPrefixOf? text with
  | some rest => (true, rest)
  | none => (false, text)

/-- The family named at the start of a text, and the text after its name. -/
def family? (text : List Char) : Option (Family × List Char) :=
  match "fixed".toList.isPrefixOf? text with
  | some rest => some (.fixed, rest)
  | none => ("int".toList.isPrefixOf? text).map (.integer, ·)

/-- The text between `<` and `>`, which has neither of the two inside, if that is all there is. -/
def body? : List Char → Option (List Char)
  | '<' :: rest =>
    let inner := fun c => c != '<' && c != '>'
    if rest.dropWhile inner = ['>'] then some (rest.takeWhile inner) else none
  | _ => none

/-- Takes a trimmed spec apart: `ap_` or not, `u` or not, the family, and the trimmed parameters. -/
def ofText? (text : List Char) : Option Form := do
  let unprefixed := (optionally "ap_".toList text).2
  let (unsigned, named) := optionally ['u'] unprefixed
  let (family, bracketed) ← family? named
  let body ← body? (trimStart bracketed)
  return ⟨!unsigned, family, (split ',' body).map trim⟩

end Form

/-- Reads a parameter that counts bits. -/
def bitCount (what : BitCount) (text : List Char) : Except SpecFault UInt32 :=
  match wordOfDecimal? text with
  | some n => .ok n
  | none => .error (.notABitCount what (String.ofList text))

/-- Reads a rounding mode. -/
def roundingMode (text : List Char) : Except SpecFault Rounding :=
  match Named.ofName? (String.ofList text) with
  | some mode => .ok mode
  | none => .error (.unknownRounding (String.ofList text))

/-- Reads an overflow mode. -/
def overflowMode (text : List Char) : Except SpecFault Overflow :=
  match Named.ofName? (String.ofList text) with
  | some mode => .ok mode
  | none => .error (.unknownOverflow (String.ofList text))

/-- Reads the width of a type, which is positive and bounded. -/
def typeWidth (text : List Char) : Except SpecFault UInt32 := do
  let width ← bitCount .width text
  if width = 0 then throw .zeroWidth
  if FixedType.maxWidth < width then throw .tooWide
  return width

/-- Adds the modes of a fixed-point type; those not given keep their default. -/
def withModes (t : FixedType) : List (List Char) → Except SpecFault FixedType
  | [] => return t
  | q :: rest => do
    let t := { t with rounding := ← roundingMode q }
    match rest with
    | [] => return t
    | o :: rest =>
      let t := { t with overflow := ← overflowMode o }
      match rest with
      | [] => return t
      | n :: _ => return { t with saturationBits := ← bitCount .saturationBits n }

/-- Interprets the parameters after the width of a fixed-point type. -/
def fixedType (signed : Bool) (width : UInt32) : List (List Char) → Except SpecFault FixedType
  | [] => throw .tooFewParameters
  | i :: modes => do
    if 3 < modes.length then throw .tooManyParameters
    let integerBits ← bitCount .integerBits i
    if width < integerBits then throw (.integerBitsExceedWidth integerBits width)
    withModes { width, integerBits, signed } modes

/-- Interprets a spec with parameters. -/
def Form.type (form : Form) : Except SpecFault FixedType :=
  match form.params with
  | [] => throw .unrecognised
  | w :: rest => do
    let width ← typeWidth w
    match form.family with
    | .fixed => fixedType form.signed width rest
    | .integer =>
      if rest.isEmpty then return .integer width form.signed else throw .integerArity

/-- Reads a trimmed spec. -/
def ofTrimmed (text : List Char) : Except SpecFault Precision :=
  match (Named.ofName? (String.ofList text) : Option FloatKind) with
  | some kind => .ok (.floating kind)
  | none =>
    match Form.ofText? text with
    | some form => form.type.map .fixed
    | none => .error .unrecognised

/-- Reads a spec. -/
def parse (spec : String) : Except SpecFault Precision :=
  ofTrimmed (trim spec.toList)

end Precision

end FabricConfig

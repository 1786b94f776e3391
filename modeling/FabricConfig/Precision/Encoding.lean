import FabricConfig.Json.Record
import FabricConfig.Precision.Basic

/-! The JSON form of precisions. A precision is a record whose member `family` tells which of two
kinds of record it is. -/

namespace FabricConfig

open Json

/-! ### Writing -/

namespace FixedType

/-- The members of the JSON object of a type. -/
def members (t : FixedType) : List (String × Json) :=
  [("width", .nat t.width.toNat), ("integer_bits", .nat t.integerBits.toNat),
   ("signed", .bool t.signed), ("rounding_mode", .name t.rounding),
   ("saturation_mode", .name t.overflow), ("saturation_bits", .nat t.saturationBits.toNat)]

def toJson (t : FixedType) : Json :=
  .object t.members

end FixedType

namespace Precision

/-- The two kinds of record. -/
inductive Tag where
  | symbolic
  | custom
deriving DecidableEq

instance : Named Tag where
  all := [.symbolic, .custom]
  name
    | .symbolic => "symbolic"
    | .custom => "custom"

def toJson : Precision → Json
  | .floating kind => .object [("family", .name Tag.symbolic), ("kind", .name kind)]
  | .fixed type => .object (("family", .name Tag.custom) :: type.members)

end Precision

/-! ### Reading -/

/-- The record of a fixed-point type. What it holds is not checked for sense. -/
def FixedType.record (origin : Decoder.Origin) : Record FixedType where
  title := "struct CustomType"
  fields :=
    [⟨"width", true, fun d t => return { t with width := ← Decoder.word32 d }⟩,
     ⟨"integer_bits", true, fun d t => return { t with integerBits := ← Decoder.word32 d }⟩,
     ⟨"signed", true, fun d t => return { t with signed := ← Decoder.boolean d }⟩,
     ⟨"rounding_mode", false, fun d t => return { t with rounding := ← Decoder.named origin d }⟩,
     ⟨"saturation_mode", false, fun d t => return { t with overflow := ← Decoder.named origin d }⟩,
     ⟨"saturation_bits", false,
      fun d t => return { t with saturationBits := ← Decoder.word32 d }⟩]
  blank := { width := 0, integerBits := 0, signed := false }

/-- The record of a floating-point format. -/
def FloatKind.record : Record FloatKind where
  title := "struct variant NumericType::Symbolic"
  fields := [⟨"kind", true, fun d _ => Decoder.named .store d⟩]
  blank := .float

namespace Precision

/-- The key of the member that tells the kind of record. -/
def tagKey : String := "family"

/-- The kind of record. -/
def readTag : Decoder Tag
  | .string s => do Decoder.variant (← content s)
  | d => d.mismatch .variant

/-- Checks a document that is put aside. -/
def putAside (d : Document) : Except DecodeError Unit := do
  let _ ← d.value (Decoder.maxDepth - 1)

/-- Looks for the tag among the members of an object and puts all other members aside. -/
def findTag (tag : Option Tag) : List (Option String × Document) →
    Except DecodeError (Option Tag × List (Option String × Document))
  | [] => .ok (tag, [])
  | (key, d) :: rest => do
    let key ← content key
    if key = tagKey then
      if tag.isSome then throw (.duplicateField tagKey)
      findTag (some (← readTag d)) rest
    else
      putAside d
      let (tag, aside) ← findTag tag rest
      return (tag, (some key, d) :: aside)

/-- Reads a precision from what was put aside. -/
def ofStore (tag : Tag) (d : Document) : Except DecodeError Precision :=
  match tag with
  | .symbolic => .floating <$> FloatKind.record.decoder .store d
  | .custom => .fixed <$> (FixedType.record .store).decoder .store d

/-- Reads a precision. An object is put aside until its tag is known; in an array the tag comes
first. -/
def decoder : Decoder Precision
  | .object members stop => do
    let (tag, aside) ← findTag none members
    stop.check
    match tag with
    | none => throw (.missingField tagKey)
    | some tag => ofStore tag (.object aside .closed)
  | .array [] stop => do
    stop.check
    throw (.missingField tagKey)
  | .array (first :: items) stop => do
    let tag ← readTag first
    items.forM putAside
    stop.check
    ofStore tag (.array items .closed)
  | d => d.mismatch (.tagged "NumericType")

end Precision

end FabricConfig

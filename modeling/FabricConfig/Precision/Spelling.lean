import FabricConfig.Precision.Basic
import FabricConfig.Text.Decimal
import FabricConfig.Text.Split

/-! The canonical spelling of a precision. Trailing modes with their default value are left out, and
an integer with default modes is written with its width alone. -/

namespace FabricConfig

open Text

namespace FixedType

/-- The parameters after the integer bits. A mode is written if it or a later one differs from its
default, because parameters are told apart by position. -/
def modeParams (t : FixedType) : List (List Char) :=
  let saturationBits := decimal t.saturationBits.toNat
  let overflow := (Named.name t.overflow).toList
  let rounding := (Named.name t.rounding).toList
  if t.saturationBits ≠ 0 then [rounding, overflow, saturationBits]
  else if t.overflow ≠ default then [rounding, overflow]
  else if t.rounding ≠ default then [rounding]
  else []

/-- The characters of the canonical spelling. -/
def letters (t : FixedType) : List Char :=
  "ap_".toList ++ (if t.signed then [] else ['u']) ++
    if t.isPlainInteger then "int<".toList ++ decimal t.width.toNat ++ ['>']
    else
      "fixed<".toList ++
        join ',' (decimal t.width.toNat :: decimal t.integerBits.toNat :: t.modeParams) ++ ['>']

end FixedType

namespace Precision

/-- The characters of the canonical spelling. -/
def letters : Precision → List Char
  | .floating kind => (Named.name kind).toList
  | .fixed type => type.letters

/-- The canonical spelling. -/
def spelling (p : Precision) : String :=
  String.ofList p.letters

end Precision

end FabricConfig

import FabricConfig.Named

/-! Numeric types at the sides of an accelerator: the two floating-point formats, and fixed-point
types of any width with a rounding and an overflow mode. -/

namespace FabricConfig

/-- A floating-point format. -/
inductive FloatKind where
  | float
  | double
deriving DecidableEq

namespace FloatKind

instance : Named FloatKind where
  all := [.float, .double]
  name
    | .float => "float"
    | .double => "double"

/-- The number of bits of the format. -/
def width : FloatKind → UInt32
  | .float => 32
  | .double => 64

end FloatKind

/-- What happens to bits below the least significant one. -/
inductive Rounding where
  | truncate
  | truncateToZero
  | nearest
  | nearestToZero
  | nearestToInfinity
  | nearestToMinusInfinity
  | nearestToEven
deriving DecidableEq

instance : Inhabited Rounding := ⟨.truncate⟩

instance : Named Rounding where
  all := [.truncate, .truncateToZero, .nearest, .nearestToZero, .nearestToInfinity,
    .nearestToMinusInfinity, .nearestToEven]
  name
    | .truncate => "TRN"
    | .truncateToZero => "TRN_ZERO"
    | .nearest => "RND"
    | .nearestToZero => "RND_ZERO"
    | .nearestToInfinity => "RND_INF"
    | .nearestToMinusInfinity => "RND_MIN_INF"
    | .nearestToEven => "RND_CONV"

/-- What happens to values out of range. -/
inductive Overflow where
  | wrap
  | saturate
  | saturateToZero
  | saturateSymmetric
deriving DecidableEq

instance : Inhabited Overflow := ⟨.wrap⟩

instance : Named Overflow where
  all := [.wrap, .saturate, .saturateToZero, .saturateSymmetric]
  name
    | .wrap => "WRAP"
    | .saturate => "SAT"
    | .saturateToZero => "SAT_ZERO"
    | .saturateSymmetric => "SAT_SYM"

/-- A fixed-point type. An integer is the case in which every bit is an integer bit. -/
structure FixedType where
  width : UInt32
  integerBits : UInt32
  signed : Bool
  rounding : Rounding := default
  overflow : Overflow := default
  saturationBits : UInt32 := 0
deriving DecidableEq

namespace FixedType

/-- The widest type that a spec may ask for. -/
def maxWidth : UInt32 := 32768

/-- The integer type of a given width. -/
def integer (width : UInt32) (signed : Bool) : FixedType :=
  ⟨width, width, signed, default, default, 0⟩

/-- The bits after the binary point, none if the integer bits fill the type. -/
def fractionalBits (t : FixedType) : UInt32 :=
  UInt32.ofNat (t.width.toNat - t.integerBits.toNat)

/-- Whether a type is an integer with the default modes, and so needs no more than its width to
be written down. -/
def isPlainInteger (t : FixedType) : Bool :=
  t == integer t.width t.signed

end FixedType

/-- The numeric type of a side of an accelerator. -/
inductive Precision where
  | floating (kind : FloatKind)
  | fixed (type : FixedType)
deriving DecidableEq

namespace Precision

/-- The number of bits of a value. -/
def width : Precision → UInt32
  | .floating kind => kind.width
  | .fixed type => type.width

end Precision

end FabricConfig

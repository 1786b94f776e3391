import FabricConfig.Precision.Basic

/-! Byte alignment. A type travels in whole bytes, so its width grows to the next multiple of eight;
the added bits are fractional ones. -/

namespace FabricConfig

/-- The least multiple of eight that is at least `width`, or the greatest one there is if that does
not fit in a word. -/
def alignWidth (width : UInt32) : UInt32 :=
  UInt32.ofNat (min ((width.toNat + 7) / 8 * 8) (UInt32.size - 8))

/-- The type in whole bytes; only the width changes. -/
def FixedType.align (t : FixedType) : FixedType :=
  { t with width := alignWidth t.width }

/-- The precision in whole bytes. Floating-point formats are aligned already. -/
def Precision.align : Precision → Precision
  | .floating kind => .floating kind
  | .fixed type => .fixed type.align

end FabricConfig

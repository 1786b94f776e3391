import FabricConfig.Precision.Alignment
import FabricConfig.Proofs.Precision.RoundTrip

/-! Laws of byte alignment. An aligned width is a whole number of bytes, and alignment neither moves
such a width nor leaves the bounds of the grammar of specs, whose largest width is one. -/

namespace FabricConfig

/-! ### Widths -/

theorem toNat_alignWidth (width : UInt32) :
    (alignWidth width).toNat = min ((width.toNat + 7) / 8 * 8) (UInt32.size - 8) := by
  have hlt : min ((width.toNat + 7) / 8 * 8) (UInt32.size - 8) < UInt32.size := by
    have hsize : 8 < UInt32.size := by decide
    omega
  exact UInt32.toNat_ofNat_of_lt' hlt

theorem eight_dvd_alignWidth (width : UInt32) : 8 ∣ (alignWidth width).toNat := by
  have htop : 8 ∣ UInt32.size - 8 := by decide
  rw [toNat_alignWidth]
  omega

theorem alignWidth_eq_self {width : UInt32} (h : 8 ∣ width.toNat) : alignWidth width = width := by
  have htop : 8 ∣ UInt32.size - 8 := by decide
  have hlt := width.toNat_lt_size
  apply UInt32.toNat_inj.mp
  rw [toNat_alignWidth]
  omega

/-- Alignment does not pass a bound that is a whole number of bytes. -/
theorem alignWidth_le {width bound : UInt32} (hbound : 8 ∣ bound.toNat) (h : width ≤ bound) :
    alignWidth width ≤ bound := by
  have hle : width.toNat ≤ bound.toNat := UInt32.le_iff_toNat_le.mp h
  rw [UInt32.le_iff_toNat_le, toNat_alignWidth]
  omega

theorem le_alignWidth {width : UInt32} (h : width.toNat ≤ UInt32.size - 8) :
    width ≤ alignWidth width := by
  rw [UInt32.le_iff_toNat_le, toNat_alignWidth]
  omega

theorem eight_le_alignWidth {width : UInt32} (h : 0 < width) : 8 ≤ (alignWidth width).toNat := by
  have hsize : 16 ≤ UInt32.size := by decide
  have hpos : 0 < width.toNat := UInt32.lt_iff_toNat_lt.mp h
  rw [toNat_alignWidth]
  omega

/-! ### Types -/

theorem FixedType.align_eq_self {t : FixedType} (h : 8 ∣ t.width.toNat) : t.align = t := by
  rw [align, alignWidth_eq_self h]

/-- The largest width that a spec may ask for is a whole number of bytes, so alignment stays within
the bounds. -/
theorem FixedType.Valid.align {t : FixedType} (h : t.Valid) : t.align.Valid := by
  obtain ⟨hpos, hmax, hbits⟩ := h
  have hmaxNat : t.width.toNat ≤ 32768 := UInt32.le_iff_toNat_le.mp hmax
  have hsize : 32768 ≤ UInt32.size - 8 := by decide
  have hgrow : t.width ≤ alignWidth t.width := le_alignWidth (hmaxNat.trans hsize)
  refine ⟨?_, ?_, ?_⟩
  · exact UInt32.lt_of_lt_of_le hpos hgrow
  · exact alignWidth_le (by decide) hmax
  · exact UInt32.le_trans hbits hgrow

namespace Precision

theorem eight_dvd_width_align (p : Precision) : 8 ∣ p.align.width.toNat := by
  cases p with
  | floating kind => cases kind <;> decide
  | fixed type => exact eight_dvd_alignWidth type.width

theorem align_align (p : Precision) : p.align.align = p.align := by
  cases p with
  | floating kind => rfl
  | fixed type => exact congrArg fixed (FixedType.align_eq_self (eight_dvd_alignWidth type.width))

theorem Valid.align {p : Precision} (h : p.Valid) : p.align.Valid := by
  cases p with
  | floating kind => exact h
  | fixed type => exact FixedType.Valid.align h

/-! ### What specs ask for -/

theorem Parameters.valid {signed : Bool} {family : Family} {params : List (List Char)}
    {t : FixedType} (h : Parameters signed family params t) : t.Valid := by
  cases h with
  | integer _ hpos hmax => exact ⟨hpos, hmax, UInt32.le_refl _⟩
  | fixed _ hpos hmax _ hle _ => exact ⟨hpos, hmax, hle⟩

theorem valid_of_parse {spec : String} {p : Precision} (h : parse spec = .ok p) : p.Valid := by
  obtain ⟨core, -, hdenotes⟩ := parse_eq_ok_iff.mp h
  cases hdenotes with
  | float => trivial
  | double => trivial
  | fixed _ _ _ hparams => exact hparams.valid

end Precision

end FabricConfig

import FabricConfig.Proofs.Precision.Alignment
import Mathlib.Algebra.Order.Field.Rat
import Mathlib.Data.Rat.Cast.Order
import Mathlib.Order.Interval.Set.Basic
import Mathlib.Tactic.FieldSimp
import Mathlib.Tactic.NormNum

/-! What the values of a fixed-point type are, and what byte alignment does to them. The added bits
come after the binary point, so the grid of values gets finer and its bounds stay where they are. -/

namespace FabricConfig.FixedType

/-! ### Values -/

/-- The least integer that the bits of a type spell. -/
def lowest (t : FixedType) : ℤ :=
  if t.signed then -2 ^ (t.width.toNat - 1) else 0

/-- The first integer that is too large for the bits of a type. -/
def limit (t : FixedType) : ℤ :=
  if t.signed then 2 ^ (t.width.toNat - 1) else 2 ^ t.width.toNat

/-- The values of a type: the integers that its bits spell, with the binary point put in. -/
def values (t : FixedType) : Set ℚ :=
  {x | ∃ k : ℤ, t.lowest ≤ k ∧ k < t.limit ∧ x = k / 2 ^ (t.width.toNat - t.integerBits.toNat)}

/-- The interval that the sign and the integer bits of a type leave. -/
def range (t : FixedType) : Set ℚ :=
  if t.signed then
    Set.Ico (-2 ^ ((t.integerBits.toNat : ℤ) - 1)) (2 ^ ((t.integerBits.toNat : ℤ) - 1))
  else Set.Ico 0 (2 ^ t.integerBits.toNat)

theorem toNat_fractionalBits (t : FixedType) :
    t.fractionalBits.toNat = t.width.toNat - t.integerBits.toNat :=
  UInt32.toNat_ofNat_of_lt' (Nat.lt_of_le_of_lt (Nat.sub_le _ _) t.width.toNat_lt_size)

/-- The bounds of the bits, with the binary point put in, are those of the interval. -/
theorem range_eq {t : FixedType} (hpos : 0 < t.width.toNat)
    (hbits : t.integerBits.toNat ≤ t.width.toNat) :
    t.range = Set.Ico (t.lowest / 2 ^ (t.width.toNat - t.integerBits.toNat) : ℚ)
      (t.limit / 2 ^ (t.width.toNat - t.integerBits.toNat)) := by
  have htwo : (2 : ℚ) ≠ 0 := two_ne_zero
  cases hsigned : t.signed with
  | false =>
      have hlimit : (2 ^ t.width.toNat : ℚ) / 2 ^ (t.width.toNat - t.integerBits.toNat) =
          2 ^ t.integerBits.toNat := by
        rw [div_eq_iff (pow_ne_zero _ htwo), ← pow_add, Nat.add_sub_cancel' hbits]
      simp [range, lowest, limit, hsigned, hlimit]
  | true =>
      have hlimit : (2 ^ (t.width.toNat - 1) : ℚ) / 2 ^ (t.width.toNat - t.integerBits.toNat) =
          2 ^ ((t.integerBits.toNat : ℤ) - 1) := by
        rw [div_eq_iff (pow_ne_zero _ htwo), ← zpow_natCast, ← zpow_natCast, ← zpow_add₀ htwo]
        congr 1
        omega
      simp [range, lowest, limit, hsigned, hlimit, neg_div]

theorem values_subset_range {t : FixedType} (hpos : 0 < t.width.toNat)
    (hbits : t.integerBits.toNat ≤ t.width.toNat) : t.values ⊆ t.range := by
  rw [range_eq hpos hbits]
  rintro x ⟨k, hlow, hhigh, rfl⟩
  have hstep : (0 : ℚ) < 2 ^ (t.width.toNat - t.integerBits.toNat) := pow_pos two_pos _
  constructor
  · exact (div_le_div_iff_of_pos_right hstep).mpr (Int.cast_le.mpr hlow)
  · exact (div_lt_div_iff_of_pos_right hstep).mpr (Int.cast_lt.mpr hhigh)

/-! ### More bits after the binary point -/

/-- A type that has some bits more than another one, all of them after the binary point. -/
structure Extends (u t : FixedType) (added : ℕ) : Prop where
  width : u.width.toNat = t.width.toNat + added
  integerBits : u.integerBits = t.integerBits
  signed : u.signed = t.signed

namespace Extends

variable {t u : FixedType} {added : ℕ}

theorem lowest (h : u.Extends t added) (hpos : 0 < t.width.toNat) :
    u.lowest = t.lowest * 2 ^ added := by
  have hexponent : u.width.toNat - 1 = t.width.toNat - 1 + added := by
    have := h.width
    omega
  unfold FixedType.lowest
  rw [h.signed, hexponent, pow_add]
  split <;> simp

theorem limit (h : u.Extends t added) (hpos : 0 < t.width.toNat) :
    u.limit = t.limit * 2 ^ added := by
  have hexponent : u.width.toNat - 1 = t.width.toNat - 1 + added := by
    have := h.width
    omega
  unfold FixedType.limit
  rw [h.signed, hexponent, h.width, pow_add, pow_add]
  split <;> rfl

theorem range_eq (h : u.Extends t added) : u.range = t.range := by
  unfold range
  rw [h.signed, h.integerBits]

theorem fraction (h : u.Extends t added) (hbits : t.integerBits.toNat ≤ t.width.toNat) :
    u.width.toNat - u.integerBits.toNat = t.width.toNat - t.integerBits.toNat + added := by
  rw [h.width, h.integerBits]
  omega

/-- Every value of the smaller type is one of the larger type, spelled with zeros at the end. -/
theorem values_subset (h : u.Extends t added) (hpos : 0 < t.width.toNat)
    (hbits : t.integerBits.toNat ≤ t.width.toNat) : t.values ⊆ u.values := by
  rintro x ⟨k, hlow, hhigh, rfl⟩
  have hscale : (0 : ℤ) < 2 ^ added := pow_pos two_pos _
  refine ⟨k * 2 ^ added, ?_, ?_, ?_⟩
  · rw [h.lowest hpos]
    exact Int.mul_le_mul_of_nonneg_right hlow hscale.le
  · rw [h.limit hpos]
    exact Int.mul_lt_mul_of_pos_right hhigh hscale
  · rw [h.fraction hbits, pow_add]
    push_cast
    field_simp

/-- One step of a finer grid is no value of the coarser one. -/
theorem step_not_mem_values (h : u.Extends t added)
    (hbits : t.integerBits.toNat ≤ t.width.toNat) (hadded : 0 < added) :
    (1 / 2 ^ (u.width.toNat - u.integerBits.toNat) : ℚ) ∉ t.values := by
  rintro ⟨k, -, -, hk⟩
  have hscaled : (k : ℚ) * 2 ^ added = 1 := by
    rw [h.fraction hbits, pow_add] at hk
    field_simp at hk
    rw [mul_comm, ← hk]
  have hinteger : k * 2 ^ added = 1 := by exact_mod_cast hscaled
  have heven : (2 : ℤ) ∣ 1 := hinteger ▸ Dvd.dvd.mul_left (dvd_pow_self 2 hadded.ne') k
  omega

/-- The grid only stays the same if no bits are added. -/
theorem values_eq_iff (h : u.Extends t added) (hpos : 0 < t.width.toNat)
    (hbits : t.integerBits.toNat ≤ t.width.toNat) (hwide : 1 < u.width.toNat) :
    u.values = t.values ↔ added = 0 := by
  constructor
  · intro heq
    by_contra hadded
    have hstep : (1 / 2 ^ (u.width.toNat - u.integerBits.toNat) : ℚ) ∈ u.values := by
      refine ⟨1, ?_, ?_, by simp⟩
      · unfold FixedType.lowest
        split
        · have : (0 : ℤ) < 2 ^ (u.width.toNat - 1) := pow_pos two_pos _
          omega
        · omega
      · unfold FixedType.limit
        split
        · exact one_lt_pow₀ one_lt_two (by omega)
        · exact one_lt_pow₀ one_lt_two (by omega)
    exact h.step_not_mem_values hbits (Nat.pos_of_ne_zero hadded) (heq ▸ hstep)
  · rintro rfl
    have hfraction := h.fraction hbits
    unfold values
    rw [h.lowest hpos, h.limit hpos, hfraction]
    simp

end Extends

/-! ### Alignment -/

/-- The bits that alignment adds to the width. -/
def addedBits (t : FixedType) : ℕ :=
  t.align.width.toNat - t.width.toNat

theorem Valid.toNat {t : FixedType} (h : t.Valid) :
    0 < t.width.toNat ∧ t.width.toNat ≤ 32768 ∧ t.integerBits.toNat ≤ t.width.toNat :=
  ⟨UInt32.lt_iff_toNat_lt.mp h.1, UInt32.le_iff_toNat_le.mp h.2.1,
    UInt32.le_iff_toNat_le.mp h.2.2⟩

/-- Within the bounds of the grammar alignment adds bits and never takes any away. -/
theorem Valid.align_extends {t : FixedType} (h : t.Valid) : t.align.Extends t t.addedBits := by
  obtain ⟨-, hmax, -⟩ := h.toNat
  have hsize : 32768 ≤ UInt32.size - 8 := by decide
  have hgrow : t.width ≤ t.align.width := le_alignWidth (hmax.trans hsize)
  exact ⟨(Nat.add_sub_cancel' (UInt32.le_iff_toNat_le.mp hgrow)).symm, rfl, rfl⟩

theorem Valid.addedBits_eq_zero_iff {t : FixedType} (h : t.Valid) :
    t.addedBits = 0 ↔ 8 ∣ t.width.toNat := by
  have hwidth := h.align_extends.width
  constructor
  · intro hzero
    have haligned : 8 ∣ t.align.width.toNat := eight_dvd_alignWidth t.width
    rwa [hwidth, hzero] at haligned
  · intro hdvd
    rw [addedBits, align_eq_self hdvd, Nat.sub_self]

/-- Byte alignment loses no value. The values of an aligned type are those of the type and, unless
its width was a whole number of bytes, others between the same bounds. All added bits are fractional
ones. -/
theorem values_align {t : FixedType} (h : t.Valid) :
    (Precision.fixed t).align = .fixed t.align ∧
      t.values ⊆ t.align.values ∧
      t.align.values ⊆ t.range ∧
      (t.align.values = t.values ↔ 8 ∣ t.width.toNat) ∧
      t.align.width.toNat = t.width.toNat + t.addedBits ∧
      t.align.fractionalBits.toNat = t.fractionalBits.toNat + t.addedBits := by
  obtain ⟨hpos, -, hbits⟩ := h.toNat
  obtain ⟨hpos', -, hbits'⟩ := h.align.toNat
  have hextends := h.align_extends
  have hwide : 1 < t.align.width.toNat :=
    Nat.lt_of_lt_of_le (by decide) (eight_le_alignWidth h.1)
  refine ⟨rfl, hextends.values_subset hpos hbits, ?_, ?_, hextends.width, ?_⟩
  · rw [← hextends.range_eq]
    exact values_subset_range hpos' hbits'
  · rw [hextends.values_eq_iff hpos hbits hwide, h.addedBits_eq_zero_iff]
  · rw [toNat_fractionalBits, toNat_fractionalBits, hextends.fraction hbits]

/-- A sign bit alone stands for zero or minus a half. In a whole byte there are 256 values, and half
is still not reached. -/
theorem values_align_sign_bit :
    let t : FixedType := { width := 1, integerBits := 0, signed := true }
    t.Valid ∧ (-1 / 2 : ℚ) ∈ t.values ∧ (-1 / 2 : ℚ) ∈ t.align.values ∧
      t.align.values ⊆ Set.Ico (-1 / 2) (1 / 2) ∧ t.align.values ≠ t.values ∧
      t.align.fractionalBits.toNat = 8 := by
  intro t
  have hvalid : t.Valid := by decide
  have hhalf : (-1 / 2 : ℚ) ∈ t.values := ⟨-1, by decide, by decide, by simp [t]⟩
  have hrange : t.range = Set.Ico (-1 / 2) (1 / 2) := by norm_num [range, t]
  obtain ⟨-, hsubset, hbounds, heq, -, hfraction⟩ := values_align hvalid
  refine ⟨hvalid, hhalf, hsubset hhalf, hrange ▸ hbounds, ?_, hfraction.trans (by decide)⟩
  exact fun h => absurd (heq.mp h) (by decide)

end FabricConfig.FixedType

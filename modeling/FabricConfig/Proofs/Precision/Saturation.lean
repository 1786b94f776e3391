import FabricConfig.Proofs.Precision.Alignment
import Mathlib.Order.Bounds.Basic

/-! Alignment of every width that a word can hold. Above the last seven of them there is no multiple
of eight that fits in a word. These are the only widths that get smaller, and so the only ones with
which alignment can leave a type with more integer bits than bits. -/

namespace FabricConfig

/-! ### The widths that alignment may give -/

/-- What alignment makes of a width: the least multiple of eight that is not below it or, where that
does not fit in a word, the greatest multiple of eight that does. -/
structure AlignsTo (width aligned : ℕ) : Prop where
  dvd : 8 ∣ aligned
  le_top : aligned ≤ UInt32.size - 8
  isLeast : width ≤ UInt32.size - 8 → IsLeast {n | 8 ∣ n ∧ width ≤ n} aligned
  eq_top : UInt32.size - 8 < width → aligned = UInt32.size - 8

theorem alignsTo_alignWidth (width : UInt32) :
    AlignsTo width.toNat (alignWidth width).toNat := by
  refine ⟨eight_dvd_alignWidth width, ?_, ?_, ?_⟩
  · rw [toNat_alignWidth]
    exact Nat.min_le_right _ _
  · intro hfits
    refine ⟨⟨eight_dvd_alignWidth width, UInt32.le_iff_toNat_le.mp (le_alignWidth hfits)⟩, ?_⟩
    rintro n ⟨hdvd, hle⟩
    rw [toNat_alignWidth]
    omega
  · intro hlarge
    rw [toNat_alignWidth]
    omega

namespace AlignsTo

variable {width aligned : ℕ}

/-- Among eight numbers in a row there is a multiple of eight. -/
theorem lt_add_eight (h : AlignsTo width aligned) (hfits : width ≤ UInt32.size - 8) :
    aligned < width + 8 := by
  have hmultiple : (width + 7) / 8 * 8 ∈ {n | 8 ∣ n ∧ width ≤ n} :=
    ⟨Nat.dvd_mul_left 8 _, by omega⟩
  have hle := (h.isLeast hfits).2 hmultiple
  omega

theorem mono (h : AlignsTo width aligned) {width' aligned' : ℕ} (h' : AlignsTo width' aligned')
    (hle : width ≤ width') : aligned ≤ aligned' := by
  by_cases hfits : width' ≤ UInt32.size - 8
  · exact (h.isLeast (hle.trans hfits)).2 ⟨h'.dvd, hle.trans (h'.isLeast hfits).1.2⟩
  · rw [h'.eq_top (Nat.lt_of_not_le hfits)]
    exact h.le_top

/-- The greatest multiple that fits is a width that alignment keeps, so a second alignment changes
nothing in either case. -/
theorem eq_of_alignsTo (h : AlignsTo width aligned) {again : ℕ} (h' : AlignsTo aligned again) :
    again = aligned := by
  have hleast := h'.isLeast h.le_top
  exact Nat.le_antisymm (hleast.2 ⟨h.dvd, Nat.le_refl aligned⟩) hleast.1.2

/-- Bits that fit in a width fit in the aligned one, unless they are too many for any multiple of
eight. -/
theorem le_iff (h : AlignsTo width aligned) {bits : ℕ} (hbits : bits ≤ width) :
    bits ≤ aligned ↔ width ≤ UInt32.size - 8 ∨ bits ≤ UInt32.size - 8 := by
  by_cases hfits : width ≤ UInt32.size - 8
  · have hgrow : bits ≤ aligned := hbits.trans (h.isLeast hfits).1.2
    simp [hfits, hgrow]
  · rw [h.eq_top (Nat.lt_of_not_le hfits)]
    simp [hfits]

end AlignsTo

/-! ### Alignment of words and types -/

/-- Alignment takes each width to the least multiple of eight that is not below it, which is less
than eight away, and the last seven widths to the greatest multiple of eight that a word can hold. It
keeps the order of widths, and a second alignment changes nothing. A type changes in its width only.
Within the bounds of the grammar it stays there, and beyond them its integer bits stay within its
width unless both are more than that greatest multiple. -/
theorem align_least_or_greatest :
    (∀ width : UInt32, AlignsTo width.toNat (alignWidth width).toNat ∧
      (width.toNat ≤ UInt32.size - 8 → (alignWidth width).toNat < width.toNat + 8) ∧
      alignWidth (alignWidth width) = alignWidth width) ∧
    (∀ width width' : UInt32, width ≤ width' → alignWidth width ≤ alignWidth width') ∧
    ∀ t : FixedType,
      (Precision.fixed t).align = .fixed t.align ∧
      t.align.align = t.align ∧
      { t.align with width := t.width } = t ∧
      (t.Valid → t.align.Valid) ∧
      (t.integerBits ≤ t.width → (t.align.integerBits ≤ t.align.width ↔
        t.width.toNat ≤ UInt32.size - 8 ∨ t.integerBits.toNat ≤ UInt32.size - 8)) := by
  have hidempotent (width : UInt32) : alignWidth (alignWidth width) = alignWidth width :=
    UInt32.toNat_inj.mp ((alignsTo_alignWidth width).eq_of_alignsTo (alignsTo_alignWidth _))
  refine ⟨fun width => ?_, fun width width' hle => ?_, fun t => ?_⟩
  · exact ⟨alignsTo_alignWidth width, (alignsTo_alignWidth width).lt_add_eight, hidempotent width⟩
  · rw [UInt32.le_iff_toNat_le] at hle ⊢
    exact (alignsTo_alignWidth width).mono (alignsTo_alignWidth width') hle
  · refine ⟨rfl, ?_, rfl, FixedType.Valid.align, fun hbits => ?_⟩
    · exact congrArg (fun width => { t with width }) (hidempotent t.width)
    · rw [UInt32.le_iff_toNat_le] at hbits ⊢
      exact (alignsTo_alignWidth t.width).le_iff hbits

/-- The widest integer loses seven bits and none of its integer bits, so these are too many then.
Seven integer bits less would still fit. -/
theorem align_least_or_greatest_widest :
    let widest : FixedType := .integer 4294967295 true
    let narrower : FixedType := { widest with integerBits := 4294967288 }
    let valid : FixedType := { widest with width := 32761, integerBits := 32761 }
    (AlignsTo 4294967295 4294967288 ∧ AlignsTo 4294967288 4294967288 ∧
        AlignsTo 4294967281 4294967288) ∧
      (widest.integerBits ≤ widest.width ∧ ¬ widest.align.integerBits ≤ widest.align.width) ∧
      (narrower.integerBits ≤ narrower.width ∧
        narrower.align.integerBits ≤ narrower.align.width) ∧
      valid.Valid ∧ valid.align.Valid ∧ valid.align.width = 32768 := by
  intro widest narrower valid
  obtain ⟨hwidth, -, htype⟩ := align_least_or_greatest
  obtain ⟨-, -, -, -, hwidest⟩ := htype widest
  obtain ⟨-, -, -, -, hnarrower⟩ := htype narrower
  obtain ⟨-, -, -, hvalid, -⟩ := htype valid
  refine ⟨⟨?_, ?_, ?_⟩, ⟨by decide, ?_⟩, ⟨by decide, ?_⟩, by decide, hvalid (by decide), by decide⟩
  · exact (hwidth 4294967295).1
  · exact (hwidth 4294967288).1
  · exact (hwidth 4294967281).1
  · rw [hwidest (by decide)]
    decide
  · exact (hnarrower (by decide)).mpr (by decide)

end FabricConfig

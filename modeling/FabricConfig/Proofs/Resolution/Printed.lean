import FabricConfig.Json.Printer
import FabricConfig.Proofs.Precision.Encoding
import FabricConfig.Proofs.Registry
import FabricConfig.Proofs.Settings.RoundTrip
import FabricConfig.Resolution.Encoding

/-! Printed resolutions. Every part of a resolution can be told from its JSON value, and a value
whose numbers are all 64-bit integers can be told from its text, so nothing is lost in print. -/

namespace FabricConfig

open Json

/-! ### Numbers -/

theorem Json.eq_of_nat_eq {m n : Nat} (h : Json.nat m = Json.nat n) : m = n :=
  Int.ofNat.inj (Number.int.inj (Json.number.inj h))

theorem Json.integral_nat {n : Nat} (h : n < UInt64.size) : (Json.nat n).Integral := by
  rw [Json.nat, integral_number_iff, Number.integral_int_iff]
  omega

/-! ### The parts of an accelerator -/

namespace Precision

theorem objectForm_members (p : Precision) : p.ObjectForm p.members where
  subset := List.Subset.refl _
  nodup := by cases p <;> simp [members, fieldMembers, FixedType.members, tagKey]
  complete _ hmember := .inl hmember

theorem toJson_injective : Function.Injective toJson :=
  Decoder.injective_of_decodes fun p => by
    rw [p.toJson_eq]
    exact decoder_object p.objectForm_members

theorem integral_toJson (p : Precision) : p.toJson.Integral := by
  rw [p.toJson_eq]
  exact .object integral_of_mem_members

end Precision

namespace Tensor

theorem toJson_injective : Function.Injective toJson := by
  rintro ⟨name, shape⟩ ⟨name', shape'⟩ h
  have hparts : name = name' ∧ (shape.map fun size => Json.nat size.toNat) =
      shape'.map fun size => Json.nat size.toNat := by
    simpa [toJson] using h
  obtain ⟨rfl, hshape⟩ := hparts
  have hsize : Function.Injective fun size : UInt64 => Json.nat size.toNat :=
    fun _ _ hsize => UInt64.toNat_inj.mp (Json.eq_of_nat_eq hsize)
  rw [List.map_injective_iff.mpr hsize hshape]

theorem integral_toJson (tensor : Tensor) : tensor.toJson.Integral := by
  have hsize : ∀ size ∈ tensor.shape, (Json.nat size.toNat).Integral :=
    fun size _ => integral_nat size.toNat_lt_size
  simpa [toJson] using hsize

end Tensor

/-! ### Accelerators and corrections -/

namespace Accelerator

theorem toJson_injective : Function.Injective toJson := by
  rintro ⟨board, part, boardInfo, interface, driver, ⟨inputType, inputWidth, input⟩,
    ⟨outputType, outputWidth, output⟩, root⟩ ⟨board', part', boardInfo', interface', driver',
    ⟨inputType', inputWidth', input'⟩, ⟨outputType', outputWidth', output'⟩, root'⟩ h
  simp only [toJson, Json.object.injEq, List.cons.injEq, Prod.mk.injEq, Json.string.injEq, true_and,
    and_true] at h
  obtain ⟨rfl, rfl, hinfo, hinterface, hdriver, hinputType, houtputType, hinputWidth, houtputWidth,
    hinput, houtput, rfl⟩ := h
  obtain rfl := Decoder.injective_of_decodes Board.decoder_document hinfo
  obtain rfl := eq_of_name_eq hinterface
  obtain rfl := eq_of_name_eq hdriver
  obtain rfl := Precision.toJson_injective hinputType
  obtain rfl := Precision.toJson_injective houtputType
  obtain rfl := UInt32.toNat_inj.mp (eq_of_nat_eq hinputWidth)
  obtain rfl := UInt32.toNat_inj.mp (eq_of_nat_eq houtputWidth)
  obtain rfl := Tensor.toJson_injective hinput
  obtain rfl := Tensor.toJson_injective houtput
  rfl

theorem integral_toJson (a : Accelerator) : a.toJson.Integral := by
  simp [toJson, Json.name, Board.integral_toJson, Precision.integral_toJson,
    Precision.integral_word, Tensor.integral_toJson]

end Accelerator

namespace Correction

theorem toJson_injective : Function.Injective toJson := by
  intro a b h
  cases a with
  | part requested canonical =>
      cases b with
      | part requested' canonical' => simpa [toJson] using h
      | accelerator fallback' => simp [toJson] at h
  | accelerator fallback =>
      cases b with
      | part requested' canonical' => simp [toJson] at h
      | accelerator fallback' =>
          have hsection : fallback.toJson = fallback'.toJson := by simpa [toJson] using h
          rw [Decoder.injective_of_decodes Section.decoder_document hsection]

theorem integral_toJson (correction : Correction) : correction.toJson.Integral := by
  cases correction with
  | part requested canonical => simp [toJson]
  | accelerator fallback => simp [toJson, Section.integral_toJson]

end Correction

/-! ### Resolutions -/

namespace Resolution

theorem toJson_injective : Function.Injective toJson := by
  rintro ⟨config, corrections⟩ ⟨config', corrections'⟩ h
  have hparts : config.toJson = config'.toJson ∧
      corrections.map Correction.toJson = corrections'.map Correction.toJson := by
    simpa [toJson] using h
  rw [Accelerator.toJson_injective hparts.1,
    List.map_injective_iff.mpr Correction.toJson_injective hparts.2]

theorem integral_toJson (resolution : Resolution) : resolution.toJson.Integral := by
  simp [toJson, Accelerator.integral_toJson, Correction.integral_toJson]

theorem eq_of_text_eq {style : Style} (hstyle : style.Blank) {a b : Resolution}
    (h : String.ofList (a.toJson.letters style 0) = String.ofList (b.toJson.letters style 0)) :
    a = b :=
  toJson_injective
    (a.integral_toJson.eq_of_letters_eq hstyle b.integral_toJson (String.ofList_injective h))

/-- A printed resolution tells everything about it, on one line as well as indented. -/
theorem printed_eq_iff (a b : Resolution) :
    (a.toJson.compact = b.toJson.compact ↔ a = b) ∧
      (a.toJson.pretty = b.toJson.pretty ↔ a = b) := by
  refine ⟨⟨eq_of_text_eq Style.blank_compact, ?_⟩, ⟨eq_of_text_eq Style.blank_pretty, ?_⟩⟩
  · rintro rfl
    rfl
  · rintro rfl
    rfl

end Resolution

end FabricConfig

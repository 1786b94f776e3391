import FabricConfig.Precision.Spelling
import FabricConfig.Proofs.Precision.Grammar

/-! The canonical spelling of a precision is read back as that precision, if its widths are within
the bounds of the grammar, and refused otherwise. Even a spelling that is refused is that of one
precision only. -/

namespace FabricConfig

open Text

/-! ### Bounds on widths -/

namespace FixedType

/-- The widths that a spec may ask for. -/
def Valid (t : FixedType) : Prop :=
  0 < t.width ∧ t.width ≤ 32768 ∧ t.integerBits ≤ t.width

instance (t : FixedType) : Decidable t.Valid :=
  inferInstanceAs (Decidable (_ ∧ _ ∧ _))

/-- A type within the bounds, or the first bound that it breaks. -/
def checked (t : FixedType) : Except Precision.SpecFault FixedType :=
  if t.width = 0 then .error .zeroWidth
  else if maxWidth < t.width then .error .tooWide
  else if t.width < t.integerBits then .error (.integerBitsExceedWidth t.integerBits t.width)
  else .ok t

theorem checked_eq_ok_iff {t u : FixedType} : t.checked = .ok u ↔ u = t ∧ t.Valid := by
  unfold checked
  constructor
  · intro h
    split at h
    · contradiction
    · rename_i hzero
      split at h
      · contradiction
      · rename_i hwide
        split at h
        · contradiction
        · rename_i hbits
          exact ⟨(Except.ok.inj h).symm, UInt32.pos_iff_ne_zero.mpr hzero,
            UInt32.not_lt.mp hwide, UInt32.not_lt.mp hbits⟩
  · rintro ⟨rfl, hpos, hmax, hbits⟩
    have hwide : ¬ maxWidth < u.width := UInt32.not_lt.mpr hmax
    rw [if_neg (UInt32.pos_iff_ne_zero.mp hpos), if_neg hwide, if_neg (UInt32.not_lt.mpr hbits)]

end FixedType

/-- Floating-point formats have no widths to choose. -/
def Precision.Valid : Precision → Prop
  | .floating _ => True
  | .fixed type => type.Valid

/-! ### Parameters as they are written -/

/-- The characters of numbers and of the names of modes. -/
def isWordChar (c : Char) : Bool :=
  c.isUpper || c.isDigit || c == '_'

/-- A text that is one word, as every written parameter is. -/
def Word (text : List Char) : Prop :=
  text.all isWordChar

instance (text : List Char) : Decidable (Word text) :=
  inferInstanceAs (Decidable (_ = true))

theorem not_isBlank_of_isWordChar {c : Char} (h : isWordChar c) : ¬ isBlank c := by
  have hupper : c.isUpper = decide (c.val ≥ 'A'.val ∧ c.val ≤ 'Z'.val) := rfl
  have hrange : (65 ≤ c.toNat ∧ c.toNat ≤ 90 ∨ 48 ≤ c.toNat ∧ c.toNat ≤ 57) ∨ c.toNat = 95 := by
    simpa [isWordChar, hupper, UInt32.le_iff_toNat_le, Char.isDigit_iff_toNat,
      ← Char.toNat_inj] using h
  simp [isBlank, blankRanges]
  omega

namespace Word

variable {text : List Char}

theorem isWordChar_of_mem (h : Word text) {c : Char} (hc : c ∈ text) : isWordChar c :=
  List.all_eq_true.mp h c hc

theorem tight (h : Word text) : Tight text :=
  ⟨fun _ hc => not_isBlank_of_isWordChar (h.isWordChar_of_mem (List.mem_of_head? hc)),
    fun _ hc => not_isBlank_of_isWordChar (h.isWordChar_of_mem (List.mem_of_getLast? hc))⟩

theorem not_mem (h : Word text) {c : Char} (hc : isWordChar c = false) : c ∉ text := by
  intro hmem
  have hword := h.isWordChar_of_mem hmem
  rw [hc] at hword
  contradiction

end Word

theorem word_decimal (n : Nat) : Word (decimal n) := by
  apply List.all_eq_true.mpr
  intro c hc
  simp [isWordChar, isDigit_of_mem_decimal hc]

theorem word_rounding (q : Rounding) : Word (Named.name q).toList := by
  cases q <;> decide

theorem word_overflow (o : Overflow) : Word (Named.name o).toList := by
  cases o <;> decide

/-- Words with commas in between are cut into the same words. -/
theorem pieces_join {words : List (List Char)} (hne : words ≠ []) (h : ∀ w ∈ words, Word w) :
    Pieces ',' (join ',' words) words :=
  ⟨hne, fun w hw => (h w hw).not_mem (by decide), rfl⟩

theorem map_trim_of_words {words : List (List Char)} (h : ∀ w ∈ words, Word w) :
    words.map trim = words := by
  calc
    words.map trim = words.map id := List.map_congr_left fun w hw => trim_of_tight (h w hw).tight
    _ = words := List.map_id words

theorem not_mem_join {c : Char} (hcomma : c ≠ ',') (hc : isWordChar c = false)
    {words : List (List Char)} (h : ∀ w ∈ words, Word w) : c ∉ join ',' words := by
  induction words with
  | nil => exact List.not_mem_nil
  | cons w rest ih =>
      have hw := (h w List.mem_cons_self).not_mem hc
      cases rest with
      | nil => exact hw
      | cons next rest =>
          intro hmem
          rcases List.mem_append.mp hmem with hmem | hmem
          · exact hw hmem
          · rcases List.mem_cons.mp hmem with hmem | hmem
            · exact hcomma hmem
            · exact ih (fun v hv => h v (List.mem_cons_of_mem w hv)) hmem

/-! ### Spellings -/

namespace FixedType

open Precision

/-- What the spelling of a type says, taken apart. -/
def form (t : FixedType) : Form :=
  if t.isPlainInteger then ⟨t.signed, .integer, [decimal t.width.toNat]⟩
  else ⟨t.signed, .fixed, decimal t.width.toNat :: decimal t.integerBits.toNat :: t.modeParams⟩

/-- A mode that is left out is one whose default the reader puts back. -/
theorem modes_modeParams (t : FixedType) :
    Modes t.modeParams t.rounding t.overflow t.saturationBits := by
  unfold modeParams
  dsimp only
  rw [toList_name_rounding, toList_name_overflow]
  by_cases hbits : t.saturationBits = 0
  · rw [if_neg (not_not.mpr hbits), hbits]
    by_cases hover : t.overflow = default
    · rw [if_neg (not_not.mpr hover), hover]
      by_cases hround : t.rounding = default
      · rw [if_neg (not_not.mpr hround), hround]
        exact .none
      · rw [if_pos hround]
        exact .rounding t.rounding
    · rw [if_pos hover]
      exact .overflow t.rounding t.overflow
  · rw [if_pos hbits]
    exact .bits t.rounding t.overflow (numeral_decimal t.saturationBits)

theorem word_of_mem_modeParams {t : FixedType} {w : List Char} (h : w ∈ t.modeParams) :
    Word w := by
  have hmem : w = (Named.name t.rounding).toList ∨ w = (Named.name t.overflow).toList ∨
      w = decimal t.saturationBits.toNat := by
    unfold modeParams at h
    grind
  rcases hmem with rfl | rfl | rfl
  · exact word_rounding t.rounding
  · exact word_overflow t.overflow
  · exact word_decimal _

theorem word_of_mem_form {t : FixedType} {w : List Char} (h : w ∈ t.form.params) : Word w := by
  unfold form at h
  split at h
  · rw [List.mem_singleton.mp h]
    exact word_decimal _
  · rcases List.mem_cons.mp h with rfl | h
    · exact word_decimal _
    · rcases List.mem_cons.mp h with rfl | h
      · exact word_decimal _
      · exact word_of_mem_modeParams h

theorem form_params_ne_nil (t : FixedType) : t.form.params ≠ [] := by
  unfold form
  split <;> simp

theorem letters_eq (t : FixedType) :
    t.letters = "ap_".toList ++ ((if t.form.signed then [] else ['u']) ++ (t.form.family.keyword ++
      ([] ++ ('<' :: join ',' t.form.params ++ ['>'])))) := by
  have hint : "int<".toList = Family.integer.keyword ++ ['<'] := rfl
  have hfixed : "fixed<".toList = Family.fixed.keyword ++ ['<'] := rfl
  by_cases hplain : t.isPlainInteger
  · rw [letters, form, if_pos hplain, if_pos hplain, hint]
    simp only [List.append_assoc, List.nil_append, List.cons_append, join]
  · rw [letters, form, if_neg hplain, if_neg hplain, hfixed]
    simp only [List.append_assoc, List.nil_append, List.cons_append]

theorem bracketed_letters (t : FixedType) :
    Bracketed t.letters t.form.signed t.form.family (join ',' t.form.params) := by
  have hwords : ∀ w ∈ t.form.params, Word w := fun w => word_of_mem_form
  exact ⟨"ap_".toList, [], .inr rfl, by simp [AllBlank],
    not_mem_join (by decide) (by decide) hwords, not_mem_join (by decide) (by decide) hwords,
    t.letters_eq⟩

theorem ofText?_letters (t : FixedType) : Form.ofText? t.letters = some t.form := by
  have hwords : ∀ w ∈ t.form.params, Word w := fun w => word_of_mem_form
  rw [Form.ofText?_of_bracketed t.bracketed_letters,
    split_eq_iff.mpr (pieces_join t.form_params_ne_nil hwords), map_trim_of_words hwords]

theorem eq_integer_of_isPlainInteger {t : FixedType} (h : t.isPlainInteger) :
    t = integer t.width t.signed := by
  simpa [isPlainInteger] using h

theorem type_form (t : FixedType) : t.form.type = t.checked := by
  have hw := typeWidth_of_numeral (numeral_decimal t.width)
  unfold form checked
  split
  · rename_i hplain
    have ht := eq_integer_of_isPlainInteger hplain
    have hbits : t.integerBits = t.width := congrArg integerBits ht
    rw [Form.type_integer, hw, hbits, if_neg (UInt32.lt_irrefl t.width)]
    split
    · rfl
    · split
      · rfl
      · exact congrArg Except.ok ht.symm
  · have hmodes := t.modes_modeParams
    rw [Form.type_fixed, hw]
    split
    · rfl
    · split
      · rfl
      · rw [ok_bind, fixedType_of_numeral (numeral_decimal t.integerBits) hmodes.length_le,
          withModes_of_modes hmodes]

theorem tight_letters (t : FixedType) : Tight t.letters := by
  constructor
  · intro c hc
    rw [letters_eq] at hc
    obtain rfl := Option.some.inj hc
    decide
  · intro c hc
    rw [t.bracketed_letters.getLast?] at hc
    obtain rfl := Option.some.inj hc
    decide

end FixedType

namespace Precision

theorem trim_letters (p : Precision) : trim p.letters = p.letters := by
  cases p with
  | floating kind => cases kind <;> rfl
  | fixed type => exact trim_of_tight type.tight_letters

/-- Reading a spelling checks the bounds and changes nothing else. -/
theorem parse_spelling_fixed (type : FixedType) :
    parse (spelling (.fixed type)) = type.checked.map .fixed := by
  rw [parse, spelling, String.toList_ofList, trim_letters, ofTrimmed]
  have hname : (Named.ofName? (String.ofList (letters (.fixed type))) : Option FloatKind) = none :=
    ofName?_of_bracketed type.bracketed_letters
  rw [hname, letters, type.ofText?_letters]
  dsimp only
  rw [type.type_form]

theorem parse_spelling_floating (kind : FloatKind) :
    parse (spelling (.floating kind)) = .ok (.floating kind) := by
  cases kind <;> rfl

theorem parse_spelling_eq_ok_iff {p q : Precision} :
    parse p.spelling = .ok q ↔ q = p ∧ p.Valid := by
  cases p with
  | floating kind => simp [parse_spelling_floating, Valid, eq_comm]
  | fixed type =>
      rw [parse_spelling_fixed]
      constructor
      · intro h
        cases hchecked : type.checked with
        | error fault =>
            rw [hchecked] at h
            contradiction
        | ok u =>
            rw [hchecked] at h
            obtain ⟨rfl, hvalid⟩ := FixedType.checked_eq_ok_iff.mp hchecked
            exact ⟨(Except.ok.inj h).symm, hvalid⟩
      · rintro ⟨rfl, hvalid⟩
        rw [FixedType.checked_eq_ok_iff.mpr ⟨rfl, hvalid⟩]
        rfl

end Precision

/-- A precision survives being spelled and read exactly if its widths are within bounds. Otherwise
its spelling is refused, so no spelling is ever read as another precision. -/
theorem readPrecision_spelling_iff (p : Precision) :
    (∀ q, readPrecision p.spelling = .ok q ↔ q = p ∧ p.Valid) ∧
      ((∃ reason, readPrecision p.spelling = .error (.invalidPrecision p.spelling reason)) ↔
        ¬ p.Valid) := by
  refine ⟨fun q => readPrecision_eq_ok_iff.trans Precision.parse_spelling_eq_ok_iff, ?_⟩
  have hok := @Precision.parse_spelling_eq_ok_iff p p
  simp only [readPrecision_eq_error_iff]
  cases hparse : Precision.parse p.spelling with
  | error fault =>
      rw [hparse] at hok
      simpa using hok
  | ok q =>
      obtain ⟨rfl, hvalid⟩ := Precision.parse_spelling_eq_ok_iff.mp hparse
      simpa using hvalid

/-! ### Spellings tell precisions apart -/

namespace FixedType

open Precision

/-- The modes that are written also tell those that are left out. -/
theorem eq_of_modes {modes : List (List Char)} {q q' : Rounding} {o o' : Overflow} {n n' : UInt32}
    (h : Modes modes q o n) (h' : Modes modes q' o' n') : q = q' ∧ o = o' ∧ n = n' := by
  have hread := withModes_of_modes h 0 0 true
  have hread' := withModes_of_modes h' 0 0 true
  simpa using hread.symm.trans hread'

/-- The family tells whether the integer bits and modes are written or left out. -/
theorem eq_of_form_eq {t u : FixedType} (h : t.form = u.form) : t = u := by
  by_cases ht : t.isPlainInteger <;> by_cases hu : u.isPlainInteger <;>
    simp only [form, ht, hu, if_true, if_false, Form.mk.injEq, List.cons.injEq, reduceCtorEq,
      and_false, true_and, and_true] at h
  · obtain ⟨hsigned, hwidth⟩ := h
    rw [eq_integer_of_isPlainInteger ht, eq_integer_of_isPlainInteger hu, hsigned,
      eq_of_decimal_eq hwidth]
  · obtain ⟨hsigned, hwidth, hbits, hmodes⟩ := h
    have hread := t.modes_modeParams
    rw [hmodes] at hread
    obtain ⟨hrounding, hoverflow, hsaturation⟩ := eq_of_modes hread u.modes_modeParams
    obtain ⟨width, integerBits, signed, rounding, overflow, saturationBits⟩ := t
    rw [FixedType.mk.injEq]
    exact ⟨eq_of_decimal_eq hwidth, eq_of_decimal_eq hbits, hsigned, hrounding, hoverflow,
      hsaturation⟩

theorem eq_of_letters_eq {t u : FixedType} (h : t.letters = u.letters) : t = u := by
  have hform := t.ofText?_letters
  rw [h, u.ofText?_letters] at hform
  exact (eq_of_form_eq (Option.some.inj hform)).symm

end FixedType

/-- The spelling of a fixed-point type has brackets, and the names of formats have none. -/
theorem Precision.letters_fixed_ne_floating (type : FixedType) (kind : FloatKind) :
    letters (.fixed type) ≠ letters (.floating kind) := by
  intro h
  have hnone := ofName?_of_bracketed type.bracketed_letters
  have hname : type.letters = (Named.name kind).toList := h
  have hsome := Named.ofName?_ofList_eq_some_iff.mpr hname
  rw [hnone] at hsome
  contradiction

/-- No two precisions have the same spelling, whatever their widths are. -/
theorem spelling_eq_iff (p q : Precision) : p.spelling = q.spelling ↔ p = q := by
  refine ⟨fun h => ?_, fun h => congrArg Precision.spelling h⟩
  have hletters : p.letters = q.letters := by
    simpa [Precision.spelling] using congrArg String.toList h
  cases p with
  | floating kind =>
      cases q with
      | floating other =>
          have hname := LawfulNamed.name_injective kind other (String.toList_inj.mp hletters)
          rw [hname]
      | fixed type => exact absurd hletters.symm (Precision.letters_fixed_ne_floating type kind)
  | fixed type =>
      cases q with
      | floating kind => exact absurd hletters (Precision.letters_fixed_ne_floating type kind)
      | fixed other => rw [FixedType.eq_of_letters_eq hletters]

end FabricConfig

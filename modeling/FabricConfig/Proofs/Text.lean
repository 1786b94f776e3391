import FabricConfig.Text.Blank
import FabricConfig.Text.Decimal
import FabricConfig.Text.Split
import Mathlib.Data.List.DropRight

/-! Laws of texts. Trimming, cutting at a separator and reading a decimal are each described by a
relation between the text and what comes out of it, so that later proofs need not open them. -/

namespace FabricConfig.Text

/-! ### White space at the ends -/

/-- White space and nothing else. -/
def AllBlank (text : List Char) : Prop :=
  ∀ c ∈ text, isBlank c

instance (text : List Char) : Decidable (AllBlank text) :=
  List.decidableBAll (fun c => isBlank c = true) text

/-- A text that neither starts nor ends with white space. -/
structure Tight (text : List Char) : Prop where
  start : ∀ c ∈ text.head?, ¬ isBlank c
  stop : ∀ c ∈ text.getLast?, ¬ isBlank c

/-- A text is a tight `core` with white space around it. -/
def Surrounds (text core : List Char) : Prop :=
  ∃ before after, AllBlank before ∧ AllBlank after ∧ Tight core ∧ text = before ++ core ++ after

theorem trimEnd_eq_rdropWhile (text : List Char) : trimEnd text = text.rdropWhile isBlank :=
  rfl

theorem trimStart_append_of_allBlank {before : List Char} (h : AllBlank before)
    (text : List Char) : trimStart (before ++ text) = trimStart text :=
  List.dropWhile_append_of_pos h

theorem trimEnd_append_of_allBlank {after : List Char} (h : AllBlank after) (text : List Char) :
    trimEnd (text ++ after) = trimEnd text := by
  unfold trimEnd
  rw [List.reverse_append, List.dropWhile_append_of_pos]
  intro c hc
  exact h c (List.mem_reverse.mp hc)

theorem trimStart_eq_self {text : List Char} (h : ∀ c ∈ text.head?, ¬ isBlank c) :
    trimStart text = text := by
  cases text with
  | nil => rfl
  | cons c rest => exact List.dropWhile_cons_of_neg (h c rfl)

theorem trimEnd_eq_self {text : List Char} (h : ∀ c ∈ text.getLast?, ¬ isBlank c) :
    trimEnd text = text := by
  rw [trimEnd_eq_rdropWhile, List.rdropWhile_eq_self_iff]
  intro hne
  exact h _ (List.getLast?_eq_some_getLast hne)

theorem allBlank_takeWhile (text : List Char) : AllBlank (text.takeWhile isBlank) := by
  intro c hc
  exact List.mem_takeWhile_imp hc

theorem head?_trimStart (text : List Char) : ∀ c ∈ (trimStart text).head?, ¬ isBlank c := by
  intro c hc
  have h := List.head?_dropWhile_not isBlank text
  rw [trimStart] at hc
  rw [Option.mem_def.mp hc] at h
  simpa using h

theorem getLast?_trimEnd (text : List Char) : ∀ c ∈ (trimEnd text).getLast?, ¬ isBlank c := by
  intro c hc
  rw [trimEnd, List.getLast?_reverse] at hc
  exact head?_trimStart text.reverse c hc

/-- What `trimEnd` leaves is a front part of the text. -/
theorem trimEnd_append_rtakeWhile (text : List Char) :
    trimEnd text ++ text.rtakeWhile isBlank = text :=
  List.rdropWhile_append_rtakeWhile

theorem tight_trim (text : List Char) : Tight (trim text) := by
  refine ⟨?_, getLast?_trimEnd _⟩
  intro c hc
  have hc : (trimEnd (trimStart text)).head? = some c := hc
  apply head?_trimStart text c
  rw [← trimEnd_append_rtakeWhile (trimStart text), List.head?_append, hc]
  rfl

theorem surrounds_trim (text : List Char) : Surrounds text (trim text) := by
  refine ⟨text.takeWhile isBlank, (trimStart text).rtakeWhile isBlank, allBlank_takeWhile text,
    fun c hc => List.mem_rtakeWhile_imp hc, tight_trim text, ?_⟩
  rw [trim, List.append_assoc, trimEnd_append_rtakeWhile, trimStart,
    List.takeWhile_append_dropWhile]

theorem Surrounds.trim_eq {text core : List Char} (h : Surrounds text core) :
    trim text = core := by
  obtain ⟨before, after, hbefore, hafter, hcore, rfl⟩ := h
  rw [List.append_assoc, trim, trimStart_append_of_allBlank hbefore]
  cases core with
  | nil =>
      have hnil : trimStart after = [] := List.dropWhile_eq_nil_iff.mpr hafter
      rw [List.nil_append, hnil]
      rfl
  | cons c rest =>
      have hstart : trimStart (c :: rest ++ after) = c :: rest ++ after :=
        trimStart_eq_self hcore.start
      rw [hstart, trimEnd_append_of_allBlank hafter, trimEnd_eq_self hcore.stop]

/-- Trimming finds the only tight text inside. -/
theorem trim_eq_iff {text core : List Char} : trim text = core ↔ Surrounds text core := by
  refine ⟨?_, Surrounds.trim_eq⟩
  rintro rfl
  exact surrounds_trim text

theorem trim_of_tight {text : List Char} (h : Tight text) : trim text = text :=
  Surrounds.trim_eq ⟨[], [], by simp [AllBlank], by simp [AllBlank], h, by simp⟩

/-! ### Pieces between separators -/

/-- A text is `pieces` in a row, and `sep` stands only between neighbours. -/
structure Pieces (sep : Char) (text : List Char) (pieces : List (List Char)) : Prop where
  ne_nil : pieces ≠ []
  sep_not_mem : ∀ piece ∈ pieces, sep ∉ piece
  join_eq : join sep pieces = text

theorem split_eq_splitOn (sep : Char) (text : List Char) : split sep text = text.splitOn sep := by
  induction text with
  | nil => rfl
  | cons c rest ih => simp only [split, ih, List.splitOn_cons_eq_if_modifyHead, beq_iff_eq]

theorem join_eq_intercalate (sep : Char) (pieces : List (List Char)) :
    join sep pieces = [sep].intercalate pieces := by
  induction pieces with
  | nil => rfl
  | cons piece rest ih =>
      cases rest with
      | nil => simp [join]
      | cons next rest => simp [join, ih]

theorem sep_not_mem_of_mem_split {sep : Char} {text piece : List Char}
    (h : piece ∈ split sep text) : sep ∉ piece := by
  induction text generalizing piece with
  | nil =>
      rw [List.mem_singleton.mp h]
      exact List.not_mem_nil
  | cons c rest ih =>
      obtain ⟨first, others, hsplit⟩ := List.exists_cons_of_ne_nil (split_ne_nil sep rest)
      rw [hsplit] at ih
      rw [split, hsplit] at h
      by_cases hc : c = sep
      · rw [if_pos hc] at h
        rcases List.mem_cons.mp h with rfl | h
        · exact List.not_mem_nil
        · exact ih h
      · rw [if_neg hc, List.modifyHead_cons] at h
        rcases List.mem_cons.mp h with rfl | h
        · intro hmem
          rcases List.mem_cons.mp hmem with rfl | hmem
          · exact hc rfl
          · exact ih List.mem_cons_self hmem
        · exact ih (List.mem_cons_of_mem _ h)

/-- Cutting a text finds its only pieces. -/
theorem split_eq_iff {sep : Char} {text : List Char} {pieces : List (List Char)} :
    split sep text = pieces ↔ Pieces sep text pieces := by
  constructor
  · rintro rfl
    refine ⟨split_ne_nil sep text, fun piece => sep_not_mem_of_mem_split, ?_⟩
    rw [join_eq_intercalate, split_eq_splitOn, List.intercalate_splitOn]
  · intro h
    rw [← h.join_eq, join_eq_intercalate, split_eq_splitOn,
      List.splitOn_intercalate sep h.sep_not_mem h.ne_nil]

/-! ### Decimal notation -/

/-- A text is a word in decimal: one optional plus sign, then one or more digits. -/
def Numeral (text : List Char) (n : UInt32) : Prop :=
  ∃ digits, (text = digits ∨ text = '+' :: digits) ∧ digits ≠ [] ∧ (∀ c ∈ digits, c.isDigit) ∧
    Nat.ofDigitChars 10 digits 0 = n.toNat

theorem natOfDigits?_eq_some_iff {digits : List Char} {n : Nat} :
    natOfDigits? digits = some n ↔
      digits ≠ [] ∧ (∀ c ∈ digits, c.isDigit) ∧ Nat.ofDigitChars 10 digits 0 = n := by
  simp [natOfDigits?, and_assoc]

/-- The word that a number is, unless it is too large. -/
def wordOfNat? (n : Nat) : Option UInt32 :=
  if n < UInt32.size then some (UInt32.ofNat n) else none

theorem wordOfNat?_eq_some_iff {m : Nat} {n : UInt32} : wordOfNat? m = some n ↔ m = n.toNat := by
  unfold wordOfNat?
  constructor
  · intro h
    split at h
    · next hm => rw [← Option.some.inj h, UInt32.toNat_ofNat_of_lt' hm]
    · contradiction
  · rintro rfl
    rw [if_pos n.toNat_lt_size, UInt32.ofNat_toNat]

theorem wordOfDecimal?_plus (digits : List Char) :
    wordOfDecimal? ('+' :: digits) = (natOfDigits? digits).bind wordOfNat? :=
  rfl

theorem wordOfDecimal?_of_head?_ne {text : List Char} (h : text.head? ≠ some '+') :
    wordOfDecimal? text = (natOfDigits? text).bind wordOfNat? := by
  unfold wordOfDecimal?
  split
  · exact absurd rfl h
  · rfl

theorem bind_wordOfNat?_eq_some_iff {digits : List Char} {n : UInt32} :
    (natOfDigits? digits).bind wordOfNat? = some n ↔
      digits ≠ [] ∧ (∀ c ∈ digits, c.isDigit) ∧ Nat.ofDigitChars 10 digits 0 = n.toNat := by
  rw [Option.bind_eq_some_iff, ← natOfDigits?_eq_some_iff]
  constructor
  · rintro ⟨m, hm, hword⟩
    rw [hm, wordOfNat?_eq_some_iff.mp hword]
  · intro h
    exact ⟨n.toNat, h, wordOfNat?_eq_some_iff.mpr rfl⟩

theorem head?_ne_plus_of_isDigit {digits : List Char} (h : ∀ c ∈ digits, c.isDigit) :
    digits.head? ≠ some '+' := by
  intro hhead
  have hplus := h '+' (List.mem_of_head? hhead)
  exact absurd hplus (by decide)

/-- Reading a word accepts exactly the numerals. -/
theorem wordOfDecimal?_eq_some_iff {text : List Char} {n : UInt32} :
    wordOfDecimal? text = some n ↔ Numeral text n := by
  constructor
  · intro h
    by_cases hplus : text.head? = some '+'
    · obtain ⟨digits, rfl⟩ := List.head?_eq_some_iff.mp hplus
      rw [wordOfDecimal?_plus] at h
      exact ⟨digits, .inr rfl, bind_wordOfNat?_eq_some_iff.mp h⟩
    · rw [wordOfDecimal?_of_head?_ne hplus] at h
      exact ⟨text, .inl rfl, bind_wordOfNat?_eq_some_iff.mp h⟩
  · rintro ⟨digits, rfl | rfl, hword⟩
    · rw [wordOfDecimal?_of_head?_ne (head?_ne_plus_of_isDigit hword.2.1)]
      exact bind_wordOfNat?_eq_some_iff.mpr hword
    · rw [wordOfDecimal?_plus]
      exact bind_wordOfNat?_eq_some_iff.mpr hword

theorem isDigit_of_mem_decimal {n : Nat} {c : Char} (h : c ∈ decimal n) : c.isDigit :=
  Nat.isDigit_of_mem_toDigits (by decide) (by decide) h

theorem decimal_ne_nil (n : Nat) : decimal n ≠ [] :=
  Nat.toDigits_ne_nil

theorem exists_decimal_eq_cons (n : Nat) :
    ∃ first rest, decimal n = first :: rest ∧ first.isDigit := by
  obtain ⟨first, rest, h⟩ := List.exists_cons_of_ne_nil (decimal_ne_nil n)
  exact ⟨first, rest, h, isDigit_of_mem_decimal (h ▸ List.mem_cons_self)⟩

/-- Only zero is written with a zero in front. -/
theorem eq_zero_of_head?_decimal {n : Nat} (h : (decimal n).head? = some '0') : n = 0 := by
  induction n using Nat.strongRecOn with
  | ind n ih =>
      rw [decimal, Nat.toDigits_eq_if (by decide)] at h
      split at h
      · rename_i hsmall
        have hdigit : ∀ k : Fin 10, Nat.digitChar k = '0' → k.val = 0 := by decide
        exact hdigit ⟨n, hsmall⟩ (Option.some.inj h)
      · rename_i hlarge
        rw [List.head?_append_of_ne_nil _ Nat.toDigits_ne_nil] at h
        have hzero : n / 10 = 0 := ih (n / 10) (by omega) h
        omega

theorem numeral_decimal (n : UInt32) : Numeral (decimal n.toNat) n :=
  ⟨_, .inl rfl, Nat.toDigits_ne_nil, fun _ => isDigit_of_mem_decimal, Nat.ofDigitChars_ten_toDigits⟩

theorem decimal_injective : Function.Injective decimal :=
  Function.LeftInverse.injective (g := fun digits => Nat.ofDigitChars 10 digits 0)
    fun _ => Nat.ofDigitChars_ten_toDigits

theorem eq_of_decimal_eq {m n : UInt32} (h : decimal m.toNat = decimal n.toNat) : m = n :=
  UInt32.toNat_inj.mp (decimal_injective h)

end FabricConfig.Text

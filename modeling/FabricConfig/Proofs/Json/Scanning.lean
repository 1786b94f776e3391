import FabricConfig.Json.Printer
import FabricConfig.Json.Token
import FabricConfig.Proofs.Text

/-! The tokens of printed values. Whatever blanks a style puts between them, scanning a printed value
finds its tokens and nothing else, as long as its numbers are 64-bit integers and the text after it
cannot be taken for more of it. -/

namespace FabricConfig.Json

/-! ### Numbers that are written without loss -/

/-- A number that fits in 64 bits, with a sign or without. -/
inductive Number.Integral : Number → Prop where
  | int {value : Int} (hlow : -(UInt64.size / 2 : Nat) ≤ value) (hhigh : value < UInt64.size) :
      Number.Integral (.int value)

/-- A value in which all numbers are 64-bit integers. -/
inductive Integral : Json → Prop where
  | null : Integral .null
  | bool (value : Bool) : Integral (.bool value)
  | number {n : Number} (h : n.Integral) : Integral (.number n)
  | string (value : String) : Integral (.string value)
  | array {items : List Json} (h : ∀ item ∈ items, Integral item) : Integral (.array items)
  | object {members : List (String × Json)} (h : ∀ member ∈ members, Integral member.2) :
      Integral (.object members)

@[simp] theorem Number.integral_int_iff {value : Int} :
    (Number.int value).Integral ↔ -(UInt64.size / 2 : Nat) ≤ value ∧ value < UInt64.size :=
  ⟨fun ⟨hlow, hhigh⟩ => ⟨hlow, hhigh⟩, fun ⟨hlow, hhigh⟩ => .int hlow hhigh⟩

@[simp] theorem integral_number_iff {n : Number} : Integral (.number n) ↔ n.Integral :=
  ⟨fun | .number h => h, .number⟩

@[simp] theorem integral_array_iff {items : List Json} :
    Integral (.array items) ↔ ∀ item ∈ items, Integral item :=
  ⟨fun | .array h => h, .array⟩

@[simp] theorem integral_object_iff {members : List (String × Json)} :
    Integral (.object members) ↔ ∀ member ∈ members, Integral member.2 :=
  ⟨fun | .object h => h, .object⟩

attribute [simp] Integral.null Integral.bool Integral.string

theorem integral_of_mem_member? {α : Type} {toJson : α → Json} (h : ∀ a, (toJson a).Integral)
    {key : String} {value : Option α} : ∀ member ∈ member? key toJson value, member.2.Integral := by
  cases value with
  | none => exact fun member hmember => absurd hmember List.not_mem_nil
  | some a => exact List.forall_mem_singleton.mpr (h a)

/-! ### Strings -/

/-- A piece stands for a character, wherever in a string it is. -/
def Piece.Spells (piece : Piece) (c : Char) : Prop :=
  ∀ pieces, characters? (piece :: pieces) = (characters? pieces).map (c :: ·)

theorem Piece.spells_char (c : Char) : (Piece.char c).Spells c :=
  fun _ => rfl

/-- Control characters are no surrogates. -/
theorem Piece.spells_unit {c : Char} (h : c.toNat < 0x20) : (Piece.unit c.toNat).Spells c := by
  have hlead : isLeadingSurrogate c.toNat = false := by simp [isLeadingSurrogate]; omega
  have htrail : isTrailingSurrogate c.toNat = false := by simp [isTrailingSurrogate]; omega
  intro pieces
  rcases pieces with _ | ⟨_ | _, _⟩ <;> simp [characters?, hlead, htrail]

/-- A control character as two hexadecimal digits. -/
theorem codeUnit?_hexDigit {n : Nat} (h : n < 0x20) :
    codeUnit? '0' '0' (hexDigit (n / 16)) (hexDigit (n % 16)) = some n := by
  have hall : ∀ k : Fin 0x20,
      codeUnit? '0' '0' (hexDigit (k / 16)) (hexDigit (k % 16)) = some k.val := by decide
  exact hall ⟨n, h⟩

/-- One character of a string is scanned as one piece that stands for it. -/
theorem scanString_escaped (c : Char) (rest : List Char) :
    ∃ piece : Piece, piece.Spells c ∧
      scanString (escaped c ++ rest) = (piece :: (scanString rest).1, (scanString rest).2) := by
  unfold escaped
  split
  case h_8 =>
    split
    · rename_i hcontrol
      refine ⟨.unit c.toNat, Piece.spells_unit hcontrol, ?_⟩
      simp only [List.cons_append, List.nil_append, scanString, codeUnit?_hexDigit hcontrol]
    · rename_i hquote hbackslash _ _ _ _ _ hcontrol
      refine ⟨.char c, Piece.spells_char c, ?_⟩
      rw [List.singleton_append, scanString.eq_def]
      split <;> simp_all
  all_goals exact ⟨.char _, Piece.spells_char _, rfl⟩

/-- Scanning finds the end of a quoted text and nothing but its characters before it. -/
theorem scanString_flatMap_escaped (s rest : List Char) :
    ∃ pieces, characters? pieces = some s ∧
      scanString (s.flatMap escaped ++ '"' :: rest) = (pieces, .ok rest) := by
  induction s with
  | nil => exact ⟨[], rfl, rfl⟩
  | cons c s ih =>
      obtain ⟨pieces, hpieces, hscan⟩ := ih
      obtain ⟨piece, hpiece, hstep⟩ := scanString_escaped c (s.flatMap escaped ++ '"' :: rest)
      refine ⟨piece :: pieces, ?_, ?_⟩
      · rw [hpiece, hpieces]
        rfl
      · rw [List.flatMap_cons, List.append_assoc, hstep, hscan]

theorem scanToken_quote {text rest : List Char} {pieces : List Piece}
    (h : scanString text = (pieces, .ok rest)) :
    scanToken '"' text = .ok (.string ((characters? pieces).map String.ofList), rest) := by
  have hmark : mark? '"' = none := rfl
  unfold scanToken
  rw [hmark]
  dsimp only
  rw [if_pos rfl, h]

theorem tokens_quoted (s : String) (rest : List Char) :
    tokens (quoted s ++ rest) = .string (some s) :: tokens rest := by
  obtain ⟨pieces, hpieces, hscan⟩ := scanString_flatMap_escaped s.toList rest
  have htext : quoted s ++ rest = '"' :: (s.toList.flatMap escaped ++ '"' :: rest) := by
    simp [quoted]
  rw [htext, tokens_of_scanToken rfl (scanToken_quote hscan)]
  simp [hpieces]

/-! ### Numbers -/

/-- What may come after a value: the end of the text, a blank, or a mark that ends a value. -/
def Delimited (rest : List Char) : Prop :=
  ∀ c ∈ rest.head?, isBlank c ∨ c = ',' ∨ c = ']' ∨ c = '\x7d'

theorem delimited_nil : Delimited [] := by
  simp [Delimited]

theorem Delimited.head?_ne {rest : List Char} (h : Delimited rest) {c : Char}
    (hc : ¬ (isBlank c ∨ c = ',' ∨ c = ']' ∨ c = '\x7d')) : rest.head? ≠ some c :=
  fun hhead => hc (h c hhead)

theorem Delimited.not_isDigit {rest : List Char} (h : Delimited rest) :
    ∀ c ∈ rest.head?, c.isDigit = false := by
  intro c hc
  have hcases := h c hc
  simp only [isBlank, Bool.or_eq_true, beq_iff_eq] at hcases
  rcases hcases with (((rfl | rfl) | rfl) | rfl) | rfl | rfl | rfl <;> rfl

theorem scanDigits_append {digits rest : List Char} (hdigits : ∀ c ∈ digits, c.isDigit)
    (hrest : ∀ c ∈ rest.head?, c.isDigit = false) : scanDigits (digits ++ rest) = (digits, rest) := by
  have hstop : rest.takeWhile Char.isDigit = [] ∧ rest.dropWhile Char.isDigit = rest := by
    cases rest with
    | nil => exact ⟨rfl, rfl⟩
    | cons c rest => simp [hrest c rfl]
  rw [scanDigits, List.takeWhile_append_of_pos hdigits, List.dropWhile_append_of_pos hdigits,
    hstop.1, hstop.2, List.append_nil]

theorem scanSomeDigits_append {digits rest : List Char} (hne : digits ≠ [])
    (hdigits : ∀ c ∈ digits, c.isDigit) (hrest : ∀ c ∈ rest.head?, c.isDigit = false) :
    scanSomeDigits (digits ++ rest) = .ok (digits, rest) := by
  have hscan := scanDigits_append hdigits hrest
  cases digits with
  | nil => exact absurd rfl hne
  | cons c digits =>
      rw [List.cons_append] at hscan ⊢
      rw [scanSomeDigits, if_pos (hdigits c List.mem_cons_self), hscan]

theorem scanWhole_append {digits rest : List Char} (hne : digits ≠ [])
    (hdigits : ∀ c ∈ digits, c.isDigit) (hzero : digits.head? = some '0' → digits = ['0'])
    (hrest : ∀ c ∈ rest.head?, c.isDigit = false) :
    scanWhole (digits ++ rest) = .ok (digits, rest) := by
  unfold scanWhole
  split
  · rename_i c text htext
    have hhead : digits.head? = some '0' := by
      have := congrArg List.head? htext
      rwa [List.head?_append_of_ne_nil _ hne] at this
    rw [hzero hhead] at htext ⊢
    obtain ⟨-, rfl⟩ := List.cons.inj htext
    rw [if_neg (by simp [hrest c rfl])]
  · exact scanSomeDigits_append hne hdigits hrest

theorem scanWhole_decimal (n : Nat) {rest : List Char}
    (hrest : ∀ c ∈ rest.head?, c.isDigit = false) :
    scanWhole (Text.decimal n ++ rest) = .ok (Text.decimal n, rest) := by
  apply scanWhole_append (Text.decimal_ne_nil n) (fun c => Text.isDigit_of_mem_decimal) _ hrest
  intro hhead
  obtain rfl := Text.eq_zero_of_head?_decimal hhead
  rfl

theorem scanFraction_of_head {rest : List Char} (h : ∀ c ∈ rest.head?, c ≠ '.') :
    scanFraction rest = .ok (none, rest) := by
  unfold scanFraction
  split
  · exact absurd rfl (h '.' rfl)
  · rfl

theorem scanExponent_of_head {rest : List Char} (h : ∀ c ∈ rest.head?, c ≠ 'e' ∧ c ≠ 'E') :
    scanExponent rest = .ok (none, rest) := by
  cases rest with
  | nil => rfl
  | cons c rest =>
      obtain ⟨hlower, hupper⟩ := h c rfl
      simp [scanExponent, hlower, hupper]

theorem scanFraction_of_delimited {rest : List Char} (h : Delimited rest) :
    scanFraction rest = .ok (none, rest) := by
  apply scanFraction_of_head
  rintro c hc rfl
  exact h.head?_ne (by decide) hc

theorem scanExponent_of_delimited {rest : List Char} (h : Delimited rest) :
    scanExponent rest = .ok (none, rest) := by
  apply scanExponent_of_head
  intro c hc
  constructor <;> rintro rfl <;> exact h.head?_ne (by decide) hc

theorem scanNumeral_intLetters (value : Int) {rest : List Char} (h : Delimited rest) :
    scanNumeral (intLetters value ++ rest) =
      .ok (⟨decide (value < 0), Text.decimal value.natAbs, none, none⟩, rest) := by
  have hminus : minusSign (intLetters value ++ rest) =
      (decide (value < 0), Text.decimal value.natAbs ++ rest) := by
    cases value with
    | ofNat n =>
        unfold minusSign
        split
        · rename_i text htext
          have hhead : (Text.decimal n).head? = some '-' := by
            have := congrArg List.head? htext
            rwa [intLetters, List.head?_append_of_ne_nil _ (Text.decimal_ne_nil n)] at this
          exact absurd (Text.isDigit_of_mem_decimal (List.mem_of_head? hhead)) (by decide)
        · rfl
    | negSucc n => simp [intLetters, minusSign]
  rw [scanNumeral, hminus]
  simp only [scanWhole_decimal _ h.not_isDigit, scanFraction_of_delimited h,
    scanExponent_of_delimited h, ok_bind, pure_eq_ok]

/-- An integer that fits is read as an integer. -/
theorem value?_of_integral {value : Int} (h : (Number.int value).Integral) :
    Numeral.value? ⟨decide (value < 0), Text.decimal value.natAbs, none, none⟩ =
      some (.int value) := by
  obtain ⟨hlow, hhigh⟩ := h
  have hsize : Nat.ofDigitChars 10 (Text.decimal value.natAbs) 0 = value.natAbs :=
    Nat.ofDigitChars_ten_toDigits
  unfold Numeral.value? Numeral.int?
  simp only [hsize, Option.isSome_none, Bool.or_self, Bool.false_eq_true, if_false,
    decide_eq_true_eq]
  by_cases hneg : value < 0
  · rw [if_pos hneg, if_pos (by omega)]
    simp only [Option.some.injEq, Number.int.injEq]
    omega
  · rw [if_neg hneg, if_pos (by omega)]
    simp only [Option.some.injEq, Number.int.injEq]
    omega

theorem exists_intLetters_eq_cons (value : Int) :
    ∃ first rest, intLetters value = first :: rest ∧ (first = '-' ∨ first.isDigit) := by
  cases value with
  | ofNat n =>
      obtain ⟨first, rest, hdecimal, hfirst⟩ := Text.exists_decimal_eq_cons n
      exact ⟨first, rest, hdecimal, .inr hfirst⟩
  | negSucc n => exact ⟨'-', _, rfl, .inl rfl⟩

theorem scanToken_of_numeral {c : Char} {text rest : List Char} {numeral : Numeral}
    (hc : c = '-' ∨ c.isDigit) (h : scanNumeral (c :: text) = .ok (numeral, rest)) :
    scanToken c text = .ok (.number numeral.value?, rest) := by
  have hmark : mark? c = none := by
    unfold mark?
    split <;> simp_all
  have hquote : c ≠ '"' := by
    rintro rfl
    simp at hc
  unfold scanToken
  rw [hmark]
  dsimp only
  rw [if_neg hquote, if_pos hc, h]

theorem tokens_number {n : Number} (hn : n.Integral) {rest : List Char} (h : Delimited rest) :
    tokens (n.letters ++ rest) = .number (some n) :: tokens rest := by
  cases hn with
  | @int value hlow hhigh =>
      have hscan := scanNumeral_intLetters value h
      obtain ⟨first, text, hletters, hfirst⟩ := exists_intLetters_eq_cons value
      have hblank : isBlank first = false := by
        rcases hfirst with rfl | hdigit
        · rfl
        · simp [isBlank]
          refine ⟨⟨⟨?_, ?_⟩, ?_⟩, ?_⟩ <;> rintro rfl <;> simp at hdigit
      rw [Number.letters, hletters, List.cons_append]
      rw [hletters, List.cons_append] at hscan
      rw [tokens_of_scanToken hblank (scanToken_of_numeral hfirst hscan),
        value?_of_integral (.int hlow hhigh)]

/-! ### Blanks, marks and words -/

theorem tokens_blanks {blanks : List Char} (h : ∀ c ∈ blanks, isBlank c) (text : List Char) :
    tokens (blanks ++ text) = tokens text := by
  induction blanks with
  | nil => rfl
  | cons c blanks ih =>
      rw [List.cons_append, tokens_blank (h c List.mem_cons_self)]
      exact ih fun d hd => h d (List.mem_cons_of_mem c hd)

theorem scanToken_mark {c : Char} {token : Token} (h : mark? c = some token) (text : List Char) :
    scanToken c text = .ok (token, text) := by
  unfold scanToken
  rw [h]

theorem tokens_mark {c : Char} {token : Token} (h : mark? c = some token) (text : List Char) :
    tokens (c :: text) = token :: tokens text := by
  have hblank : isBlank c = false := by
    unfold mark? at h
    split at h <;> simp_all [isBlank]
  exact tokens_of_scanToken hblank (scanToken_mark h text)

theorem tokens_null (rest : List Char) : tokens ("null".toList ++ rest) = .null :: tokens rest :=
  tokens_of_scanToken rfl rfl

theorem tokens_true (rest : List Char) :
    tokens ("true".toList ++ rest) = .bool true :: tokens rest :=
  tokens_of_scanToken rfl rfl

theorem tokens_false (rest : List Char) :
    tokens ("false".toList ++ rest) = .bool false :: tokens rest :=
  tokens_of_scanToken rfl rfl

/-- A style that puts nothing but blanks between tokens. -/
structure Style.Blank (style : Style) : Prop where
  lineBreak : ∀ depth, ∀ c ∈ style.lineBreak depth, isBlank c
  afterColon : ∀ c ∈ style.afterColon, isBlank c

theorem Style.blank_compact : Style.compact.Blank :=
  ⟨by simp [compact], by simp [compact]⟩

theorem Style.blank_pretty : Style.pretty.Blank := by
  constructor
  · intro depth c hc
    rcases List.mem_cons.mp hc with rfl | hc
    · rfl
    · rw [List.eq_of_mem_replicate hc]
      rfl
  · intro c hc
    rw [List.mem_singleton.mp hc]
    rfl

/-! ### Values -/

mutual

/-- The tokens that a value is printed as. -/
def lexemes : Json → List Token
  | .null => [.null]
  | .bool b => [.bool b]
  | .number n => [.number (some n)]
  | .string s => [.string (some s)]
  | .array [] => [.openBracket, .closeBracket]
  | .array (item :: rest) => .openBracket :: (lexemes item ++ moreItemLexemes rest)
  | .object [] => [.openBrace, .closeBrace]
  | .object ((key, value) :: rest) =>
    .openBrace :: .string (some key) :: .colon :: (lexemes value ++ moreMemberLexemes rest)

/-- The tokens of the items of an array after the first one, and of its end. -/
def moreItemLexemes : List Json → List Token
  | [] => [.closeBracket]
  | item :: rest => .comma :: (lexemes item ++ moreItemLexemes rest)

/-- The tokens of the members of an object after the first one, and of its end. -/
def moreMemberLexemes : List (String × Json) → List Token
  | [] => [.closeBrace]
  | (key, value) :: rest =>
    .comma :: .string (some key) :: .colon :: (lexemes value ++ moreMemberLexemes rest)

end

/-- A value is found again when it is scanned with more text after it. -/
def Scans (style : Style) (value : Json) : Prop :=
  ∀ depth rest, Delimited rest →
    tokens (value.letters style depth ++ rest) = value.lexemes ++ tokens rest

section

variable {style : Style} (hstyle : style.Blank)
include hstyle

theorem delimited_lineBreak {c : Char} (hc : c = ',' ∨ c = ']' ∨ c = '\x7d') (depth : Nat)
    (rest : List Char) : Delimited (style.lineBreak depth ++ c :: rest) := by
  have hblank := hstyle.lineBreak depth
  cases hbreak : style.lineBreak depth with
  | nil =>
      intro d hd
      obtain rfl := Option.some.inj hd
      exact .inr hc
  | cons blank blanks =>
      rw [hbreak] at hblank
      intro d hd
      obtain rfl := Option.some.inj hd
      exact .inl (hblank blank List.mem_cons_self)

theorem delimited_moreItems (depth : Nat) (items : List Json) (rest : List Char) :
    Delimited (moreItems style depth items ++ rest) := by
  cases items with
  | nil =>
      rw [moreItems, List.append_assoc]
      exact delimited_lineBreak hstyle (by simp) depth rest
  | cons item items => simp [moreItems, Delimited]

theorem delimited_moreMembers (depth : Nat) (members : List (String × Json)) (rest : List Char) :
    Delimited (moreMembers style depth members ++ rest) := by
  cases members with
  | nil =>
      rw [moreMembers, List.append_assoc]
      exact delimited_lineBreak hstyle (by simp) depth rest
  | cons member members => simp [moreMembers, Delimited]

theorem tokens_member {value : Json} (h : Scans style value) (key : String) (depth : Nat)
    {rest : List Char} (hrest : Delimited rest) :
    tokens (style.lineBreak depth ++ (quoted key ++ ':' :: (style.afterColon ++
        (value.letters style depth ++ rest)))) =
      .string (some key) :: .colon :: (value.lexemes ++ tokens rest) := by
  rw [tokens_blanks (hstyle.lineBreak depth), tokens_quoted, tokens_mark rfl,
    tokens_blanks hstyle.afterColon, h depth rest hrest]

theorem tokens_moreItems {items : List Json} (h : ∀ item ∈ items, Scans style item) (depth : Nat)
    (rest : List Char) :
    tokens (moreItems style depth items ++ rest) = moreItemLexemes items ++ tokens rest := by
  induction items with
  | nil =>
      rw [moreItems, List.append_assoc, tokens_blanks (hstyle.lineBreak depth), List.singleton_append,
        tokens_mark rfl]
      rfl
  | cons item items ih =>
      have hitem := h item List.mem_cons_self
      have hitems := ih fun other hother => h other (List.mem_cons_of_mem item hother)
      simp only [moreItems, moreItemLexemes, List.cons_append, List.append_assoc]
      rw [tokens_mark rfl, tokens_blanks (hstyle.lineBreak _),
        hitem _ _ (delimited_moreItems hstyle depth items rest), hitems]

theorem tokens_moreMembers {members : List (String × Json)}
    (h : ∀ member ∈ members, Scans style member.2) (depth : Nat) (rest : List Char) :
    tokens (moreMembers style depth members ++ rest) = moreMemberLexemes members ++ tokens rest := by
  induction members with
  | nil =>
      rw [moreMembers, List.append_assoc, tokens_blanks (hstyle.lineBreak depth),
        List.singleton_append, tokens_mark rfl]
      rfl
  | cons member members ih =>
      obtain ⟨key, value⟩ := member
      have hvalue := h (key, value) List.mem_cons_self
      have hmembers := ih fun other hother => h other (List.mem_cons_of_mem _ hother)
      simp only [moreMembers, moreMemberLexemes, List.cons_append, List.append_assoc]
      rw [tokens_mark rfl, tokens_member hstyle hvalue key _ (delimited_moreMembers hstyle depth
        members rest), hmembers]

/-- Scanning a printed value finds its tokens, and goes on with the text after it. -/
theorem Integral.scans {value : Json} (h : value.Integral) : Scans style value := by
  induction h with
  | null => exact fun _ rest _ => tokens_null rest
  | bool b =>
      cases b with
      | true => exact fun _ rest _ => tokens_true rest
      | false => exact fun _ rest _ => tokens_false rest
  | number hn => exact fun _ rest hrest => tokens_number hn hrest
  | string s => exact fun _ rest _ => tokens_quoted s rest
  | @array items _ ih =>
      intro depth rest _
      cases items with
      | nil =>
          simp only [letters, lexemes, List.cons_append, List.nil_append]
          rw [tokens_mark rfl, tokens_mark rfl]
      | cons item items =>
          have hitem := ih item List.mem_cons_self
          have hitems := tokens_moreItems hstyle
            (fun other hother => ih other (List.mem_cons_of_mem item hother)) depth rest
          simp only [letters, lexemes, List.cons_append, List.append_assoc]
          rw [tokens_mark rfl, tokens_blanks (hstyle.lineBreak _),
            hitem _ _ (delimited_moreItems hstyle depth items rest), hitems]
  | @object members _ ih =>
      intro depth rest _
      cases members with
      | nil =>
          simp only [letters, lexemes, List.cons_append, List.nil_append]
          rw [tokens_mark rfl, tokens_mark rfl]
      | cons member members =>
          obtain ⟨key, value⟩ := member
          have hvalue := ih (key, value) List.mem_cons_self
          have hmembers := tokens_moreMembers hstyle
            (fun other hother => ih other (List.mem_cons_of_mem _ hother)) depth rest
          simp only [letters, lexemes, List.cons_append, List.append_assoc]
          rw [tokens_mark rfl, tokens_member hstyle hvalue key _ (delimited_moreMembers hstyle depth
            members rest), hmembers]

theorem tokens_letters {value : Json} (h : value.Integral) :
    tokens (value.letters style 0) = value.lexemes := by
  simpa using h.scans hstyle 0 [] delimited_nil

end

end FabricConfig.Json

import FabricConfig.Proofs.Json.Scanning

/-! Texts that are put together or taken apart. A token depends on its own characters and on the
first one after it, and there any blank or mark does. So the tokens of a text are those of its
parts, and a text can be cut wherever a mark stands among its tokens. -/

namespace FabricConfig.Json

/-! ### What may come after a token -/

/-- A text that cannot be taken for more of a token before it. -/
def Apart (rest : List Char) : Prop :=
  ∀ c ∈ rest.head?, isBlank c ∨ (mark? c).isSome

/-- A text that may stand after a token in place of another one. -/
def Replaces (rest' rest : List Char) : Prop :=
  Apart rest' ∨ rest'.head? = rest.head?

theorem apart_nil : Apart [] := by
  simp [Apart]

theorem apart_mark {c : Char} (h : (mark? c).isSome) (rest : List Char) : Apart (c :: rest) := by
  intro d hd
  obtain rfl := Option.some.inj hd
  exact .inr h

theorem Replaces.append {rest rest' : List Char} (h : Replaces rest' rest) (used : List Char) :
    Replaces (used ++ rest') (used ++ rest) := by
  cases used with
  | nil => exact h
  | cons c used => exact .inr rfl

/-- What is true of blanks, marks and the first character of a text is true of the first character
of any text in its place. -/
theorem Replaces.forall_head {p : Char → Prop}
    (hp : ∀ c, isBlank c ∨ (mark? c).isSome → p c) {rest rest' : List Char}
    (h : Replaces rest' rest) (hrest : ∀ c ∈ rest.head?, p c) : ∀ c ∈ rest'.head?, p c := by
  rcases h with hapart | hhead
  · exact fun c hc => hp c (hapart c hc)
  · rwa [hhead]

/-- The characters that blanks and marks are. -/
theorem eq_of_blank_or_mark {c : Char} (h : isBlank c ∨ (mark? c).isSome) :
    c ∈ [' ', '\t', '\n', '\r', '\x7b', '\x7d', '[', ']', ',', ':'] := by
  rcases h with h | h
  · simp only [isBlank, Bool.or_eq_true, beq_iff_eq] at h
    rcases h with ((rfl | rfl) | rfl) | rfl <;> decide
  · unfold mark? at h
    split at h <;> first | decide | contradiction

theorem not_isDigit_of_blank_or_mark {c : Char} (h : isBlank c ∨ (mark? c).isSome) :
    c.isDigit = false := by
  have hall : ∀ c ∈ [' ', '\t', '\n', '\r', '\x7b', '\x7d', '[', ']', ',', ':'],
      c.isDigit = false := by simp [Char.isDigit]
  exact hall c (eq_of_blank_or_mark h)

theorem ne_of_blank_or_mark {c d : Char} (h : isBlank c ∨ (mark? c).isSome)
    (hd : d ∉ [' ', '\t', '\n', '\r', '\x7b', '\x7d', '[', ']', ',', ':']) : c ≠ d := by
  rintro rfl
  exact hd (eq_of_blank_or_mark h)

/-! ### Parts of numbers -/

/-- A scanner takes `used` off a text that goes on with `rest`, or with anything in its place. -/
def Takes {α : Type} (scan : List Char → Except Cause (α × List Char)) (text : List Char) (a : α)
    (rest : List Char) : Prop :=
  ∃ used, text = used ++ rest ∧ ∀ rest', Replaces rest' rest → scan (used ++ rest') = .ok (a, rest')

/-- A scanner that took something sees the same first character whatever comes after that. -/
theorem head?_append_of_length_lt {used rest : List Char} (h : rest.length < (used ++ rest).length)
    (rest' : List Char) : (used ++ rest').head? = (used ++ rest).head? := by
  cases used with
  | nil => exact absurd h (Nat.lt_irrefl _)
  | cons c used => rfl

theorem of_scanSomeDigits {text digits rest : List Char}
    (h : scanSomeDigits text = .ok (digits, rest)) :
    text = digits ++ rest ∧ digits ≠ [] ∧ (∀ c ∈ digits, c.isDigit) ∧
      ∀ c ∈ rest.head?, c.isDigit = false := by
  cases text with
  | nil => contradiction
  | cons c text =>
      by_cases hdigit : c.isDigit
      · rw [scanSomeDigits, if_pos hdigit] at h
        obtain ⟨rfl, rfl⟩ := Prod.mk.inj (Except.ok.inj h)
        refine ⟨List.takeWhile_append_dropWhile.symm, by simp [hdigit],
          fun d hd => List.mem_takeWhile_imp hd, fun d hd => ?_⟩
        have hstop := List.head?_dropWhile_not Char.isDigit (c :: text)
        rw [Option.mem_def.mp hd] at hstop
        exact hstop
      · rw [scanSomeDigits, if_neg hdigit] at h
        contradiction

theorem Replaces.not_isDigit {rest rest' : List Char} (h : Replaces rest' rest)
    (hrest : ∀ c ∈ rest.head?, c.isDigit = false) : ∀ c ∈ rest'.head?, c.isDigit = false :=
  h.forall_head (fun _ => not_isDigit_of_blank_or_mark) hrest

theorem takes_scanSomeDigits {text digits rest : List Char}
    (h : scanSomeDigits text = .ok (digits, rest)) : Takes scanSomeDigits text digits rest := by
  obtain ⟨rfl, hne, hdigits, hstop⟩ := of_scanSomeDigits h
  exact ⟨digits, rfl, fun rest' hrest =>
    scanSomeDigits_append hne hdigits (hrest.not_isDigit hstop)⟩

theorem takes_scanWhole {text digits rest : List Char}
    (h : scanWhole text = .ok (digits, rest)) : Takes scanWhole text digits rest := by
  unfold scanWhole at h
  split at h
  · rename_i c text
    split at h
    · contradiction
    · rename_i hdigit
      obtain ⟨rfl, rfl⟩ := Prod.mk.inj (Except.ok.inj h)
      refine ⟨['0'], rfl, fun rest' hrest => ?_⟩
      apply scanWhole_append (List.cons_ne_nil _ _) (by simp) (fun _ => rfl)
      apply hrest.not_isDigit
      intro d hd
      obtain rfl := Option.some.inj hd
      exact Bool.eq_false_iff.mpr hdigit
  · rename_i hzero
    obtain ⟨rfl, hne, hdigits, hstop⟩ := of_scanSomeDigits h
    refine ⟨digits, rfl, fun rest' hrest => ?_⟩
    refine scanWhole_append hne hdigits (fun hhead => ?_) (hrest.not_isDigit hstop)
    -- A zero with more digits after it is what the first case refuses.
    obtain ⟨more, rfl⟩ := List.head?_eq_some_iff.mp hhead
    cases more with
    | nil => rfl
    | cons c more => exact absurd rfl (hzero c (more ++ rest))

theorem takes_scanFraction {text rest : List Char} {fraction : Option (List Char)}
    (h : scanFraction text = .ok (fraction, rest)) : Takes scanFraction text fraction rest := by
  unfold scanFraction at h
  split at h
  · obtain ⟨⟨digits, left⟩, hdigits, h⟩ := bind_eq_ok_iff.1 h
    obtain ⟨rfl, rfl⟩ := Prod.mk.inj (Except.ok.inj h)
    obtain ⟨used, rfl, hscan⟩ := takes_scanSomeDigits hdigits
    refine ⟨'.' :: used, rfl, fun rest' hrest => ?_⟩
    rw [List.cons_append, scanFraction, hscan rest' hrest]
    rfl
  · rename_i hpoint
    obtain ⟨rfl, rfl⟩ := Prod.mk.inj (Except.ok.inj h)
    refine ⟨[], rfl, fun rest' hrest => scanFraction_of_head ?_⟩
    refine hrest.forall_head (fun c hc => ne_of_blank_or_mark hc (by decide)) ?_
    rintro c hc rfl
    obtain ⟨text', rfl⟩ := List.head?_eq_some_iff.mp hc
    exact hpoint text' rfl

/-- Taking off the sign of an exponent depends on the first character alone. -/
theorem exists_exponentSign (text : List Char) :
    ∃ sign, text = sign ++ (exponentSign text).2 ∧
      ∀ other, other.head? = (exponentSign text).2.head? →
        exponentSign (sign ++ other) = ((exponentSign text).1, other) := by
  unfold exponentSign
  split
  · exact ⟨['+'], rfl, fun _ _ => rfl⟩
  · exact ⟨['-'], rfl, fun _ _ => rfl⟩
  · rename_i hplus hminus
    refine ⟨[], rfl, fun other hhead => ?_⟩
    rw [List.nil_append]
    split
    · obtain ⟨text', rfl⟩ := List.head?_eq_some_iff.mp hhead.symm
      exact absurd rfl (hplus text')
    · obtain ⟨text', rfl⟩ := List.head?_eq_some_iff.mp hhead.symm
      exact absurd rfl (hminus text')
    · rfl

theorem takes_scanExponent {text rest : List Char} {exponent : Option (Bool × List Char)}
    (h : scanExponent text = .ok (exponent, rest)) : Takes scanExponent text exponent rest := by
  have hother : ∀ c, isBlank c ∨ (mark? c).isSome → c ≠ 'e' ∧ c ≠ 'E' := fun c hc =>
    ⟨ne_of_blank_or_mark hc (by decide), ne_of_blank_or_mark hc (by decide)⟩
  unfold scanExponent at h
  split at h
  · obtain ⟨rfl, rfl⟩ := Prod.mk.inj (Except.ok.inj h)
    exact ⟨[], rfl, fun rest' hrest => scanExponent_of_head (hrest.forall_head hother (by simp))⟩
  · rename_i c text
    split at h
    · rename_i hc
      obtain ⟨⟨digits, left⟩, hdigits, h⟩ := bind_eq_ok_iff.1 h
      obtain ⟨rfl, rfl⟩ := Prod.mk.inj (Except.ok.inj h)
      have hshort := length_of_scanSomeDigits hdigits
      obtain ⟨sign, htext, hsign⟩ := exists_exponentSign text
      obtain ⟨used, hused, hscan⟩ := takes_scanSomeDigits hdigits
      refine ⟨c :: (sign ++ used), by simp [← hused, ← htext], fun rest' hrest => ?_⟩
      rw [hused] at hshort hsign
      rw [List.cons_append, List.append_assoc, scanExponent, if_pos hc,
        hsign _ (head?_append_of_length_lt hshort rest'), hscan rest' hrest]
      rfl
    · rename_i hc
      obtain ⟨rfl, rfl⟩ := Prod.mk.inj (Except.ok.inj h)
      refine ⟨[], rfl, fun rest' hrest => scanExponent_of_head (hrest.forall_head hother ?_)⟩
      intro d hd
      obtain rfl := Option.some.inj hd
      exact not_or.mp hc

/-- Taking off a minus sign depends on the first character alone. -/
theorem exists_minusSign (text : List Char) :
    ∃ sign, text = sign ++ (minusSign text).2 ∧
      ∀ other, other.head? = (minusSign text).2.head? →
        minusSign (sign ++ other) = ((minusSign text).1, other) := by
  unfold minusSign
  split
  · exact ⟨['-'], rfl, fun _ _ => rfl⟩
  · rename_i hminus
    refine ⟨[], rfl, fun other hhead => ?_⟩
    rw [List.nil_append]
    split
    · obtain ⟨text', rfl⟩ := List.head?_eq_some_iff.mp hhead.symm
      exact absurd rfl (hminus text')
    · rfl

theorem takes_scanNumeral {text rest : List Char} {numeral : Numeral}
    (h : scanNumeral text = .ok (numeral, rest)) : Takes scanNumeral text numeral rest := by
  obtain ⟨⟨whole, rest₁⟩, h₁, h⟩ := bind_eq_ok_iff.1 h
  obtain ⟨⟨fraction, rest₂⟩, h₂, h⟩ := bind_eq_ok_iff.1 h
  obtain ⟨⟨exponent, rest₃⟩, h₃, h⟩ := bind_eq_ok_iff.1 h
  obtain ⟨rfl, rfl⟩ := Prod.mk.inj (Except.ok.inj h)
  have hshort := length_of_scanWhole h₁
  obtain ⟨sign, htext, hsign⟩ := exists_minusSign text
  obtain ⟨used₁, hused₁, hscan₁⟩ := takes_scanWhole h₁
  obtain ⟨used₂, rfl, hscan₂⟩ := takes_scanFraction h₂
  obtain ⟨used₃, rfl, hscan₃⟩ := takes_scanExponent h₃
  refine ⟨sign ++ (used₁ ++ (used₂ ++ used₃)), ?_, fun rest' hrest => ?_⟩
  · simp only [List.append_assoc]
    rw [← hused₁, ← htext]
  · rw [hused₁] at hshort hsign
    simp only [List.append_assoc]
    rw [scanNumeral, hsign _ (head?_append_of_length_lt hshort _)]
    simp only [hscan₁ _ ((hrest.append used₃).append used₂), hscan₂ _ (hrest.append used₃),
      hscan₃ _ hrest, ok_bind, pure_eq_ok]

/-! ### Strings, words and tokens -/

/-- Characters that are one piece of a string, whatever comes after them. -/
def ScansPiece (lead : List Char) (piece : Piece) : Prop :=
  ∀ text, scanString (lead ++ text) = (piece :: (scanString text).1, (scanString text).2)

theorem scansPiece_codeUnit {a b c d : Char} {n : Nat} (h : codeUnit? a b c d = some n) :
    ScansPiece ['\\', 'u', a, b, c, d] (.unit n) := by
  intro text
  simp only [List.cons_append, List.nil_append, scanString, h]

theorem scansPiece_shortEscape {c d : Char} (hc : c ≠ 'u') (h : shortEscape? c = some d) :
    ScansPiece ['\\', c] (.char d) := by
  intro text
  rw [List.cons_append, List.cons_append, List.nil_append, scanString.eq_def]
  split
  all_goals simp_all
  grind

theorem scansPiece_char {c : Char} (hquote : c ≠ '"') (hbackslash : c ≠ '\\')
    (hcontrol : ¬ c.toNat < 0x20) : ScansPiece [c] (.char c) := by
  intro text
  rw [List.cons_append, List.nil_append, scanString.eq_def]
  split <;> simp_all

/-- The rest of a string is found the same way after one more piece. -/
theorem ScansPiece.exists_cons {lead text rest : List Char} {piece : Piece} {pieces : List Piece}
    (hlead : ScansPiece lead piece)
    (h : ∃ used, text = used ++ rest ∧ ∀ rest', scanString (used ++ rest') = (pieces, .ok rest')) :
    ∃ used, lead ++ text = used ++ rest ∧
      ∀ rest', scanString (used ++ rest') = (piece :: pieces, .ok rest') := by
  obtain ⟨used, rfl, hscan⟩ := h
  refine ⟨lead ++ used, (List.append_assoc lead used rest).symm, fun rest' => ?_⟩
  rw [List.append_assoc, hlead, hscan]

theorem exists_of_scanString {text rest : List Char} {pieces : List Piece}
    (h : scanString text = (pieces, .ok rest)) :
    ∃ used, text = used ++ rest ∧ ∀ rest', scanString (used ++ rest') = (pieces, .ok rest') := by
  fun_induction scanString text generalizing pieces with
  | case1 | case3 | case5 | case6 | case8 | case9 => simp at h
  | case2 text =>
      obtain ⟨rfl, rfl⟩ : pieces = [] ∧ text = rest := by simpa [eq_comm] using h
      exact ⟨['"'], rfl, fun _ => rfl⟩
  | case4 a b c d text n hunit pieces' result hscan ih =>
      obtain ⟨rfl, rfl⟩ := Prod.mk.inj h
      exact (scansPiece_codeUnit hunit).exists_cons (ih hscan)
  | case7 c text _ hc d hescape pieces' result hscan ih =>
      obtain ⟨rfl, rfl⟩ := Prod.mk.inj h
      exact (scansPiece_shortEscape hc hescape).exists_cons (ih hscan)
  | case10 c text hquote hend _ _ hescape hcontrol pieces' result hscan ih =>
      obtain ⟨rfl, rfl⟩ := Prod.mk.inj h
      have hbackslash : c ≠ '\\' := by
        rintro rfl
        cases text with
        | nil => exact hend rfl rfl
        | cons d text => exact hescape d text rfl rfl
      exact (scansPiece_char hquote hbackslash hcontrol).exists_cons (ih hscan)

theorem eq_append_of_scanWord {expected text rest : List Char}
    (h : scanWord expected text = .ok rest) : text = expected ++ rest := by
  induction expected generalizing text with
  | nil => exact Except.ok.inj h
  | cons e more ih =>
      cases text with
      | nil => contradiction
      | cons c text =>
          rw [scanWord] at h
          split at h
          · rename_i hc
            rw [hc, ih h, List.cons_append]
          · contradiction

theorem scanWord_append (expected rest : List Char) :
    scanWord expected (expected ++ rest) = .ok rest := by
  induction expected with
  | nil => rfl
  | cons e more ih => rw [List.cons_append, scanWord, if_pos rfl, ih]

theorem of_wordToken {lead : Lead} {letters : String} {word token : Token} {text rest : List Char}
    (h : wordToken lead letters word text = .ok (token, rest)) :
    token = word ∧ text = letters.toList ++ rest := by
  unfold wordToken at h
  split at h
  · rename_i hscan
    obtain ⟨rfl, rfl⟩ := Prod.mk.inj (Except.ok.inj h)
    exact ⟨rfl, eq_append_of_scanWord hscan⟩
  · contradiction

theorem wordToken_append (lead : Lead) (letters : String) (word : Token) (rest : List Char) :
    wordToken lead letters word (letters.toList ++ rest) = .ok (word, rest) := by
  rw [wordToken, scanWord_append]

/-- What a token is, by its first character. -/
theorem scanToken_cases {c : Char} {text rest : List Char} {token : Token}
    (h : scanToken c text = .ok (token, rest)) :
    (mark? c = some token ∧ text = rest) ∨
    (c = '"' ∧ ∃ pieces, scanString text = (pieces, .ok rest) ∧
      token = .string ((characters? pieces).map String.ofList)) ∨
    ((c = '-' ∨ c.isDigit) ∧ ∃ numeral, scanNumeral (c :: text) = .ok (numeral, rest) ∧
      token = .number numeral.value?) ∨
    ∃ lead letters word, (word = .null ∨ ∃ b, word = .bool b) ∧
      ∀ other, scanToken c other = wordToken lead letters word other := by
  unfold scanToken at h
  split at h
  · rename_i hmark
    obtain ⟨rfl, rfl⟩ := Prod.mk.inj (Except.ok.inj h)
    exact .inl ⟨hmark, rfl⟩
  · split at h
    · rename_i hquote
      split at h
      · rename_i pieces left hscan
        obtain ⟨rfl, rfl⟩ := Prod.mk.inj (Except.ok.inj h)
        exact .inr (.inl ⟨hquote, pieces, hscan, rfl⟩)
      · contradiction
    · split at h
      · rename_i hnumber
        split at h
        · rename_i numeral left hscan
          obtain ⟨rfl, rfl⟩ := Prod.mk.inj (Except.ok.inj h)
          exact .inr (.inr (.inl ⟨hnumber, numeral, hscan, rfl⟩))
        · contradiction
      · split at h
        · exact .inr (.inr (.inr ⟨.null, "ull", .null, .inl rfl, fun _ => rfl⟩))
        · exact .inr (.inr (.inr ⟨.scalar, "rue", .bool true, .inr ⟨true, rfl⟩, fun _ => rfl⟩))
        · exact .inr (.inr (.inr ⟨.scalar, "alse", .bool false, .inr ⟨false, rfl⟩, fun _ => rfl⟩))
        · contradiction

/-- A token depends on its own characters and the first one after it. -/
theorem exists_of_scanToken {c : Char} {text rest : List Char} {token : Token}
    (h : scanToken c text = .ok (token, rest)) :
    ∃ used, text = used ++ rest ∧
      ∀ rest', Replaces rest' rest → scanToken c (used ++ rest') = .ok (token, rest') := by
  rcases scanToken_cases h with ⟨hmark, rfl⟩ | ⟨rfl, pieces, hscan, rfl⟩ |
    ⟨hnumber, numeral, hscan, rfl⟩ | ⟨lead, letters, word, _, hword⟩
  · exact ⟨[], rfl, fun rest' _ => scanToken_mark hmark rest'⟩
  · obtain ⟨used, rfl, hused⟩ := exists_of_scanString hscan
    exact ⟨used, rfl, fun rest' _ => scanToken_quote (hused rest')⟩
  · have hshort := length_of_scanNumeral hscan
    obtain ⟨used, htext, hused⟩ := takes_scanNumeral hscan
    cases used with
    | nil => simp [htext] at hshort
    | cons d used =>
        obtain ⟨rfl, rfl⟩ := List.cons.inj htext
        exact ⟨used, rfl, fun rest' hrest => scanToken_of_numeral hnumber (hused rest' hrest)⟩
  · rw [hword] at h
    obtain ⟨rfl, rfl⟩ := of_wordToken h
    exact ⟨_, rfl, fun rest' _ => (hword _).trans (wordToken_append _ _ _ rest')⟩

/-! ### Texts -/

theorem eq_of_mark?_eq {c d : Char} {token : Token} (hc : mark? c = some token)
    (hd : mark? d = some token) : c = d := by
  unfold mark? at hc
  split at hc
  case h_7 => contradiction
  all_goals
    cases hc
    unfold mark? at hd
    split at hd <;> simp_all

theorem mem_of_mark?_eq {c : Char} {token : Token} (h : mark? c = some token) :
    token ∈ [.openBrace, .closeBrace, .openBracket, .closeBracket, .comma, .colon] := by
  unfold mark? at h
  split at h <;> cases h <;> simp

/-- A mark among the tokens comes from its own character. -/
theorem eq_of_scanToken_mark {c d : Char} {text rest : List Char} {token : Token}
    (hmark : mark? d = some token) (h : scanToken c text = .ok (token, rest)) :
    c = d ∧ text = rest := by
  have hmem := mem_of_mark?_eq hmark
  rcases scanToken_cases h with ⟨hc, rfl⟩ | ⟨-, pieces, -, rfl⟩ | ⟨-, numeral, -, rfl⟩ |
    ⟨lead, letters, word, hword, hscan⟩
  · exact ⟨eq_of_mark?_eq hc hmark, rfl⟩
  · simp at hmem
  · simp at hmem
  · rw [hscan] at h
    obtain ⟨rfl, -⟩ := of_wordToken h
    rcases hword with rfl | ⟨b, rfl⟩ <;> simp at hmem

theorem replaces_append {rest : List Char} (h : Apart rest) (left : List Char) :
    Replaces (left ++ rest) left := by
  cases left with
  | nil => exact .inl h
  | cons c left => exact .inr rfl

theorem replaces_of_append (left rest : List Char) : Replaces left (left ++ rest) := by
  cases left with
  | nil => exact .inl apart_nil
  | cons c left => exact .inr rfl

/-- The tokens of a text are those of its parts, if the second one starts apart from the first. -/
theorem tokens_append {text rest : List Char} (htext : ∀ fault, Token.fault fault ∉ tokens text)
    (hrest : Apart rest) : tokens (text ++ rest) = tokens text ++ tokens rest := by
  fun_induction tokens text with
  | case1 => rfl
  | case2 c text hblank ih => rw [List.cons_append, tokens_blank hblank, ih htext]
  | case3 c text hblank token left hscan ih =>
      obtain ⟨used, rfl, hused⟩ := exists_of_scanToken hscan
      rw [List.cons_append, List.append_assoc, tokens_of_scanToken (Bool.eq_false_iff.mpr hblank)
        (hused _ (replaces_append hrest left)), ih fun fault hfault =>
          htext fault (List.mem_cons_of_mem token hfault), List.cons_append]
  | case4 c text hblank fault hscan => exact absurd List.mem_cons_self (htext fault)

theorem blank_of_tokens_eq_nil {text : List Char} (h : tokens text = []) :
    ∀ c ∈ text, isBlank c := by
  fun_induction tokens text with
  | case1 => exact fun c hc => absurd hc List.not_mem_nil
  | case2 c text hblank ih => exact List.forall_mem_cons.mpr ⟨hblank, ih h⟩
  | case3 | case4 => contradiction

/-- A text can be cut wherever a mark stands among its tokens. -/
theorem exists_of_tokens_mark {c : Char} {token : Token} (hmark : mark? c = some token)
    {text : List Char} {before after : List Token}
    (h : tokens text = before ++ token :: after) :
    ∃ first second,
      text = first ++ c :: second ∧ tokens first = before ∧ tokens second = after := by
  fun_induction tokens text generalizing before with
  | case1 => simp at h
  | case2 d text hblank ih =>
      obtain ⟨first, second, rfl, hfirst, hsecond⟩ := ih h
      exact ⟨d :: first, second, rfl, (tokens_blank hblank).trans hfirst, hsecond⟩
  | case3 d text hblank other left hscan ih =>
      cases before with
      | nil =>
          obtain ⟨rfl, hafter⟩ := List.cons.inj h
          obtain ⟨rfl, rfl⟩ := eq_of_scanToken_mark hmark hscan
          exact ⟨[], text, rfl, tokens_nil, hafter⟩
      | cons head before =>
          obtain ⟨rfl, hbefore⟩ := List.cons.inj h
          obtain ⟨used, rfl, hused⟩ := exists_of_scanToken hscan
          obtain ⟨first, second, rfl, hfirst, hsecond⟩ := ih hbefore
          refine ⟨d :: (used ++ first), second, by simp, ?_, hsecond⟩
          rw [tokens_of_scanToken (Bool.eq_false_iff.mpr hblank)
            (hused first (replaces_of_append first (c :: second))), hfirst]
  | case4 d text hblank fault hscan =>
      have hfault : token = .fault fault := by cases before <;> simp_all
      have hmem := mem_of_mark?_eq hmark
      simp [hfault] at hmem

end FabricConfig.Json

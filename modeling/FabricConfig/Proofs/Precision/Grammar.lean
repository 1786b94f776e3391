import FabricConfig.Catalog
import FabricConfig.Outcome
import FabricConfig.Proofs.Named
import FabricConfig.Proofs.Text
import Mathlib.Data.List.Forall2

/-! The grammar of precision specs, written as relations that do not mention the reader. The reader
accepts exactly the texts of the grammar and refuses every other text. -/

namespace FabricConfig

open Text

namespace Precision

/-! ### The grammar -/

/-- The word for a family of types. -/
def Family.keyword : Family → List Char
  | .fixed => "fixed".toList
  | .integer => "int".toList

/-- The word for a way of rounding. -/
def roundingWord : Rounding → List Char
  | .truncate => "TRN".toList
  | .truncateToZero => "TRN_ZERO".toList
  | .nearest => "RND".toList
  | .nearestToZero => "RND_ZERO".toList
  | .nearestToInfinity => "RND_INF".toList
  | .nearestToMinusInfinity => "RND_MIN_INF".toList
  | .nearestToEven => "RND_CONV".toList

/-- The word for what happens on overflow. -/
def overflowWord : Overflow → List Char
  | .wrap => "WRAP".toList
  | .saturate => "SAT".toList
  | .saturateToZero => "SAT_ZERO".toList
  | .saturateSymmetric => "SAT_SYM".toList

/-- A text with parameters: an optional `ap_`, a `u` if the type is unsigned, the family, white
space, and a body in angle brackets without further brackets inside. -/
def Bracketed (text : List Char) (signed : Bool) (family : Family) (body : List Char) : Prop :=
  ∃ start blanks, (start = [] ∨ start = "ap_".toList) ∧ AllBlank blanks ∧
    '<' ∉ body ∧ '>' ∉ body ∧
    text = start ++ ((if signed then [] else ['u']) ++ (family.keyword ++
      (blanks ++ ('<' :: body ++ ['>']))))

/-- The modes of a fixed-point type. Those that are not written have their default. -/
inductive Modes : List (List Char) → Rounding → Overflow → UInt32 → Prop where
  | none : Modes [] .truncate .wrap 0
  | rounding (q : Rounding) : Modes [roundingWord q] q .wrap 0
  | overflow (q : Rounding) (o : Overflow) : Modes [roundingWord q, overflowWord o] q o 0
  | bits (q : Rounding) (o : Overflow) {text : List Char} {n : UInt32} (hn : Numeral text n) :
      Modes [roundingWord q, overflowWord o, text] q o n

/-- The parameters of a type, in order and without white space around them. -/
inductive Parameters (signed : Bool) : Family → List (List Char) → FixedType → Prop where
  | integer {w : List Char} {width : UInt32} (hw : Numeral w width) (hpos : 0 < width)
      (hmax : width ≤ 32768) :
      Parameters signed .integer [w] ⟨width, width, signed, .truncate, .wrap, 0⟩
  | fixed {w i : List Char} {width integerBits : UInt32} {modes : List (List Char)} {q : Rounding}
      {o : Overflow} {n : UInt32} (hw : Numeral w width) (hpos : 0 < width)
      (hmax : width ≤ 32768) (hi : Numeral i integerBits) (hle : integerBits ≤ width)
      (hmodes : Modes modes q o n) :
      Parameters signed .fixed (w :: i :: modes) ⟨width, integerBits, signed, q, o, n⟩

/-- A text without white space around it that asks for a precision. -/
inductive Denotes : List Char → Precision → Prop where
  | float : Denotes "float".toList (.floating .float)
  | double : Denotes "double".toList (.floating .double)
  | fixed {text body : List Char} {signed : Bool} {family : Family}
      {pieces params : List (List Char)} {type : FixedType}
      (htext : Bracketed text signed family body) (hbody : Pieces ',' body pieces)
      (hpieces : List.Forall₂ Surrounds pieces params)
      (hparams : Parameters signed family params type) : Denotes text (.fixed type)

/-- A spec that asks for a precision. -/
def AsksFor (spec : String) (p : Precision) : Prop :=
  ∃ core, Surrounds spec.toList core ∧ Denotes core p

/-! ### Texts with brackets -/

namespace Form

theorem optionally_append (start text : List Char) :
    optionally start (start ++ text) = (true, text) := by
  have h : start.isPrefixOf? (start ++ text) = some text :=
    List.isPrefixOf?_eq_some_iff_append_eq.mpr rfl
  rw [optionally, h]

theorem optionally_of_head?_ne {c : Char} {text : List Char} (h : text.head? ≠ some c)
    (start : List Char) : optionally (c :: start) text = (false, text) := by
  have hnone : (c :: start).isPrefixOf? text = none := by
    rw [Option.eq_none_iff_forall_ne_some]
    intro rest hrest
    rw [← List.isPrefixOf?_eq_some_iff_append_eq.mp hrest] at h
    exact h rfl
  rw [optionally, hnone]

theorem eq_of_optionally {start text rest : List Char} {found : Bool}
    (h : optionally start text = (found, rest)) :
    text = (if found then start else []) ++ rest := by
  unfold optionally at h
  split at h
  · rename_i hhead
    obtain ⟨rfl, rfl⟩ := Prod.mk.inj h
    exact (List.isPrefixOf?_eq_some_iff_append_eq.mp hhead).symm
  · obtain ⟨rfl, rfl⟩ := Prod.mk.inj h
    rfl

theorem family?_eq_some_iff {text rest : List Char} {family : Family} :
    family? text = some (family, rest) ↔ text = family.keyword ++ rest := by
  constructor
  · intro h
    unfold family? at h
    split at h
    · rename_i hhead
      obtain ⟨rfl, rfl⟩ := Prod.mk.inj (Option.some.inj h)
      exact (List.isPrefixOf?_eq_some_iff_append_eq.mp hhead).symm
    · obtain ⟨tail, hhead, heq⟩ := Option.map_eq_some_iff.mp h
      obtain ⟨rfl, rfl⟩ := Prod.mk.inj heq
      exact (List.isPrefixOf?_eq_some_iff_append_eq.mp hhead).symm
  · rintro rfl
    cases family with
    | fixed => rfl
    | integer => rfl

theorem body?_eq_some_iff {text body : List Char} :
    body? text = some body ↔ text = '<' :: body ++ ['>'] ∧ '<' ∉ body ∧ '>' ∉ body := by
  constructor
  · intro h
    unfold body? at h
    split at h
    · rename_i rest
      dsimp only at h
      split at h
      · rename_i hrest
        have hbody := Option.some.inj h
        have hsplit := List.takeWhile_append_dropWhile (p := fun c => c != '<' && c != '>')
          (l := rest)
        rw [hrest, hbody] at hsplit
        have hinner : ∀ c ∈ body, c ≠ '<' ∧ c ≠ '>' := by
          intro c hc
          rw [← hbody] at hc
          simpa using List.mem_takeWhile_imp hc
        refine ⟨?_, fun h => (hinner _ h).1 rfl, fun h => (hinner _ h).2 rfl⟩
        rw [← hsplit]
        rfl
      · contradiction
    · contradiction
  · rintro ⟨rfl, hopen, hclose⟩
    have hinner : ∀ c ∈ body, (c != '<' && c != '>') = true := by
      intro c hc
      have hne : c ≠ '<' ∧ c ≠ '>' := ⟨fun h => hopen (h ▸ hc), fun h => hclose (h ▸ hc)⟩
      simpa using hne
    rw [List.cons_append, body?, List.dropWhile_append_of_pos hinner,
      List.takeWhile_append_of_pos hinner]
    simp

theorem body?_trimStart_eq_some_iff {text body : List Char} :
    body? (trimStart text) = some body ↔
      ∃ blanks, AllBlank blanks ∧ '<' ∉ body ∧ '>' ∉ body ∧
        text = blanks ++ ('<' :: body ++ ['>']) := by
  rw [body?_eq_some_iff]
  constructor
  · rintro ⟨htrim, hopen, hclose⟩
    refine ⟨text.takeWhile isBlank, allBlank_takeWhile text, hopen, hclose, ?_⟩
    rw [← htrim, trimStart, List.takeWhile_append_dropWhile]
  · rintro ⟨blanks, hblanks, hopen, hclose, rfl⟩
    refine ⟨?_, hopen, hclose⟩
    rw [trimStart_append_of_allBlank hblanks]
    exact List.dropWhile_cons_of_neg (by decide)

theorem bracketed_of_ofText? {text : List Char} {form : Form} (h : ofText? text = some form) :
    ∃ body, Bracketed text form.signed form.family body ∧
      form.params = (split ',' body).map trim := by
  unfold ofText? at h
  rcases hstart : optionally "ap_".toList text with ⟨hasStart, unprefixed⟩
  rcases hsign : optionally ['u'] unprefixed with ⟨unsigned, named⟩
  simp only [hstart, hsign] at h
  obtain ⟨⟨family, bracketed⟩, hfamily, h⟩ := Option.bind_eq_some_iff.mp h
  obtain ⟨body, hbody, h⟩ := Option.bind_eq_some_iff.mp h
  obtain ⟨blanks, hblanks, hopen, hclose, rfl⟩ := body?_trimStart_eq_some_iff.mp hbody
  obtain rfl := Option.some.inj h
  refine ⟨body, ⟨if hasStart then "ap_".toList else [], blanks, ?_, hblanks, hopen, hclose, ?_⟩, rfl⟩
  · cases hasStart
    · exact .inl rfl
    · exact .inr rfl
  · rw [eq_of_optionally hstart, eq_of_optionally hsign, family?_eq_some_iff.mp hfamily]
    cases unsigned <;> rfl

/-- After an optional start, a sign and a keyword, no other reading is possible. -/
theorem ofText?_of_bracketed {text body : List Char} {signed : Bool} {family : Family}
    (h : Bracketed text signed family body) :
    ofText? text = some ⟨signed, family, (split ',' body).map trim⟩ := by
  obtain ⟨start, blanks, hstart, hblanks, hopen, hclose, rfl⟩ := h
  have hfamily := family?_eq_some_iff.mpr
    (rfl : family.keyword ++ (blanks ++ ('<' :: body ++ ['>'])) = _)
  have hbody : body? (trimStart (blanks ++ ('<' :: body ++ ['>']))) = some body :=
    body?_trimStart_eq_some_iff.mpr ⟨blanks, hblanks, hopen, hclose, rfl⟩
  generalize blanks ++ ('<' :: body ++ ['>']) = bracketed at hfamily hbody
  have hsign : optionally ['u'] ((if signed then [] else ['u']) ++ (family.keyword ++ bracketed)) =
      (!signed, family.keyword ++ bracketed) := by
    cases signed with
    | false => exact optionally_append ['u'] _
    | true =>
        apply optionally_of_head?_ne
        cases family <;> simp [Family.keyword]
  have hhead : (optionally "ap_".toList (start ++
      ((if signed then [] else ['u']) ++ (family.keyword ++ bracketed)))).2 =
      (if signed then [] else ['u']) ++ (family.keyword ++ bracketed) := by
    rcases hstart with rfl | rfl
    · rw [List.nil_append]
      have hne : ((if signed then [] else ['u']) ++ (family.keyword ++ bracketed)).head? ≠ some 'a' := by
        cases signed <;> cases family <;> simp [Family.keyword]
      exact congrArg Prod.snd (optionally_of_head?_ne hne ['p', '_'])
    · rw [optionally_append]
  unfold ofText?
  simp only [hhead, hsign]
  rw [hfamily]
  simp only [Option.bind_eq_bind, Option.bind_some, hbody, Bool.not_not]
  rfl

theorem ofText?_eq_some_iff {text : List Char} {form : Form} :
    ofText? text = some form ↔
      ∃ body, Bracketed text form.signed form.family body ∧
        form.params = (split ',' body).map trim := by
  refine ⟨bracketed_of_ofText?, ?_⟩
  rintro ⟨body, hbracketed, hparams⟩
  rw [ofText?_of_bracketed hbracketed, ← hparams]

end Form

/-! ### Parameters -/

theorem bitCount_eq_ok_iff {what : BitCount} {text : List Char} {n : UInt32} :
    bitCount what text = .ok n ↔ Numeral text n := by
  rw [← wordOfDecimal?_eq_some_iff, bitCount]
  cases wordOfDecimal? text <;> simp

theorem toList_name_rounding (q : Rounding) : (Named.name q).toList = roundingWord q := by
  cases q <;> rfl

theorem toList_name_overflow (o : Overflow) : (Named.name o).toList = overflowWord o := by
  cases o <;> rfl

theorem roundingMode_eq_ok_iff {text : List Char} {q : Rounding} :
    roundingMode text = .ok q ↔ text = roundingWord q := by
  rw [← toList_name_rounding, ← Named.ofName?_ofList_eq_some_iff, roundingMode]
  cases (Named.ofName? (String.ofList text) : Option Rounding) <;> simp

theorem overflowMode_eq_ok_iff {text : List Char} {o : Overflow} :
    overflowMode text = .ok o ↔ text = overflowWord o := by
  rw [← toList_name_overflow, ← Named.ofName?_ofList_eq_some_iff, overflowMode]
  cases (Named.ofName? (String.ofList text) : Option Overflow) <;> simp

@[simp] theorem roundingMode_word (q : Rounding) : roundingMode (roundingWord q) = .ok q :=
  roundingMode_eq_ok_iff.mpr rfl

@[simp] theorem overflowMode_word (o : Overflow) : overflowMode (overflowWord o) = .ok o :=
  overflowMode_eq_ok_iff.mpr rfl

theorem typeWidth_of_numeral {text : List Char} {width : UInt32} (h : Numeral text width) :
    typeWidth text =
      if width = 0 then .error .zeroWidth
      else if FixedType.maxWidth < width then .error .tooWide
      else .ok width := by
  rw [typeWidth, bitCount_eq_ok_iff.mpr h]
  simp only [ok_bind, throw_eq_error, error_bind, pure_eq_ok]

theorem typeWidth_eq_ok_iff {text : List Char} {width : UInt32} :
    typeWidth text = .ok width ↔ Numeral text width ∧ 0 < width ∧ width ≤ 32768 := by
  constructor
  · intro h
    obtain ⟨n, hn, -⟩ := bind_eq_ok_iff.mp h
    have hnumeral := bitCount_eq_ok_iff.mp hn
    rw [typeWidth_of_numeral hnumeral] at h
    split at h
    · contradiction
    · rename_i hzero
      split at h
      · contradiction
      · rename_i hwide
        obtain rfl := Except.ok.inj h
        exact ⟨hnumeral, UInt32.pos_iff_ne_zero.mpr hzero, UInt32.not_lt.mp hwide⟩
  · rintro ⟨hnumeral, hpos, hmax⟩
    have hwide : ¬ FixedType.maxWidth < width := UInt32.not_lt.mpr hmax
    rw [typeWidth_of_numeral hnumeral, if_neg (UInt32.pos_iff_ne_zero.mp hpos), if_neg hwide]

theorem Modes.length_le {modes : List (List Char)} {q : Rounding} {o : Overflow} {n : UInt32}
    (h : Modes modes q o n) : modes.length ≤ 3 := by
  cases h <;> simp

theorem withModes_of_modes {modes : List (List Char)} {q : Rounding} {o : Overflow} {n : UInt32}
    (h : Modes modes q o n) (width integerBits : UInt32) (signed : Bool) :
    withModes { width, integerBits, signed } modes =
      .ok ⟨width, integerBits, signed, q, o, n⟩ := by
  cases h with
  | none => rfl
  | rounding q => simp only [withModes, roundingMode_word, ok_bind, pure_eq_ok]; rfl
  | overflow q o =>
      simp only [withModes, roundingMode_word, overflowMode_word, ok_bind, pure_eq_ok]
  | bits q o hn =>
      simp only [withModes, roundingMode_word, overflowMode_word, bitCount_eq_ok_iff.mpr hn,
        ok_bind, pure_eq_ok]

theorem modes_of_withModes {width integerBits : UInt32} {signed : Bool}
    {modes : List (List Char)} {t : FixedType} (hlength : modes.length ≤ 3)
    (h : withModes { width, integerBits, signed } modes = .ok t) :
    ∃ q o n, Modes modes q o n ∧ t = ⟨width, integerBits, signed, q, o, n⟩ := by
  rcases modes with _ | ⟨first, rest⟩
  · exact ⟨_, _, _, .none, (Except.ok.inj h).symm⟩
  obtain ⟨q, hq, hrest⟩ := bind_eq_ok_iff.mp h
  rw [roundingMode_eq_ok_iff.mp hq]
  rcases rest with _ | ⟨second, rest⟩
  · exact ⟨_, _, _, .rounding q, (Except.ok.inj hrest).symm⟩
  obtain ⟨o, ho, hrest⟩ := bind_eq_ok_iff.mp hrest
  rw [overflowMode_eq_ok_iff.mp ho]
  rcases rest with _ | ⟨third, rest⟩
  · exact ⟨_, _, _, .overflow q o, (Except.ok.inj hrest).symm⟩
  obtain ⟨n, hn, hrest⟩ := bind_eq_ok_iff.mp hrest
  have hnil : rest = [] := by
    apply List.eq_nil_of_length_eq_zero
    simp only [List.length_cons] at hlength
    omega
  rw [hnil]
  exact ⟨_, _, _, .bits q o (bitCount_eq_ok_iff.mp hn), (Except.ok.inj hrest).symm⟩

theorem fixedType_of_numeral {i : List Char} {integerBits : UInt32} (hi : Numeral i integerBits)
    {modes : List (List Char)} (hlength : modes.length ≤ 3) (signed : Bool) (width : UInt32) :
    fixedType signed width (i :: modes) =
      if width < integerBits then .error (.integerBitsExceedWidth integerBits width)
      else withModes { width, integerBits, signed } modes := by
  rw [fixedType, bitCount_eq_ok_iff.mpr hi, if_neg (Nat.not_lt.mpr hlength)]
  simp only [ok_bind, throw_eq_error, error_bind]

theorem fixedType_eq_ok_iff {signed : Bool} {width : UInt32} {params : List (List Char)}
    {t : FixedType} :
    fixedType signed width params = .ok t ↔
      ∃ i modes integerBits q o n, params = i :: modes ∧ Numeral i integerBits ∧
        integerBits ≤ width ∧ Modes modes q o n ∧ t = ⟨width, integerBits, signed, q, o, n⟩ := by
  constructor
  · intro h
    rcases params with _ | ⟨i, modes⟩
    · contradiction
    by_cases hlength : 3 < modes.length
    · rw [fixedType, if_pos hlength] at h
      contradiction
    have hlength := Nat.not_lt.mp hlength
    cases hcount : bitCount .integerBits i with
    | error fault =>
        rw [fixedType, if_neg (Nat.not_lt.mpr hlength), hcount] at h
        contradiction
    | ok integerBits =>
        have hi := bitCount_eq_ok_iff.mp hcount
        rw [fixedType_of_numeral hi hlength] at h
        split at h
        · contradiction
        · rename_i hle
          obtain ⟨q, o, n, hmodes, ht⟩ := modes_of_withModes hlength h
          exact ⟨i, modes, integerBits, q, o, n, rfl, hi, UInt32.not_lt.mp hle, hmodes, ht⟩
  · rintro ⟨i, modes, integerBits, q, o, n, rfl, hi, hle, hmodes, rfl⟩
    rw [fixedType_of_numeral hi hmodes.length_le, if_neg (UInt32.not_lt.mpr hle),
      withModes_of_modes hmodes]

theorem Form.type_integer (signed : Bool) (w : List Char) :
    (Form.mk signed .integer [w]).type =
      typeWidth w >>= fun width => .ok (FixedType.integer width signed) :=
  rfl

theorem Form.type_fixed (signed : Bool) (w : List Char) (rest : List (List Char)) :
    (Form.mk signed .fixed (w :: rest)).type =
      typeWidth w >>= fun width => fixedType signed width rest :=
  rfl

theorem Form.type_eq_ok_iff {form : Form} {t : FixedType} :
    form.type = .ok t ↔ Parameters form.signed form.family form.params t := by
  obtain ⟨signed, family, params⟩ := form
  constructor
  · intro h
    rcases params with _ | ⟨w, rest⟩
    · contradiction
    obtain ⟨width, hwidth, h⟩ := bind_eq_ok_iff.mp h
    obtain ⟨hw, hpos, hmax⟩ := typeWidth_eq_ok_iff.mp hwidth
    cases family with
    | fixed =>
        obtain ⟨i, modes, integerBits, q, o, n, rfl, hi, hle, hmodes, rfl⟩ :=
          fixedType_eq_ok_iff.mp h
        exact .fixed hw hpos hmax hi hle hmodes
    | integer =>
        cases rest with
        | nil =>
            obtain rfl := Except.ok.inj h
            exact .integer hw hpos hmax
        | cons => contradiction
  · intro h
    cases h with
    | integer hw hpos hmax =>
        rw [Form.type_integer, typeWidth_eq_ok_iff.mpr ⟨hw, hpos, hmax⟩]
        rfl
    | fixed hw hpos hmax hi hle hmodes =>
        rw [Form.type_fixed, typeWidth_eq_ok_iff.mpr ⟨hw, hpos, hmax⟩, ok_bind]
        exact fixedType_eq_ok_iff.mpr ⟨_, _, _, _, _, _, rfl, hi, hle, hmodes, rfl⟩

/-! ### The reader and the grammar -/

theorem Bracketed.getLast? {text body : List Char} {signed : Bool} {family : Family}
    (h : Bracketed text signed family body) : text.getLast? = some '>' := by
  obtain ⟨start, blanks, -, -, -, -, rfl⟩ := h
  simp [List.getLast?_cons]

/-- The name of a floating-point format has no brackets, so a text is read in one way only. -/
theorem ofName?_of_bracketed {text body : List Char} {signed : Bool} {family : Family}
    (h : Bracketed text signed family body) :
    (Named.ofName? (String.ofList text) : Option FloatKind) = none := by
  rw [Named.ofName?_eq_none_iff]
  intro kind hname
  have hlast := h.getLast?
  rw [← String.toList_ofList (l := text), ← hname] at hlast
  cases kind <;> simp [Named.name] at hlast

theorem forall₂_surrounds_iff {pieces params : List (List Char)} :
    List.Forall₂ Surrounds pieces params ↔ params = pieces.map trim := by
  have h : (fun piece param => trim piece = param) = Surrounds := by
    funext piece param
    exact propext trim_eq_iff
  rw [← h, ← List.forall₂_map_left_iff, List.forall₂_eq_eq_eq, eq_comm]

theorem ofTrimmed_eq_ok_iff {text : List Char} {p : Precision} :
    ofTrimmed text = .ok p ↔ Denotes text p := by
  constructor
  · intro h
    unfold ofTrimmed at h
    split at h
    · rename_i kind hkind
      obtain rfl := Except.ok.inj h
      rw [Named.ofName?_ofList_eq_some_iff.mp hkind]
      cases kind with
      | float => exact .float
      | double => exact .double
    · split at h
      · rename_i form hform
        obtain ⟨body, hbracketed, hparams⟩ := Form.ofText?_eq_some_iff.mp hform
        cases htype : form.type with
        | error fault =>
            rw [htype] at h
            contradiction
        | ok t =>
            rw [htype] at h
            obtain rfl := Except.ok.inj h
            exact .fixed hbracketed (split_eq_iff.mp rfl) (forall₂_surrounds_iff.mpr hparams)
              (Form.type_eq_ok_iff.mp htype)
      · contradiction
  · intro h
    cases h with
    | float => rfl
    | double => rfl
    | fixed htext hbody hpieces hparams =>
        obtain rfl := forall₂_surrounds_iff.mp hpieces
        obtain rfl := split_eq_iff.mpr hbody
        have htype := (@Form.type_eq_ok_iff ⟨_, _, _⟩ _).mpr hparams
        rw [ofTrimmed, ofName?_of_bracketed htext, Form.ofText?_of_bracketed htext]
        dsimp only
        rw [htype]
        rfl

theorem parse_eq_ok_iff {spec : String} {p : Precision} :
    parse spec = .ok p ↔ AsksFor spec p := by
  rw [parse, ofTrimmed_eq_ok_iff]
  constructor
  · intro h
    exact ⟨trim spec.toList, surrounds_trim _, h⟩
  · rintro ⟨core, hcore, h⟩
    rwa [hcore.trim_eq]

end Precision

theorem readPrecision_eq_ok_iff {spec : String} {p : Precision} :
    readPrecision spec = .ok p ↔ Precision.parse spec = .ok p :=
  mapError_eq_ok_iff

theorem readPrecision_eq_error_iff {spec reason : String} :
    readPrecision spec = .error (.invalidPrecision spec reason) ↔
      ∃ fault, Precision.parse spec = .error fault ∧ fault.message = reason := by
  rw [readPrecision]
  cases Precision.parse spec <;> simp

/-- A spec is read as a precision exactly if the grammar says that it asks for it. Any other text is
refused, and the error names it as it was given. -/
theorem readPrecision_iff_asksFor (spec : String) :
    (∀ p, readPrecision spec = .ok p ↔ Precision.AsksFor spec p) ∧
      ((∃ reason, readPrecision spec = .error (.invalidPrecision spec reason)) ↔
        ∀ p, ¬ Precision.AsksFor spec p) := by
  refine ⟨fun p => readPrecision_eq_ok_iff.trans Precision.parse_eq_ok_iff, ?_⟩
  simp only [← Precision.parse_eq_ok_iff, readPrecision_eq_error_iff]
  cases Precision.parse spec <;> simp

end FabricConfig

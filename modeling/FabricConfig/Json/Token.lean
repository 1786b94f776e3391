import FabricConfig.Json.Number
import FabricConfig.Outcome

/-! Tokens of a JSON text. Scanning never fails: where the text goes wrong, the list of tokens ends
with a fault that says how, so that whoever reads the tokens can report whatever problem comes
first.

Values that are only passed over are held to less than values that are used: their strings may have
unpaired surrogates, their numbers may be too large, and a number that the text breaks off in is
taken for a wrong one. Tokens and faults keep both readings. -/

namespace FabricConfig.Json

/-- Why a text cannot be read: it ends too early, or it is wrong. -/
inductive Cause where
  | ended
  | malformed
deriving DecidableEq

/-- What a fault starts like. -/
inductive Lead where
  | string
  | null
  | scalar
  | stray
deriving DecidableEq

/-- Where a text stops being a sequence of tokens. -/
structure Fault where
  lead : Lead
  /-- The cause for a reader that uses the value. -/
  used : Cause
  /-- The cause for a reader that passes over the value. -/
  skipped : Cause
deriving DecidableEq

/-- A token. The content of a string is missing if it has an unpaired surrogate, the value of a
number if it is too large. -/
inductive Token where
  | openBrace
  | closeBrace
  | openBracket
  | closeBracket
  | comma
  | colon
  | null
  | bool (value : Bool)
  | number (value : Option Number)
  | string (content : Option String)
  | fault (fault : Fault)
deriving DecidableEq

/-! ### Strings -/

/-- A piece of a string: a character, or a 16-bit code unit given by its number. -/
inductive Piece where
  | char (c : Char)
  | unit (n : Nat)
deriving DecidableEq

/-- The value of a hexadecimal digit. -/
def hexValue? (c : Char) : Option Nat :=
  if '0' ≤ c ∧ c ≤ '9' then some (c.toNat - '0'.toNat)
  else if 'a' ≤ c ∧ c ≤ 'f' then some (c.toNat - 'a'.toNat + 10)
  else if 'A' ≤ c ∧ c ≤ 'F' then some (c.toNat - 'A'.toNat + 10)
  else none

/-- The code unit that four hexadecimal digits denote. -/
def codeUnit? (a b c d : Char) : Option Nat := do
  return (((← hexValue? a) * 16 + (← hexValue? b)) * 16 + (← hexValue? c)) * 16 + (← hexValue? d)

/-- The character after a backslash that stands for another one. -/
def shortEscape? : Char → Option Char
  | '"' => some '"'
  | '\\' => some '\\'
  | '/' => some '/'
  | 'b' => some '\x08'
  | 'f' => some '\x0c'
  | 'n' => some '\n'
  | 'r' => some '\r'
  | 't' => some '\t'
  | _ => none

/-- Why four hexadecimal digits cannot be read. A text that ends within the four bytes that the
digits would take is cut off, whatever those bytes are. -/
def codeUnitCause (text : List Char) : Cause :=
  if (String.ofList text).utf8ByteSize < 4 then .ended else .malformed

/-- Scans a string after its opening quote: its pieces, and the text after its closing quote or the
cause why there is none. -/
def scanString : List Char → List Piece × Except Cause (List Char)
  | [] => ([], .error .ended)
  | '"' :: rest => ([], .ok rest)
  | '\\' :: [] => ([], .error .ended)
  | '\\' :: 'u' :: a :: b :: c :: d :: rest =>
    match codeUnit? a b c d with
    | some n =>
      let (pieces, result) := scanString rest
      (.unit n :: pieces, result)
    | none => ([], .error .malformed)
  | '\\' :: 'u' :: rest => ([], .error (codeUnitCause rest))
  | '\\' :: c :: rest =>
    match shortEscape? c with
    | some c =>
      let (pieces, result) := scanString rest
      (.char c :: pieces, result)
    | none => ([], .error .malformed)
  | c :: rest =>
    if c.toNat < 0x20 then ([], .error .malformed)
    else
      let (pieces, result) := scanString rest
      (.char c :: pieces, result)

/-- Whether a code unit is the first half of a surrogate pair. -/
def isLeadingSurrogate (n : Nat) : Bool :=
  0xd800 ≤ n && n ≤ 0xdbff

/-- Whether a code unit is the second half of a surrogate pair. -/
def isTrailingSurrogate (n : Nat) : Bool :=
  0xdc00 ≤ n && n ≤ 0xdfff

/-- The characters that pieces spell, unless a surrogate among them is unpaired. -/
def characters? : List Piece → Option (List Char)
  | [] => some []
  | .char c :: rest => (characters? rest).map (c :: ·)
  | .unit n :: .unit m :: rest =>
    if isLeadingSurrogate n then
      if isTrailingSurrogate m then
        (characters? rest).map (Char.ofNat (0x10000 + (n - 0xd800) * 0x400 + (m - 0xdc00)) :: ·)
      else none
    else if isTrailingSurrogate n then none
    else (characters? (.unit m :: rest)).map (Char.ofNat n :: ·)
  | .unit n :: rest =>
    if isLeadingSurrogate n || isTrailingSurrogate n then none
    else (characters? rest).map (Char.ofNat n :: ·)

/-- The pieces before a first half of a surrogate pair at the very end, whose second half a string
that breaks off may be lacking. -/
def settled (pieces : List Piece) : List Piece :=
  match pieces.getLast? with
  | some (.unit n) => if isLeadingSurrogate n then pieces.dropLast else pieces
  | _ => pieces

/-- The fault of a string that breaks off after some pieces. An unpaired surrogate comes before it.
-/
def stringFault (pieces : List Piece) (cause : Cause) : Fault where
  lead := .string
  used := if (characters? (settled pieces)).isSome then cause else .malformed
  skipped := cause

/-! ### Numbers and words -/

/-- Scans a run of digits. -/
def scanDigits (text : List Char) : List Char × List Char :=
  (text.takeWhile Char.isDigit, text.dropWhile Char.isDigit)

/-- Scans digits of which there must be at least one. -/
def scanSomeDigits (text : List Char) : Except Cause (List Char × List Char) :=
  match text with
  | [] => .error .ended
  | c :: _ => if c.isDigit then .ok (scanDigits text) else .error .malformed

/-- Scans the digits before the point: a zero alone or digits that do not start with zero. -/
def scanWhole : List Char → Except Cause (List Char × List Char)
  | '0' :: c :: rest => if c.isDigit then .error .malformed else .ok (['0'], c :: rest)
  | text => scanSomeDigits text

/-- Scans the point and the digits after it, if there is a point. -/
def scanFraction : List Char → Except Cause (Option (List Char) × List Char)
  | '.' :: text => do
    let (digits, rest) ← scanSomeDigits text
    return (some digits, rest)
  | text => return (none, text)

/-- Takes the sign off an exponent; tells whether it is a minus. -/
def exponentSign : List Char → Bool × List Char
  | '+' :: rest => (false, rest)
  | '-' :: rest => (true, rest)
  | text => (false, text)

/-- Scans the exponent, if there is one. -/
def scanExponent : List Char → Except Cause (Option (Bool × List Char) × List Char)
  | [] => return (none, [])
  | c :: text =>
    if c = 'e' ∨ c = 'E' then do
      let (digits, rest) ← scanSomeDigits (exponentSign text).2
      return (some ((exponentSign text).1, digits), rest)
    else return (none, c :: text)

/-- Takes a minus sign off a number; tells whether it was there. -/
def minusSign : List Char → Bool × List Char
  | '-' :: rest => (true, rest)
  | text => (false, text)

/-- Scans a number. -/
def scanNumeral (text : List Char) : Except Cause (Numeral × List Char) := do
  let (whole, rest) ← scanWhole (minusSign text).2
  let (fraction, rest) ← scanFraction rest
  let (exponent, rest) ← scanExponent rest
  return (⟨(minusSign text).1, whole, fraction, exponent⟩, rest)

/-- Scans the characters that a word still needs. -/
def scanWord : List Char → List Char → Except Cause (List Char)
  | [], text => .ok text
  | _ :: _, [] => .error .ended
  | expected :: more, c :: rest => if c = expected then scanWord more rest else .error .malformed

/-! ### Texts -/

/-- A blank of JSON texts. -/
def isBlank (c : Char) : Bool :=
  c == ' ' || c == '\t' || c == '\n' || c == '\r'

/-- The token that a punctuation mark is. -/
def mark? : Char → Option Token
  | '\x7b' => some .openBrace
  | '\x7d' => some .closeBrace
  | '[' => some .openBracket
  | ']' => some .closeBracket
  | ',' => some .comma
  | ':' => some .colon
  | _ => none

/-- Scans the rest of a word. -/
def wordToken (lead : Lead) (letters : String) (token : Token) (text : List Char) :
    Except Fault (Token × List Char) :=
  match scanWord letters.toList text with
  | .ok rest => .ok (token, rest)
  | .error cause => .error ⟨lead, cause, cause⟩

/-- Scans the token that starts with the character `c`, which is not a blank. -/
def scanToken (c : Char) (rest : List Char) : Except Fault (Token × List Char) :=
  match mark? c with
  | some token => .ok (token, rest)
  | none =>
    if c = '"' then
      match scanString rest with
      | (pieces, .ok rest) => .ok (.string ((characters? pieces).map String.ofList), rest)
      | (pieces, .error cause) => .error (stringFault pieces cause)
    else if c = '-' ∨ c.isDigit then
      match scanNumeral (c :: rest) with
      | .ok (numeral, rest) => .ok (.number numeral.value?, rest)
      | .error cause => .error ⟨.scalar, cause, .malformed⟩
    else
      match c with
      | 'n' => wordToken .null "ull" .null rest
      | 't' => wordToken .scalar "rue" (.bool true) rest
      | 'f' => wordToken .scalar "alse" (.bool false) rest
      | _ => .error ⟨.stray, .malformed, .malformed⟩

/-! Every scanner leaves less text than it was given. -/

theorem length_of_scanString {text rest : List Char} (h : (scanString text).2 = .ok rest) :
    rest.length < text.length := by
  fun_induction scanString text <;> simp_all <;> grind

theorem length_of_scanSomeDigits {text digits rest : List Char}
    (h : scanSomeDigits text = .ok (digits, rest)) : rest.length < text.length := by
  cases text with
  | nil => simp [scanSomeDigits] at h
  | cons c text =>
    unfold scanSomeDigits at h
    split at h
    · contradiction
    · next hcons =>
      obtain ⟨rfl, rfl⟩ := hcons
      split at h
      · next hdigit =>
        simp only [scanDigits, List.dropWhile_cons, hdigit, if_true, Except.ok.injEq,
          Prod.mk.injEq] at h
        obtain ⟨-, rfl⟩ := h
        exact Nat.lt_succ_of_le (List.dropWhile_sublist _).length_le
      · contradiction

theorem length_of_scanWhole {text digits rest : List Char}
    (h : scanWhole text = .ok (digits, rest)) : rest.length < text.length := by
  unfold scanWhole at h
  split at h
  · split at h
    · contradiction
    · obtain ⟨-, rfl⟩ := by simpa using h
      simp
  · exact length_of_scanSomeDigits h

theorem length_of_scanFraction {text rest : List Char} {fraction : Option (List Char)}
    (h : scanFraction text = .ok (fraction, rest)) : rest.length ≤ text.length := by
  unfold scanFraction at h
  split at h
  · obtain ⟨⟨digits, left⟩, hdigits, h⟩ := bind_eq_ok_iff.1 h
    obtain ⟨-, rfl⟩ := by simpa [pure, Except.pure] using h
    have := length_of_scanSomeDigits hdigits
    simp
    omega
  · obtain ⟨-, rfl⟩ := by simpa [pure, Except.pure] using h
    exact Nat.le_refl _

theorem length_exponentSign (text : List Char) : (exponentSign text).2.length ≤ text.length := by
  unfold exponentSign
  split <;> simp

theorem length_of_scanExponent {text rest : List Char} {exponent : Option (Bool × List Char)}
    (h : scanExponent text = .ok (exponent, rest)) : rest.length ≤ text.length := by
  unfold scanExponent at h
  split at h
  · obtain ⟨-, rfl⟩ := by simpa [pure, Except.pure] using h
    simp
  · split at h
    · obtain ⟨⟨digits, left⟩, hdigits, h⟩ := bind_eq_ok_iff.1 h
      obtain ⟨-, rfl⟩ := by simpa [pure, Except.pure] using h
      have := length_of_scanSomeDigits hdigits
      have := length_exponentSign
      grind
    · obtain ⟨-, rfl⟩ := by simpa [pure, Except.pure] using h
      exact Nat.le_refl _

theorem length_minusSign (text : List Char) : (minusSign text).2.length ≤ text.length := by
  unfold minusSign
  split <;> simp

theorem length_of_scanNumeral {text rest : List Char} {numeral : Numeral}
    (h : scanNumeral text = .ok (numeral, rest)) : rest.length < text.length := by
  obtain ⟨⟨whole, rest₁⟩, h₁, h⟩ := bind_eq_ok_iff.1 h
  obtain ⟨⟨fraction, rest₂⟩, h₂, h⟩ := bind_eq_ok_iff.1 h
  obtain ⟨⟨exponent, rest₃⟩, h₃, h⟩ := bind_eq_ok_iff.1 h
  obtain ⟨-, rfl⟩ := by simpa [pure, Except.pure] using h
  have := length_minusSign text
  have := length_of_scanWhole h₁
  have := length_of_scanFraction h₂
  have := length_of_scanExponent h₃
  omega

theorem length_of_scanWord {expected text rest : List Char}
    (h : scanWord expected text = .ok rest) : rest.length ≤ text.length := by
  induction expected generalizing text with
  | nil =>
    obtain rfl := by simpa [scanWord] using h
    exact Nat.le_refl _
  | cons e more ih =>
    cases text with
    | nil => simp [scanWord] at h
    | cons c text =>
      simp only [scanWord] at h
      split at h
      · exact Nat.le_succ_of_le (ih h)
      · contradiction

theorem length_of_wordToken {lead : Lead} {letters : String} {word token : Token}
    {text rest : List Char} (h : wordToken lead letters word text = .ok (token, rest)) :
    rest.length ≤ text.length := by
  unfold wordToken at h
  split at h
  · next hscan =>
    obtain ⟨-, rfl⟩ := by simpa using h
    exact length_of_scanWord hscan
  · contradiction

theorem length_of_scanToken {c : Char} {text rest : List Char} {token : Token}
    (h : scanToken c text = .ok (token, rest)) : rest.length ≤ text.length := by
  unfold scanToken at h
  split at h
  · obtain ⟨-, rfl⟩ := by simpa using h
    exact Nat.le_refl _
  · split at h
    · split at h
      · next hscan =>
        obtain ⟨-, rfl⟩ := by simpa using h
        exact Nat.le_of_lt (length_of_scanString (by rw [hscan]))
      · contradiction
    · split at h
      · split at h
        · next hscan =>
          obtain ⟨-, rfl⟩ := by simpa using h
          exact Nat.lt_succ_iff.1 (length_of_scanNumeral hscan)
        · contradiction
      · split at h
        · exact length_of_wordToken h
        · exact length_of_wordToken h
        · exact length_of_wordToken h
        · contradiction

/-- The tokens of a text. -/
def tokens : List Char → List Token
  | [] => []
  | c :: text =>
    if isBlank c then tokens text
    else
      match _h : scanToken c text with
      | .ok (token, rest) => token :: tokens rest
      | .error fault => [.fault fault]
termination_by text => text.length
decreasing_by
  · simp
  · have := length_of_scanToken _h
    simp
    omega

@[simp]
theorem tokens_nil : tokens [] = [] := by
  rw [tokens]

theorem tokens_blank {c : Char} {text : List Char} (h : isBlank c = true) :
    tokens (c :: text) = tokens text := by
  rw [tokens, if_pos h]

theorem tokens_of_scanToken {c : Char} {text rest : List Char} {token : Token}
    (hc : isBlank c = false) (h : scanToken c text = .ok (token, rest)) :
    tokens (c :: text) = token :: tokens rest := by
  rw [tokens, if_neg (by simp [hc])]
  split <;> simp_all

end FabricConfig.Json

import FabricConfig.Binary64.Shortest
import FabricConfig.Text.Decimal

/-! Numbers of JSON texts. A number written without point and exponent is an integer if it fits in
64 bits; every other number is a binary64 number. -/

namespace FabricConfig.Json

open Text

/-- The value of a number. -/
inductive Number where
  | int (value : Int)
  | float (value : Binary64)
deriving DecidableEq

/-! ### Writing -/

/-- The characters of an integer. -/
def intLetters : Int → List Char
  | .ofNat n => decimal n
  | .negSucc n => '-' :: decimal (n + 1)

/-- Decimals are written in positional notation if their leading digit stands for a power of ten
between these two, and in scientific notation otherwise. -/
def positionalRange : Int × Int := (-5, 15)

/-- Digits with a point after the first `count` of them and at least one digit on each side. -/
def pointed (digits : List Char) (count : Int) : List Char :=
  if count ≤ 0 then ['0', '.'] ++ List.replicate (-count).toNat '0' ++ digits
  else if (digits.length : Int) ≤ count then
    digits ++ List.replicate (count - digits.length).toNat '0' ++ ['.', '0']
  else digits.take count.toNat ++ '.' :: digits.drop count.toNat

/-- Digits with a point after the first one, if there are more, and a signed exponent. -/
def scientific (digits : List Char) (exponent : Int) : List Char :=
  let mantissa := match digits with
    | first :: second :: rest => first :: '.' :: second :: rest
    | _ => digits
  mantissa ++ 'e' :: (if exponent < 0 then '-' else '+') :: decimal exponent.natAbs

/-- The characters of a decimal. -/
def decimalLetters (d : Decimal) : List Char :=
  let digits := decimal d.coefficient
  let lead := d.exponent + digits.length - 1
  if positionalRange.1 ≤ lead ∧ lead ≤ positionalRange.2 then pointed digits (lead + 1)
  else scientific digits lead

/-- The characters of a binary64 number: the shortest decimal that reads back as the number. -/
def floatLetters (x : Binary64) : List Char :=
  (if x.negative then ['-'] else []) ++ decimalLetters x.magnitude.shortest

/-- The characters of a number. -/
def Number.letters : Number → List Char
  | .int value => intLetters value
  | .float value => floatLetters value

/-! ### Reading -/

/-- A number as it is written: digits before the point, digits after it, and an exponent given by
its digits and whether its sign is a minus. -/
structure Numeral where
  negative : Bool
  whole : List Char
  fraction : Option (List Char)
  exponent : Option (Bool × List Char)
deriving DecidableEq

/-- Appends digits to a number for as long as it fits in a 64-bit word; the first digit that does
not fit and all after it are left out. Also counts the digits left out. -/
def absorb (n : Nat) : List Char → Nat × Nat
  | [] => (n, 0)
  | digit :: rest =>
    let next := 10 * n + (digit.toNat - '0'.toNat)
    if next < UInt64.size then absorb next rest else (n, rest.length + 1)

namespace Numeral

/-- The power of ten in the exponent. -/
def power (n : Numeral) : Int :=
  match n.exponent with
  | none => 0
  | some (negative, digits) =>
    let size : Int := Nat.ofDigitChars 10 digits 0
    if negative then -size else size

/-- The number in binary64, unless it is too large. The digits that fit in a 64-bit word are scaled
by the power of ten that makes up for the point, the exponent and the digits left out. -/
def float? (n : Numeral) : Option Binary64 := do
  let fraction := n.fraction.getD []
  let (whole, wholeLeftOut) := absorb 0 n.whole
  let (significand, fractionLeftOut) := absorb whole fraction
  let shift : Int := (wholeLeftOut : Int) - ((fraction.length : Int) - fractionLeftOut)
  return ⟨n.negative, ← Magnitude.scaleByTen? significand (shift + n.power)⟩

/-- The 64-bit integer that a number is, if it is one. Minus zero is not. -/
def int? (n : Numeral) : Option Int :=
  let size := Nat.ofDigitChars 10 n.whole 0
  if n.fraction.isSome || n.exponent.isSome then none
  else if n.negative then
    if 0 < size ∧ size ≤ UInt64.size / 2 then some (-size) else none
  else if size < UInt64.size then some size else none

/-- The value of a number, unless it is too large. -/
def value? (n : Numeral) : Option Number :=
  match n.int? with
  | some value => some (.int value)
  | none => n.float?.map .float

end Numeral

end FabricConfig.Json

/-! Finite numbers of the binary64 format, by exact arithmetic on natural numbers. Every operation
gives the representable number nearest to the exact result, of two equally near ones that with the
even significand. -/

namespace FabricConfig

/-- A finite binary64 number without its sign: `significand * 2 ^ exponent`. -/
structure Magnitude where
  significand : Nat
  exponent : Int
deriving DecidableEq

/-- A finite binary64 number. Zero has a sign as well. -/
structure Binary64 where
  negative : Bool
  magnitude : Magnitude
deriving DecidableEq

namespace Magnitude

/-- The exponent of the smallest numbers. -/
def minExponent : Int := -1074

/-- The exponent of the largest numbers. -/
def maxExponent : Int := 971

def zero : Magnitude := ⟨0, minExponent⟩

/-- The leading bit of a significand of full precision. -/
def topBit : Nat := 1 <<< 52

/-- The quotient rounded to the nearest natural number, a half to the even one. -/
def roundedQuotient (num den : Nat) : Nat :=
  let quotient := num / den
  let twice := 2 * (num % den)
  if twice < den then quotient
  else if den < twice then quotient + 1
  else quotient + quotient % 2

/-- The exponent of the leading bit of a positive quotient. -/
def leadingBit (num den : Nat) : Int :=
  let guess : Int := (Nat.log2 num : Int) - Nat.log2 den
  if den <<< guess.toNat ≤ num <<< (-guess).toNat then guess else guess - 1

/-- The number nearest to `num / den * 2 ^ scale`, unless it is too large for the format. -/
def ofQuotient? (num den : Nat) (scale : Int) : Option Magnitude :=
  let num := num <<< scale.toNat
  let den := den <<< (-scale).toNat
  if num = 0 then some zero
  else
    let exponent := max (leadingBit num den - 52) minExponent
    let significand := roundedQuotient (num <<< (-exponent).toNat) (den <<< exponent.toNat)
    let result : Magnitude :=
      if significand = 2 * topBit then ⟨topBit, exponent + 1⟩ else ⟨significand, exponent⟩
    if result.exponent ≤ maxExponent then some result else none

/-- The number nearest to a natural number. -/
def ofNat? (n : Nat) : Option Magnitude :=
  ofQuotient? n 1 0

/-- The product of two numbers. -/
def mul? (a b : Magnitude) : Option Magnitude :=
  ofQuotient? (a.significand * b.significand) 1 (a.exponent + b.exponent)

/-- The quotient of two numbers. -/
def div? (a b : Magnitude) : Option Magnitude :=
  ofQuotient? a.significand b.significand (a.exponent - b.exponent)

/-- The largest power of ten that the format holds. -/
def maxPowerOfTen : Nat := 308

/-- A number times a power of ten. -/
def scaleUp? (a : Magnitude) (power : Nat) : Option Magnitude :=
  if maxPowerOfTen < power then
    if a.significand = 0 then some a else none
  else do mul? a (← ofNat? (Nat.pow 10 power))

/-- A number divided by a power of ten, which is taken in portions that the format holds. -/
def scaleDown? (a : Magnitude) (power : Nat) : Option Magnitude :=
  if maxPowerOfTen < power then
    if a.significand = 0 then some a
    else do
      let smaller ← div? a (← ofNat? (Nat.pow 10 maxPowerOfTen))
      scaleDown? smaller (power - maxPowerOfTen)
  else do div? a (← ofNat? (Nat.pow 10 power))
termination_by power
decreasing_by
  have : 0 < maxPowerOfTen := by decide
  omega

/-- A number times or divided by a power of ten, each rounded on its own. -/
def scaleByTen? (n : Nat) (power : Int) : Option Magnitude := do
  let a ← ofNat? n
  if 0 ≤ power then a.scaleUp? power.toNat else a.scaleDown? (-power).toNat

end Magnitude

end FabricConfig

import FabricConfig.Binary64.Basic
import FabricConfig.Text.Decimal

/-! The shortest decimal that reads back as a given binary64 number: of all decimals with the fewest
digits that round to the number, the nearest one, of two equally near ones that with an even last
digit. -/

namespace FabricConfig

/-- A decimal: `coefficient * 10 ^ exponent`. -/
structure Decimal where
  coefficient : Nat
  exponent : Int
deriving DecidableEq

namespace Decimal

/-- The same decimal without zeros at the end of the coefficient. -/
def stripped (d : Decimal) : Decimal :=
  if h : d.coefficient ≠ 0 ∧ d.coefficient % 10 = 0 then
    stripped ⟨d.coefficient / 10, d.exponent + 1⟩
  else d
termination_by d.coefficient
decreasing_by omega

end Decimal

namespace Magnitude

/-- The interval of reals that round to a number, in units of `2 ^ (exponent - 2)`. The gap below a
power of two is half the gap above it. The ends belong to it if the significand is even. -/
structure Reach where
  low : Nat
  high : Nat
  closed : Bool

/-- The reals that round to a positive number. -/
def reach (a : Magnitude) : Reach where
  low := 4 * a.significand -
    if a.significand = topBit ∧ minExponent < a.exponent then 1 else 2
  high := 4 * a.significand + 2
  closed := a.significand % 2 = 0

/-- Whether the real `num / den`, in the units of the interval, rounds to the number. -/
def Reach.contains (r : Reach) (num den : Nat) : Bool :=
  if r.closed then r.low * den ≤ num && num ≤ r.high * den
  else r.low * den < num && num < r.high * den

/-- The exponent of the leading decimal digit of a positive quotient. -/
def leadingDigit (num den : Nat) : Int :=
  if den ≤ num then ((Text.decimal (num / den)).length : Int) - 1
  else -((Text.decimal ((num + den - 1) / num - 1)).length : Int)

/-- The decimal with `exponent` that is in the interval of a number and nearest to it, if there is
one. Only the two neighbours of the number on that grid can be. -/
def nearestOnGrid? (a : Magnitude) (exponent : Int) : Option Decimal :=
  let unit := a.exponent - 2
  -- One step of the grid is `step / part` units.
  let step := Nat.pow 10 exponent.toNat <<< (-unit).toNat
  let part := Nat.pow 10 (-exponent).toNat <<< unit.toNat
  let value := 4 * a.significand * part
  let below := value / step
  let inside := fun n : Nat => a.reach.contains (n * step) part
  let gapBelow := value - below * step
  let gapAbove := (below + 1) * step - value
  match inside below, inside (below + 1) with
  | false, false => none
  | true, false => some ⟨below, exponent⟩
  | false, true => some ⟨below + 1, exponent⟩
  | true, true =>
    if gapBelow < gapAbove then some ⟨below, exponent⟩
    else if gapAbove < gapBelow then some ⟨below + 1, exponent⟩
    else some ⟨below + below % 2, exponent⟩

/-- The shortest decimal that reads back as a number. Seventeen digits always suffice. -/
def shortest (a : Magnitude) : Decimal :=
  if a.significand = 0 then ⟨0, 0⟩
  else
    let lead := leadingDigit (a.significand <<< a.exponent.toNat) (1 <<< (-a.exponent).toNat)
    let candidates := (List.range 17).findSome? fun (n : Nat) => a.nearestOnGrid? (lead - n)
    (candidates.getD ⟨0, 0⟩).stripped

end Magnitude

end FabricConfig

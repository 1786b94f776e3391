/-! Natural numbers in decimal notation. -/

namespace FabricConfig.Text

/-- The decimal digits of a number, without leading zeros. -/
def decimal (n : Nat) : List Char :=
  Nat.toDigits 10 n

/-- The number that a non-empty run of decimal digits denotes. -/
def natOfDigits? (digits : List Char) : Option Nat :=
  if !digits.isEmpty && digits.all Char.isDigit then some (Nat.ofDigitChars 10 digits 0) else none

/-- A 32-bit word in decimal: one optional plus sign, then digits. Leading zeros are harmless. -/
def wordOfDecimal? (text : List Char) : Option UInt32 := do
  let digits := match text with
    | '+' :: rest => rest
    | _ => text
  let n ← natOfDigits? digits
  if n < UInt32.size then some (UInt32.ofNat n) else none

end FabricConfig.Text

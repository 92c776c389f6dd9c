/-
**Whole numbers in decimal.**

A numeral is an optional plus sign and one or more of the ten digits; zeros may lead. `readNumeral`
gives its value if that is below the wanted bound.
-/

namespace StakingDirectory.Text

/-- The value of decimal digits. -/
def digitsValue (digits : List Char) : Nat :=
  digits.foldl (fun value digit => 10 * value + (digit.toNat - '0'.toNat)) 0

/-- The digits of a numeral. -/
def unsigned : List Char → List Char
  | '+' :: digits => digits
  | digits => digits

/-- The value of a numeral that is less than `bound`. -/
def readNumeral (bound : Nat) (text : String) : Option Nat :=
  let digits := unsigned text.toList
  if digits.isEmpty || digits.any (fun digit => !digit.isDigit) then none
  else if digitsValue digits < bound then some (digitsValue digits)
  else none

end StakingDirectory.Text

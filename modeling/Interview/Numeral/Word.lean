import Interview.Numeral.Digits

/-!
# Word-sized numbers

Natural numbers as options give them: digits, with a plus sign in front if one likes, for a number
below 2^64.
-/

namespace Interview.Numeral

/-- The number that digits stand for, if there is a digit and the number fits. -/
def wordOfDigits? (digits : List Char) : Option Nat :=
  if digits ≠ [] ∧ digits.all Char.isDigit ∧ digitsValue digits < wordLimit then
    some (digitsValue digits)
  else
    none

/-- Reads a number. -/
def word? (s : String) : Option Nat :=
  match s.toList with
  | '+' :: digits => wordOfDigits? digits
  | digits => wordOfDigits? digits

end Interview.Numeral

import Interview.Numeral.Digits

/-!
# Decimal numbers written by people

A number in a fact file is an optional sign followed by a decimal numeral, or by a name of infinity
or of the value that is not a number, in any letter case. A numeral has digits before the point,
after it, or both, and may end in a power of ten. Its value is the double nearest to the number
written; a number past the largest double is infinite.
-/

namespace Interview.Numeral

/-- A decimal numeral without its sign: `digits` times ten to the power `exponent`. -/
structure Decimal where
  digits : List Char
  exponent : Int
deriving DecidableEq

namespace Decimal

/-- The power of ten at the end of a numeral: nothing at all, or a mark, perhaps a sign, and
digits. -/
def exponent? : List Char → Option Int
  | [] => some 0
  | mark :: rest =>
    if mark = 'e' ∨ mark = 'E' then
      let (sign, digits) := match rest with
        | '+' :: digits => (1, digits)
        | '-' :: digits => (-1, digits)
        | digits => ((1 : Int), digits)
      if digits ≠ [] ∧ digits.all Char.isDigit then some (sign * digitsValue digits) else none
    else
      none

/-- Reads a numeral without a sign. -/
def ofChars? (cs : List Char) : Option Decimal :=
  let (whole, rest) := spanDigits cs
  let (fraction, rest) := match rest with
    | '.' :: rest => spanDigits rest
    | rest => ([], rest)
  if whole = [] ∧ fraction = [] then
    none
  else
    (exponent? rest).map fun exponent => ⟨whole ++ fraction, exponent - fraction.length⟩

/-- The nearest double. Powers of ten too large or too small to matter are not computed. -/
def toFloat (d : Decimal) : Float :=
  let digits := d.digits.dropWhile (· == '0')
  let magnitude := digits.length + d.exponent
  if digits = [] ∨ magnitude < -400 then
    0.0
  else if magnitude > 400 then
    1.0 / 0.0
  else
    Float.ofScientific (digitsValue digits) (d.exponent < 0) d.exponent.natAbs

end Decimal

/-- The magnitude that a text without a sign stands for. -/
def magnitude? (cs : List Char) : Option Float :=
  let name := String.ofList (cs.map Char.toLower)
  if name = "inf" ∨ name = "infinity" then
    some (1.0 / 0.0)
  else if name = "nan" then
    some (0.0 / 0.0)
  else
    (Decimal.ofChars? cs).map Decimal.toFloat

/-- The double that a text stands for. -/
def float? (s : String) : Option Float :=
  match s.toList with
  | '+' :: cs => magnitude? cs
  | '-' :: cs => (magnitude? cs).map (- ·)
  | cs => magnitude? cs

end Interview.Numeral

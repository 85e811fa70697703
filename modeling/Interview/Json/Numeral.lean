import Interview.Numeral.Digits

/-!
# Numerals of JSON

A numeral is kept as it is written: its sign, the digits before and after the point, and the power
of ten at the end. `Numeral.ofChars?` reads the grammar of JSON, which allows no superfluous zero in
front, no sign `+` in front, and no point without digits on both sides.

`Numeral.float?` is the double that a numeral is decoded as. It takes the leading digits that fit
into sixty-four bits as a whole number, rounds that to a double, and multiplies or divides by the
power of ten that is left; a number past the largest double has no value. Where the whole number is
below 2^53 and the power of ten at most 10^22, both factors are exact and the result is the nearest
double.
-/

namespace Interview.Json

open Interview.Numeral

/-- The power of ten at the end of a numeral. -/
structure Exponent where
  negative : Bool
  digits : List Char
deriving DecidableEq, Repr

/-- A number as JSON writes it. -/
structure Numeral where
  negative : Bool
  whole : List Char
  fraction : List Char
  exponent : Option Exponent
deriving DecidableEq, Repr

namespace Numeral

/-- The numeral of a natural number. -/
def ofNat (n : Nat) : Numeral :=
  ⟨false, (toString n).toList, [], none⟩

/-- The numeral of an integer. -/
def ofInt (n : Int) : Numeral :=
  ⟨n < 0, (toString n.natAbs).toList, [], none⟩

/-! ## Reading and writing -/

/-- Reads the power of ten at the end of a numeral. -/
def readExponent? : List Char → Option (Option Exponent)
  | [] => some none
  | mark :: rest =>
    if mark = 'e' ∨ mark = 'E' then
      let (negative, digits) := match rest with
        | '+' :: digits => (false, digits)
        | '-' :: digits => (true, digits)
        | digits => (false, digits)
      if digits ≠ [] ∧ digits.all Char.isDigit then some (some ⟨negative, digits⟩) else none
    else
      none

/-- Reads a numeral that takes up a whole text. -/
def ofChars? (cs : List Char) : Option Numeral :=
  let (negative, cs) := match cs with
    | '-' :: cs => (true, cs)
    | cs => (false, cs)
  let (whole, rest) := spanDigits cs
  if whole = [] ∨ (whole.head? = some '0' ∧ whole.length ≠ 1) then
    none
  else
    match rest with
    | '.' :: rest =>
      let (fraction, rest) := spanDigits rest
      if fraction = [] then none
      else (readExponent? rest).map (⟨negative, whole, fraction, ·⟩)
    | rest => (readExponent? rest).map (⟨negative, whole, [], ·⟩)

/-- The characters of a power of ten. -/
def Exponent.chars (e : Exponent) : List Char :=
  'e' :: ((if e.negative then ['-'] else []) ++ e.digits)

/-- The characters of a numeral. -/
def chars (n : Numeral) : List Char :=
  (if n.negative then ['-'] else []) ++ n.whole
    ++ (if n.fraction = [] then [] else '.' :: n.fraction)
    ++ (n.exponent.map Exponent.chars).getD []

/-! ## Values -/

/-- The whole number that a numeral without point and power of ten stands for. -/
def natural? (n : Numeral) : Option Nat :=
  if n.negative ∨ n.fraction ≠ [] ∨ n.exponent ≠ none then none else some (digitsValue n.whole)

/-- A digit appended to a whole number, as long as sixty-four bits hold the result. -/
def append? (significand : Nat) (digit : Char) : Option Nat :=
  let next := significand * 10 + digitValue digit
  if next < wordLimit then some next else none

/-- The leading digits before the point that fit into sixty-four bits, and the number of others. -/
def wholePart (digits : List Char) : Nat × Nat :=
  digits.foldl
    (fun (significand, left) digit =>
      if left = 0 then
        match append? significand digit with
        | some next => (next, 0)
        | none => (significand, 1)
      else
        (significand, left + 1))
    (0, 0)

/-- Appends the digits after the point, as long as they fit; counts those that did. -/
def fractionPart (significand : Nat) : List Char → Nat × Nat
  | [] => (significand, 0)
  | digit :: digits =>
    match append? significand digit with
    | some next =>
      let (significand, count) := fractionPart next digits
      (significand, count + 1)
    | none => (significand, 0)

/-- A power of ten that a double can hold. -/
def powerOfTen (n : Nat) : Float :=
  Float.ofScientific 1 false n

/-- Divides by a power of ten, in steps of at most 10^308. -/
def divideByPower (x : Float) (n : Nat) : Float :=
  if n ≤ 308 then x / powerOfTen n
  else if x == 0.0 then x
  else divideByPower (x / powerOfTen 308) (n - 308)
termination_by n

/-- A double times a power of ten, unless that is past the largest double. -/
def scale? (x : Float) (exponent : Int) : Option Float :=
  if exponent < 0 then
    some (divideByPower x exponent.natAbs)
  else if x == 0.0 then
    some x
  else if exponent ≤ 308 then
    let scaled := x * powerOfTen exponent.natAbs
    if scaled.isInf then none else some scaled
  else
    none

/-- The double that a numeral is decoded as. -/
def float? (n : Numeral) : Option Float :=
  let (significand, left) := wholePart n.whole
  let (significand, taken) := fractionPart significand n.fraction
  let power : Int := match n.exponent with
    | none => 0
    | some ⟨negative, digits⟩ => if negative then - digitsValue digits else digitsValue digits
  (scale? (Float.ofNat significand) (left - taken + power)).map fun x =>
    if n.negative then - x else x

end Numeral

end Interview.Json

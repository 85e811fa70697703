import Interview.Numeral.Digits
import Interview.Text.Blank

/-!
# Calendar dates

Dates of the Gregorian calendar, extended without a gap before its introduction; year 0 comes
before year 1. A date is written `YYYY-MM-DD`. Before year 0 and past year 9999 the year takes a
sign, and as many digits as it needs.
-/

namespace Interview.Calendar

/-- Whether a year has a 29 February. -/
def isLeapYear (year : Int) : Bool :=
  year % 4 = 0 ∧ (year % 100 ≠ 0 ∨ year % 400 = 0)

/-- The number of days of a month; zero if there is no such month. -/
def daysInMonth (year : Int) (month : Nat) : Nat :=
  match month with
  | 1 | 3 | 5 | 7 | 8 | 10 | 12 => 31
  | 4 | 6 | 9 | 11 => 30
  | 2 => if isLeapYear year then 29 else 28
  | _ => 0

/-- The first year of the calendar. -/
def firstYear : Int := -262143

/-- The last year of the calendar. -/
def lastYear : Int := 262142

/-- Whether year, month and day name a date. -/
def IsDate (year : Int) (month day : Nat) : Prop :=
  firstYear ≤ year ∧ year ≤ lastYear ∧ 1 ≤ day ∧ day ≤ daysInMonth year month

instance (year : Int) (month day : Nat) : Decidable (IsDate year month day) :=
  inferInstanceAs (Decidable (_ ∧ _))

/-- A date. -/
structure Date where
  year : Int
  month : Nat
  day : Nat
  isDate : IsDate year month day
deriving DecidableEq

namespace Date

/-- The date of a year, month and day. -/
def ofParts? (year : Int) (month day : Nat) : Option Date :=
  if h : IsDate year month day then some ⟨year, month, day, h⟩ else none

/-! ## Counting days -/

/-- The number of days from 1 January of year 1 to 1 January of a year. -/
def daysBeforeYear (year : Int) : Int :=
  let past := year - 1
  past * 365 + past / 4 - past / 100 + past / 400

/-- The number of days of a year before a month. -/
def daysBeforeMonth (year : Int) : Nat → Nat
  | 0 => 0
  | month + 1 => daysBeforeMonth year month + daysInMonth year month

/-- The number of days from 1 January of year 1 to a date. -/
def ordinal (d : Date) : Int :=
  daysBeforeYear d.year + daysBeforeMonth d.year d.month + (d.day - 1)

/-- The number of days from one date to another. -/
def daysUntil (start finish : Date) : Int :=
  finish.ordinal - start.ordinal

/-- The later of two dates. -/
def later (a b : Date) : Date :=
  if a.ordinal ≤ b.ordinal then b else a

/-- The latest of some dates. -/
def latest? : List Date → Option Date
  | [] => none
  | d :: ds => some (ds.foldl later d)

/-! ## Writing and reading -/

/-- A year as a date writes it. -/
def writeYear (year : Int) : String :=
  if 0 ≤ year ∧ year ≤ 9999 then Numeral.padded 4 year.toNat
  else (if year < 0 then "-" else "+") ++ Numeral.padded 4 year.natAbs

/-- A date as a text. -/
def toText (d : Date) : String :=
  writeYear d.year ++ "-" ++ Numeral.padded 2 d.month ++ "-" ++ Numeral.padded 2 d.day

/-- Up to `width` digits, at least one, and the text after them. -/
def readNumber? (width : Nat) (cs : List Char) : Option (Nat × List Char) :=
  let digits := (cs.take width).takeWhile Char.isDigit
  if digits = [] then none else some (Numeral.digitsValue digits, cs.drop digits.length)

/-- A year: any number of digits after a sign, otherwise at most four. -/
def readYear? (cs : List Char) : Option (Int × List Char) :=
  match cs with
  | '-' :: cs => (readNumber? cs.length cs).map fun (n, rest) => (-n, rest)
  | '+' :: cs => (readNumber? cs.length cs).map fun (n, rest) => (n, rest)
  | cs => (readNumber? 4 cs).map fun (n, rest) => (n, rest)

/-- The text after a hyphen and the blanks behind it. -/
def afterHyphen? : List Char → Option (List Char)
  | '-' :: rest => some (Text.dropBlanks rest)
  | _ => none

/-- Reads a date. Blanks may stand before each of the three numbers. -/
def ofChars? (cs : List Char) : Option Date := do
  let (year, rest) ← readYear? (Text.dropBlanks cs)
  let (month, rest) ← readNumber? 2 (← afterHyphen? rest)
  let (day, rest) ← readNumber? 2 (← afterHyphen? rest)
  if rest = [] then ofParts? year month day else none

/-- Reads a date, with blanks around it left out. -/
def ofText? (s : String) : Option Date :=
  ofChars? (Text.trimChars s.toList)

end Date

end Interview.Calendar

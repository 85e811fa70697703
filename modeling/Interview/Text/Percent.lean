/-!
# Percent encoding

A component of an address keeps its ASCII letters and digits and the marks `-_.!~*'()`; every other
character is spelled by the bytes of its UTF-8 form, each as `%` and two upper-case hexadecimal
digits.
-/

namespace Interview.Text.Percent

/-- Whether a character stands for itself in a component. -/
def isPlain (c : Char) : Bool :=
  c.isAlphanum || "-_.!~*'()".toList.contains c

/-- The upper-case hexadecimal digit of a number below sixteen. -/
def hexDigit (n : Nat) : Char :=
  if n < 10 then Char.ofNat (48 + n) else Char.ofNat (55 + n)

/-- The escape of one byte. -/
def escape (byte : UInt8) : List Char :=
  ['%', hexDigit (byte.toNat / 16), hexDigit (byte.toNat % 16)]

/-- What a character is written as. -/
def encodeChar (c : Char) : List Char :=
  if isPlain c then [c] else (String.utf8EncodeChar c).flatMap escape

/-- A text as a component of an address. -/
def encode (s : String) : String :=
  String.ofList (s.toList.flatMap encodeChar)

end Interview.Text.Percent

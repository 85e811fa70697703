/-!
# UTF-8

Reading a sequence of bytes as text. `decode?` refuses every ill-formed sequence: a stray or
missing continuation byte, a form longer than needed, a surrogate, and a code point past the last.
-/

namespace Interview.Text.Utf8

/-- The six low bits of a continuation byte. -/
def continuation? (byte : UInt8) : Option Nat :=
  if 0x80 ≤ byte.toNat ∧ byte.toNat < 0xc0 then some (byte.toNat - 0x80) else none

/-- The character with a given code point, unless a shorter form exists or there is none. -/
def character? (least code : Nat) : Option Char :=
  if h : least ≤ code ∧ code.isValidChar then some (Char.ofNatAux code h.2) else none

/-- The text that a sequence of bytes spells. -/
def decode? : List UInt8 → Option (List Char)
  | [] => some []
  | a :: rest =>
    if a.toNat < 0x80 then do
      return (← character? 0 a.toNat) :: (← decode? rest)
    else if a.toNat < 0xc0 then
      none
    else if a.toNat < 0xe0 then
      match rest with
      | b :: rest => do
        let code := (a.toNat - 0xc0) * 0x40 + (← continuation? b)
        return (← character? 0x80 code) :: (← decode? rest)
      | _ => none
    else if a.toNat < 0xf0 then
      match rest with
      | b :: c :: rest => do
        let code := ((a.toNat - 0xe0) * 0x40 + (← continuation? b)) * 0x40 + (← continuation? c)
        return (← character? 0x800 code) :: (← decode? rest)
      | _ => none
    else
      match rest with
      | b :: c :: d :: rest => do
        let code := (((a.toNat - 0xf0) * 0x40 + (← continuation? b)) * 0x40
          + (← continuation? c)) * 0x40 + (← continuation? d)
        return (← character? 0x10000 code) :: (← decode? rest)
      | _ => none

/-- The bytes that spell a text. -/
def encode (s : String) : List UInt8 :=
  s.toList.flatMap String.utf8EncodeChar

end Interview.Text.Utf8

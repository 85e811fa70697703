import Interview.Json.Basic

/-!
# Tokens of JSON text

The text of a JSON document falls into brackets, separators, literals, numerals and strings, with
white space between them. `tokens?` walks the text once, character by character; what it remembers
is which token it is in. Only space, tab, line feed and carriage return are white space here, and a
string may hold no control character as such.

An escape `\u` names a UTF-16 code unit, and a character past the first 65536 takes a pair of them.
A string may also hold half of a pair. It follows the grammar then, but it is no text.
-/

namespace Interview.Json

/-- A token of JSON text. -/
inductive Token where
  | openArray
  | closeArray
  | openObject
  | closeObject
  | colon
  | comma
  | scalar (value : Json)
  | text (s : String)
  /-- A string that is no text. -/
  | brokenText

namespace Token

/-- The characters of an unfinished string, the last first; none once it holds half of a pair. -/
abbrev Chars := Option (List Char)

/-- Where the walk over the text stands. -/
inductive State where
  /-- Between tokens. -/
  | between
  /-- In a literal name; its characters so far, the last first. -/
  | word (chars : List Char)
  /-- In a numeral; its characters so far, the last first. -/
  | numeral (chars : List Char)
  /-- In a string. -/
  | quoted (chars : Chars)
  /-- In a string, after a backslash. -/
  | escaped (chars : Chars)
  /-- In a string, in an escape `\u` with some of its digits, after a first half of a pair if
  any. -/
  | unicode (chars : Chars) (first : Option Nat) (count code : Nat)
  /-- In a string, after the first half of a pair. -/
  | halfPair (chars : Chars) (first : Nat)
  /-- In a string, after the first half of a pair and a backslash. -/
  | halfPairEscaped (chars : Chars) (first : Nat)

/-- The character that a one-letter escape stands for. -/
def escape? : Char → Option Char
  | '"' => some '"'
  | '\\' => some '\\'
  | '/' => some '/'
  | 'b' => some '\x08'
  | 'f' => some '\x0c'
  | 'n' => some '\n'
  | 'r' => some '\r'
  | 't' => some '\t'
  | _ => none

/-- Whether a character can stand in a numeral. -/
def isNumeralChar (c : Char) : Bool :=
  c.isDigit || c == '+' || c == '-' || c == '.' || c == 'e' || c == 'E'

/-- The token that a literal name is. -/
def ofWord? (chars : List Char) : Option Token :=
  match String.ofList chars with
  | "null" => some (.scalar .null)
  | "true" => some (.scalar (.bool true))
  | "false" => some (.scalar (.bool false))
  | _ => none

/-- The token that ends where the walk stands, if it is in a literal name or a numeral. -/
def finish? : State → Option (List Token)
  | .between => some []
  | .word chars => (ofWord? chars.reverse).map ([·])
  | .numeral chars => (Numeral.ofChars? chars.reverse).map fun n => [.scalar (.number n)]
  | _ => none

/-- Whether a code unit is the first half of a pair. -/
def isFirstHalf (code : Nat) : Bool :=
  0xd800 ≤ code && code < 0xdc00

/-- Whether a code unit is the second half of a pair. -/
def isSecondHalf (code : Nat) : Bool :=
  0xdc00 ≤ code && code < 0xe000

/-- The character that a pair of code units stands for. -/
def ofPair (first second : Nat) : Char :=
  Char.ofNat (0x10000 + (first - 0xd800) * 0x400 + (second - 0xdc00))

/-- What follows when all four digits of an escape `\u` are known. -/
def endUnicode (chars : Chars) (first : Option Nat) (code : Nat) : State :=
  match first with
  | some high =>
    .quoted (if isSecondHalf code then chars.map (ofPair high code :: ·) else none)
  | none =>
    if isFirstHalf code then .halfPair chars code
    else .quoted (if isSecondHalf code then none else chars.map (Char.ofNat code :: ·))

/-- The token that a string is. -/
def ofChars : Chars → Token
  | some chars => .text (String.ofList chars.reverse)
  | none => .brokenText

/-- Takes a character of a string. -/
def stepQuoted? (chars : Chars) (c : Char) : Option (List Token × State) :=
  if c = '"' then some ([ofChars chars], .between)
  else if c = '\\' then some ([], .escaped chars)
  else if c.toNat < 0x20 then none
  else some ([], .quoted (chars.map (c :: ·)))

/-- Takes the character after a backslash. -/
def stepEscaped? (chars : Chars) (c : Char) : Option (List Token × State) :=
  if c = 'u' then some ([], .unicode chars none 0 0)
  else (escape? c).map fun e => ([], .quoted (chars.map (e :: ·)))

/-- Takes a character between tokens. -/
def start? (c : Char) : Option (List Token × State) :=
  match c with
  | ' ' | '\t' | '\n' | '\r' => some ([], .between)
  | '[' => some ([.openArray], .between)
  | ']' => some ([.closeArray], .between)
  | '\x7b' => some ([.openObject], .between)
  | '\x7d' => some ([.closeObject], .between)
  | ':' => some ([.colon], .between)
  | ',' => some ([.comma], .between)
  | '"' => some ([], .quoted (some []))
  | c =>
    if c.isDigit ∨ c = '-' then some ([], .numeral [c])
    else if c.isLower then some ([], .word [c])
    else none

/-- Takes one character. The tokens that it completes come first. -/
def step? (state : State) (c : Char) : Option (List Token × State) :=
  match state with
  | .between => start? c
  | .word chars =>
    if c.isLower then some ([], .word (c :: chars))
    else do
      let done ← finish? state
      let (more, next) ← start? c
      return (done ++ more, next)
  | .numeral chars =>
    if isNumeralChar c then some ([], .numeral (c :: chars))
    else do
      let done ← finish? state
      let (more, next) ← start? c
      return (done ++ more, next)
  | .quoted chars => stepQuoted? chars c
  | .escaped chars => stepEscaped? chars c
  | .unicode chars first count code => do
    let code := code * 16 + (← Numeral.hexValue? c)
    if count = 3 then
      return ([], endUnicode chars first code)
    else
      return ([], .unicode chars first (count + 1) code)
  | .halfPair chars first =>
    if c = '\\' then some ([], .halfPairEscaped chars first) else stepQuoted? none c
  | .halfPairEscaped chars first =>
    if c = 'u' then some ([], .unicode chars (some first) 0 0) else stepEscaped? none c

/-- Takes the characters of a text one after the other. Tokens are collected last first. -/
def walk? : List Char → State → List Token → Option (List Token)
  | [], state, done => (finish? state).map fun last => (last ++ done).reverse
  | c :: rest, state, done =>
    match step? state c with
    | none => none
    | some (more, next) => walk? rest next (more.reverse ++ done)

end Token

/-- The tokens of a text. -/
def tokens? (s : String) : Option (List Token) :=
  Token.walk? s.toList .between []

end Interview.Json

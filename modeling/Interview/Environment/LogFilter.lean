import Interview.Numeral.Decimal
import Interview.Numeral.Word
import Interview.Pattern.Reader
import Interview.Text.Utf8

/-!
# Log filters

A log filter is a list of directives between commas. A directive names a target, or a span in
brackets with a field in braces, or a level; a level may also follow another directive and `=`. A
field may ask for a value: a number, or else a pattern. Only whether a filter can be read matters
here, because the log is no part of the answers.

Blanks around a directive are skipped, but the bytes of a field or level are counted from the start
of the blanks. So with blanks in front of it a field or level is read that many bytes too early.
-/

namespace Interview.LogFilter

/-- Where in a directive a character stands. -/
inductive Place where
  | start
  /-- Within the name of a target or level. -/
  | name
  /-- Within brackets. -/
  | span
  /-- Within braces; the first byte of the field. -/
  | field (first : Nat)
  | afterField
  | afterSpan
  /-- After an equals sign; the first byte of the level. -/
  | level (first : Nat)
deriving DecidableEq, Repr

/-- Whether a directive may start with a character. -/
def startsDirective (c : Char) : Bool :=
  Text.isLetterOrNumber c || c = '-' || c = ':' || c = '_'

/-- The text from one byte of a directive up to another one. -/
def slice? (bytes : List UInt8) (first after : Nat) : Option String :=
  (Text.Utf8.decode? ((bytes.take after).drop first)).map String.ofList

/-- Whether a value of a field can be asked for. -/
def isFieldValue (s : String) : Bool :=
  (Numeral.float? s).isSome || Pattern.isValid s

/-- Whether a text asks for a field. What follows an equals sign is its value, up to another equals
sign. -/
def isField (s : String) : Bool :=
  match Text.split '=' s with
  | _ :: value :: _ => isFieldValue value
  | _ => s ≠ ""

/-- The place after one more character, which starts at some byte; none if it cannot stand there. -/
def Place.step (bytes : List UInt8) (position : Nat) (place : Place) (c : Char) : Option Place :=
  match place with
  | start => if c = '[' then some span else if startsDirective c then some name else none
  | name =>
    if c = '=' then some (level (position + 1)) else if c = '[' then some span else some name
  | span =>
    if c = ']' then some afterSpan
    else if c = '\x7b' then some (field (position + 1))
    else some span
  | field first =>
    if c = '\x7d' then
      if (slice? bytes first position).any isField then some afterField else none
    else
      some (field first)
  | afterField => if c = ']' then some afterSpan else none
  | afterSpan => if c = '=' then some (level (position + 1)) else none
  | level first => some (level first)

/-- The place after some characters, the first of which starts at some byte. -/
def Place.walk (bytes : List UInt8) : Nat → Place → List Char → Option Place
  | _, place, [] => some place
  | position, place, c :: rest =>
    (place.step bytes position c).bind fun place =>
      Place.walk bytes (position + c.utf8Size) place rest

/-- The names of the levels. -/
def levelNames : List String := ["off", "error", "warn", "info", "debug", "trace"]

/-- Whether a text is a level: a name in any letter case, a number up to five, or nothing. -/
def isLevel (s : String) : Bool :=
  s = "" || levelNames.contains (Text.lower s) || (Numeral.word? s).any (· < levelNames.length)

/-- Whether a directive may end at a place. -/
def Place.isEnd (bytes : List UInt8) : Place → Bool
  | name | afterSpan => true
  | level first => (slice? bytes first bytes.length).any isLevel
  | start | span | field _ | afterField => false

/-- Whether a directive can be read. -/
def isDirective (s : String) : Bool :=
  let bytes := Text.Utf8.encode s
  (Place.walk bytes 0 .start (Text.trimChars s.toList)).any (Place.isEnd bytes)

/-- Whether a log filter can be read. -/
def isValid (s : String) : Bool :=
  ((Text.split ',' s).filter (· ≠ "")).all isDirective

end Interview.LogFilter

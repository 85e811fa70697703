import Interview.Text.Blank
import Interview.Text.Utf8

/-!
# Lines of a settings file

A line of a settings file is a row of the file, or several rows when a quoted text goes on over
them. A comment ends its row: it starts with a number sign that follows a blank outside quotes, or
that nothing but blanks precedes. A file must not end within a line.

The start of a comment is counted in the bytes of the row it is in. When that row is not the first
one of its line, so many bytes of the line are kept.
-/

namespace Interview.SettingsFile

/-- Where in a line a character stands. -/
inductive Place where
  | plain
  /-- After a blank. -/
  | blank
  /-- After a backslash. -/
  | escaped
  | quoted (quote : Char)
  /-- After a backslash within quotes. -/
  | quotedEscaped (quote : Char)
deriving DecidableEq, Repr

/-- Whether a character opens a quoted text. -/
def isQuote (c : Char) : Bool :=
  c = '\'' || c = '"'

/-- Whether a character ends a row. -/
def isRowEnd (c : Char) : Bool :=
  c = '\n' || c = '\r'

/-- The place after a character outside quotes. -/
def Place.ofChar (c : Char) : Place :=
  if c = '\\' then escaped else if isQuote c then quoted c else plain

/-- The place after one more character; none if a comment starts there. Of blanks in a row only
every other one counts. -/
def Place.step (place : Place) (c : Char) : Option Place :=
  match place with
  | plain => some (if Text.isBlank c && !isRowEnd c then blank else ofChar c)
  | blank => if c = '#' then none else some (ofChar c)
  | escaped => some plain
  | quoted quote =>
    some (if c = '\\' then quotedEscaped quote else if c = quote then plain else quoted quote)
  | quotedEscaped quote => some (quoted quote)

/-- The place after a row, or the part of the row in front of a comment. -/
def Place.walk : Place → List Char → Except (List Char) Place
  | place, [] => .ok place
  | place, c :: rest =>
    match place.step c with
    | some next => (next.walk rest).mapError (c :: ·)
    | none => .error []

/-- The rows of a file, each with the character that ends it. -/
def rows : List Char → List (List Char)
  | [] => []
  | c :: rest =>
    if c = '\n' then
      [c] :: rows rest
    else
      match rows rest with
      | [] => [[c]]
      | row :: more => (c :: row) :: more

/-- Whether nothing but a comment follows the blanks in front of a text. -/
def isComment (cs : List Char) : Bool :=
  (Text.dropBlanks cs).head? = some '#'

/-- The text that starts a line, as long as a given one in bytes. -/
def cutAs (line before : List Char) : Option (List Char) :=
  Text.Utf8.decode?
    ((Text.Utf8.encode (String.ofList line)).take (String.ofList before).utf8ByteSize)

/-- The lines of some rows, given the part of the first line that other rows hold and the place
after it. The last line is none if the file ends within it. -/
def linesFrom (start : List Char) (place : Place) : List (List Char) → List (Option (List Char))
  | [] => if place = .plain then [] else [none]
  | row :: more =>
    let line := start ++ row
    if isComment line then
      some [] :: linesFrom [] .plain more
    else
      match place.walk row with
      | .error before => cutAs line before :: linesFrom [] .plain more
      | .ok .plain => some line :: linesFrom [] .plain more
      | .ok next => linesFrom line next more

/-- The lines of a settings file. A mark of the byte order in front of them is skipped. -/
def lines (file : List Char) : List (Option (List Char)) :=
  linesFrom [] .plain (rows (if file.head? = some '\ufeff' then file.tail else file))

/-- A quoted text goes on over rows, and a blank at the end of a file leaves its line open. -/
example : lines "A='x\ny'\n  # no\nB=z ".toList
    = [some "A='x\ny'\n".toList, some [], none] := by decide +kernel

end Interview.SettingsFile

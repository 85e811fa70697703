import Interview.Environment.Variables
import Interview.Text.Letter

/-!
# Values in a settings file

A value goes up to the first blank outside quotes, behind which only a comment may stand. A
backslash escapes the character behind it, except within single quotes. There a dollar sign stands
for itself too; elsewhere it puts in the variable whose name follows, with or without braces around
it. A variable that is not set is empty.
-/

namespace Interview.SettingsFile

/-- Where in a value a character stands. The quote that is open is part of most places. -/
inductive ValuePlace where
  | text (quote : Option Char)
  /-- After a backslash. -/
  | escaped (quote : Option Char)
  /-- Within the name of a variable. -/
  | name (quote : Option Char) (read : List Char)
  /-- Within the name of a variable in braces. -/
  | bracedName (quote : Option Char) (read : List Char)
  /-- After the value. -/
  | finish
deriving DecidableEq, Repr

/-- What a character stands for after a backslash. -/
def escaped? : Char → Option Char
  | 'n' => some '\n'
  | '\\' => some '\\'
  | '\'' => some '\''
  | '"' => some '"'
  | '$' => some '$'
  | ' ' => some ' '
  | _ => none

/-- What is put in for a variable. -/
def valueOf (vars : Variables) (name : List Char) : List Char :=
  ((vars.get? (String.ofList name)).getD "").toList

/-- What one more character adds to a value, and the place after it; none if it cannot stand
there. -/
def ValuePlace.step (vars : Variables) (place : ValuePlace) (c : Char) :
    Option (List Char × ValuePlace) :=
  match place with
  | text (some '\'') => if c = '\'' then some ([], text none) else some ([c], place)
  | text quote =>
    if c = '$' then some ([], name quote [])
    else if c = '\\' then some ([], escaped quote)
    else if some c = quote then some ([], text none)
    else if quote.isSome then some ([c], place)
    else if c = '\'' ∨ c = '"' then some ([], text (some c))
    else if c = ' ' ∨ c = '\t' then some ([], finish)
    else some ([c], place)
  | escaped quote => (escaped? c).map fun c => ([c], text quote)
  | name quote read =>
    if Text.isLetterOrNumber c then some ([], name quote (read ++ [c]))
    else if c = '\x7b' ∧ read = [] then some ([], bracedName quote [])
    else if c = '$' then some (valueOf vars read, name quote [])
    else some (valueOf vars read ++ [c], text quote)
  | bracedName quote read =>
    if c = '\x7d' then some (valueOf vars read, text quote)
    else some ([], bracedName quote (read ++ [c]))
  | finish => if c = ' ' ∨ c = '\t' then some ([], finish) else none

/-- What the end of a value adds to it; none if the value cannot end at the place. -/
def ValuePlace.atEnd? (vars : Variables) : ValuePlace → Option (List Char)
  | text none | escaped none | finish => some []
  | name none read => some (valueOf vars read)
  | text (some _) | escaped (some _) | name (some _) _ | bracedName _ _ => none

/-- The value that a text spells from a place on. -/
def readFrom? (vars : Variables) : ValuePlace → List Char → Option (List Char)
  | place, [] => place.atEnd? vars
  | .finish, '#' :: _ => some []
  | place, c :: rest => do
    let (added, next) ← place.step vars c
    return added ++ (← readFrom? vars next rest)

/-- The value that a text spells. -/
def readValue? (vars : Variables) (cs : List Char) : Option (List Char) :=
  readFrom? vars (.text none) cs

/-- Single quotes keep a backslash and a dollar sign; elsewhere a backslash escapes the sign. -/
example : readValue? (.insert .empty "A" "x") "'\\$'\\$$A-\"$\x7bA\x7d\" # no".toList
    = some "\\$$x-x".toList := by decide +kernel

end Interview.SettingsFile

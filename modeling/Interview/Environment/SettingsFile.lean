import Interview.Environment.SettingsFile.Lines
import Interview.Environment.SettingsFile.Value

/-!
# Settings files

A settings file sets variables that the surroundings leave unset. Its lines have the form
`NAME=value`; the word `export` may precede the name. The first line that cannot be read ends the
file.
-/

namespace Interview.SettingsFile

/-- What a line of a settings file says. -/
inductive Line where
  /-- Nothing: the line is blank or a comment. -/
  | empty
  | setting (name value : String)
  | unreadable
deriving DecidableEq, Repr

/-- Whether a name may start with a character. -/
def startsName (c : Char) : Bool :=
  c.isAlpha || c = '_'

/-- Whether a character may stand inside a name. -/
def continuesName (c : Char) : Bool :=
  c.isAlphanum || c = '_' || c = '.'

/-- The name that a text starts with, and the text after it. -/
def readName? (cs : List Char) : Option (List Char × List Char) :=
  if cs.head?.any startsName then some (cs.span continuesName) else none

/-- An assignment without the word `export` in front of it. The word is a name of its own where an
equals sign follows it. -/
def dropExport (cs : List Char) : List Char :=
  match readName? cs with
  | some (['e', 'x', 'p', 'o', 'r', 't'], rest) =>
    let rest := Text.dropBlanks rest
    if rest.head? = some '=' then cs else rest
  | _ => cs

/-- Whether nothing but a comment follows the blanks in front of a text. -/
def endsLine (cs : List Char) : Bool :=
  (Text.dropBlanks cs).isEmpty || isComment cs

/-- Reads an assignment. -/
def readAssignment (vars : Variables) (cs : List Char) : Line :=
  match readName? cs with
  | none => .unreadable
  | some (name, rest) =>
    match Text.dropBlanks rest with
    | '=' :: rest =>
      match if endsLine rest then some [] else readValue? vars (Text.dropBlanks rest) with
      | some value => .setting (String.ofList name) (String.ofList value)
      | none => .unreadable
    | _ => .unreadable

/-- Reads a line. -/
def readLine (vars : Variables) (line : List Char) : Line :=
  let cs := Text.trimChars line
  if endsLine cs then .empty else readAssignment vars (dropExport cs)

end Interview.SettingsFile

namespace Interview.Variables

/-- Sets the variables of some lines, up to the first one that cannot be read. -/
def fillLines (vars : Variables) : List (Option (List Char)) → Variables
  | some line :: lines =>
    match SettingsFile.readLine vars line with
    | .empty => vars.fillLines lines
    | .setting name value => (vars.setDefault name value).fillLines lines
    | .unreadable => vars
  | none :: _ | [] => vars

/-- The variables with those of a settings file for what they leave unset. -/
def fillFrom (vars : Variables) (file : List Char) : Variables :=
  vars.fillLines (SettingsFile.lines file)

end Interview.Variables

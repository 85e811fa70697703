import Interview.Numeral.Digits
import Interview.Pattern.Basic
import Interview.Text.Blank
import Interview.Text.Letter

/-!
# Reading patterns

A pattern that is the value of a field in a log filter holds no closing brace, because that ends the
field. So no number in braces can follow a part, and an opening brace can only stand for itself: in
brackets or after a backslash.

The reader takes one part after the other and keeps the groups that are still open on a stack. Every
part takes at least one character, so the length of the text bounds the number of parts.
-/

namespace Interview.Pattern

/-! ## Blanks and comments -/

/-- Skips blanks and comments. The first argument says whether a comment is open. -/
def skipBlanks : Bool → List Char → List Char
  | _, [] => []
  | true, c :: rest => skipBlanks (c ≠ '\n') rest
  | false, c :: rest =>
    if Text.isBlank c then skipBlanks false rest
    else if c = '#' then skipBlanks true rest
    else c :: rest

/-- The text that counts next. -/
def ahead (verbose : Bool) (cs : List Char) : List Char :=
  if verbose then skipBlanks false cs else cs

/-- The character that comes after blanks and the start of a comment. -/
def peek? (verbose : Bool) (cs : List Char) : Option Char :=
  if verbose then
    match Text.dropBlanks cs with
    | '#' :: rest => (Text.dropBlanks rest).head?
    | rest => rest.head?
  else
    cs.head?

/-! ## Escapes -/

/-- Reads hexadecimal digits. -/
def readHex? (verbose : Bool) : Nat → Nat → List Char → Option (Nat × List Char)
  | 0, code, cs => some (code, ahead verbose cs)
  | count + 1, code, cs =>
    match ahead verbose cs with
    | [] => none
    | c :: rest => do readHex? verbose count (code * 16 + (← Numeral.hexValue? c)) rest

/-- Reads a character that is given by its code. -/
def readCode? (verbose : Bool) (count : Nat) (cs : List Char) : Option (Primitive × List Char) := do
  let (code, rest) ← readHex? verbose count 0 cs
  if count = 2 ∧ 128 ≤ code then return (.byte code, rest)
  else if code.isValidChar then return (.char (Char.ofNat code), rest)
  else none

/-- Reads the name of a property. -/
def readProperty? (verbose : Bool) (cs : List Char) : Option (Primitive × List Char) :=
  match ahead verbose cs with
  | [] => none
  | c :: rest => if c = '\\' ∨ c = '\x7b' then none else some (.property, ahead verbose rest)

/-- What a letter stands for after a backslash. -/
def escape? : Char → Option Primitive
  | 'd' | 's' | 'w' => some (.shorthand false)
  | 'D' | 'S' | 'W' => some (.shorthand true)
  | 'A' | 'z' => some .anchor
  | 'b' | 'B' | '<' | '>' => some .wordBoundary
  | 'a' => some (.char '\x07')
  | 'f' => some (.char '\x0c')
  | 't' => some (.char '\t')
  | 'n' => some (.char '\n')
  | 'r' => some (.char '\r')
  | 'v' => some (.char '\x0b')
  | _ => none

/-- Reads what follows a backslash. All of ASCII but letters and digits stands for itself. -/
def readEscape? (verbose : Bool) : List Char → Option (Primitive × List Char)
  | [] => none
  | c :: rest =>
    match c with
    | 'x' => readCode? verbose 2 rest
    | 'u' => readCode? verbose 4 rest
    | 'U' => readCode? verbose 8 rest
    | 'p' | 'P' => readProperty? verbose rest
    | c =>
      match escape? c with
      | some p => some (p, rest)
      | none => if c.isAlphanum ∨ 128 ≤ c.toNat then none else some (.char c, rest)

/-! ## Sets -/

/-- A set between whose brackets the reader stands. -/
structure OpenSet where
  /-- Whether nothing but hyphens has been read. -/
  isNew : Bool
  /-- What is before the last sign of an operation. -/
  left : Option CharSet
  /-- What is after it, the last first. -/
  items : List CharSet

namespace OpenSet

/-- A set of which nothing has been read. -/
def empty : OpenSet := ⟨true, none, []⟩

/-- The set with one more item. -/
def add (s : OpenSet) (item : CharSet) : OpenSet :=
  { s with isNew := false, items := item :: s.items }

/-- The set with a hyphen in front of all else. -/
def addHyphen (s : OpenSet) : OpenSet :=
  { s with items := .single (.char '-') :: s.items }

/-- What has been read. -/
def body (s : OpenSet) : CharSet :=
  let items := match s.items with
    | [item] => item
    | items => .union items.reverse
  s.left.elim items (.operation · items)

/-- The set after the sign of an operation. -/
def operate (s : OpenSet) : OpenSet :=
  ⟨false, some s.body, []⟩

end OpenSet

/-- The names of sets of ASCII characters. -/
def setNames : List String :=
  ["alnum", "alpha", "ascii", "blank", "cntrl", "digit", "graph", "lower", "print", "punct",
    "space", "upper", "word", "xdigit"]

/-- Reads the name of a set between colons, which ends with the bracket that is open. -/
def readNamed? : List Char → Option (CharSet × List Char)
  | ':' :: rest =>
    let (negated, rest) := match rest with
      | '^' :: rest => (true, rest)
      | rest => (false, rest)
    let (name, rest) := rest.span (· ≠ ':')
    match rest with
    | ':' :: ']' :: rest =>
      if setNames.contains (String.ofList name) then some (.named negated, rest) else none
    | _ => none
  | _ => none

/-- Reads the sign behind an opening bracket that asks for all other characters. -/
def readNegation (verbose : Bool) (cs : List Char) : Bool × List Char :=
  match ahead verbose cs with
  | '^' :: rest => (true, rest)
  | rest => (false, rest)

/-- Reads a part inside brackets. -/
def readMember? (verbose : Bool) : List Char → Option (Primitive × List Char)
  | [] => none
  | '\\' :: rest => readEscape? verbose rest
  | c :: rest => some (.char c, rest)

/-- The range between two parts. -/
def range? (first last : Primitive) : Option CharSet := do
  if (← first.code?) ≤ (← last.code?) then return .range first last else none

/-- The set that a part is. -/
def single? : Primitive → Option CharSet
  | .anyChar | .anchor | .wordBoundary => none
  | p => some (.single p)

/-- Reads a part or range inside brackets. A hyphen makes a range unless a bracket or another hyphen
follows it. -/
def readItem? (verbose : Bool) (cs : List Char) : Option (CharSet × List Char) := do
  let (first, rest) ← readMember? verbose cs
  match ahead verbose rest with
  | [] => none
  | '-' :: after =>
    if peek? verbose after = some ']' ∨ peek? verbose after = some '-' then
      return (← single? first, '-' :: after)
    else
      let (last, rest) ← readMember? verbose (ahead verbose after)
      return (← range? first last, rest)
  | rest => return (← single? first, rest)

/-- Reads a set up to the bracket that closes it. -/
def readSet? (verbose : Bool) : Nat → OpenSet → List Char → Option (CharSet × List Char)
  | 0, _, _ => none
  | fuel + 1, s, cs =>
    match ahead verbose cs with
    | ']' :: rest =>
      if s.isNew ∧ s.items.isEmpty then
        readSet? verbose fuel (s.add (.single (.char ']'))) rest
      else
        some (s.body, rest)
    | '[' :: rest =>
      match readNamed? rest with
      | some (named, rest) => readSet? verbose fuel (s.add named) rest
      | none => do
        let (negated, rest) := readNegation verbose rest
        let (body, rest) ← readSet? verbose fuel .empty rest
        readSet? verbose fuel (s.add (.brackets negated body)) rest
    | '-' :: rest =>
      if s.isNew then readSet? verbose fuel s.addHyphen rest
      else
        match rest with
        | '-' :: rest => readSet? verbose fuel s.operate rest
        | rest => do
          let (item, rest) ← readItem? verbose ('-' :: rest)
          readSet? verbose fuel (s.add item) rest
    | '&' :: '&' :: rest => readSet? verbose fuel s.operate rest
    | '~' :: '~' :: rest => readSet? verbose fuel s.operate rest
    | cs => do
      let (item, rest) ← readItem? verbose cs
      readSet? verbose fuel (s.add item) rest

/-! ## Groups -/

/-- The flag that a letter names. -/
def flag? : Char → Option Flag
  | 'i' => some .ignoreCase
  | 'm' => some .multiLine
  | 's' => some .dotMatchesLineEnd
  | 'U' => some .swapGreed
  | 'u' => some .unicode
  | 'R' => some .carriageReturns
  | 'x' => some .verbose
  | _ => none

/-- Reads flags up to a colon or closing parenthesis. A hyphen switches off what follows it; it is
written once at most, and so is each flag. -/
def readFlags? (on : Bool) (change : FlagChange) : List Char → Option (FlagChange × List Char)
  | [] => none
  | c :: rest =>
    if c = ':' ∨ c = ')' then
      some (change, c :: rest)
    else if c = '-' then
      match rest with
      | next :: _ => if on ∧ next ≠ ':' ∧ next ≠ ')' then readFlags? false change rest else none
      | [] => none
    else do
      let flag ← flag? c
      if (change.lookup flag).isSome then none else readFlags? on ((flag, on) :: change) rest

/-- Whether a text can be the name of a group. -/
def isGroupName : List Char → Bool
  | [] => false
  | c :: rest =>
    (c = '_' || Text.isLetter c)
      && rest.all fun c => c = '_' || c = '.' || c = '[' || c = ']' || Text.isLetterOrNumber c

/-- What comes with an opening parenthesis. -/
inductive Opening where
  /-- Flags for the rest of the group around it. -/
  | flags (change : FlagChange)
  /-- A group with flags, and with a name if it has one. -/
  | group (change : FlagChange) (name : Option String)

/-- Reads the name of a group up to the angle bracket behind it. -/
def readGroupName? (cs : List Char) : Option (Opening × List Char) :=
  let (name, rest) := cs.span (· ≠ '>')
  match rest with
  | _ :: rest => if isGroupName name then some (.group [] (String.ofList name), rest) else none
  | [] => none

/-- Reads what comes with an opening parenthesis. A group does not look ahead or behind. -/
def readOpening? (verbose : Bool) (cs : List Char) : Option (Opening × List Char) :=
  match ahead verbose cs with
  | '?' :: '=' :: _ | '?' :: '!' :: _ | '?' :: '<' :: '=' :: _ | '?' :: '<' :: '!' :: _ => none
  | '?' :: 'P' :: '<' :: rest | '?' :: '<' :: rest => readGroupName? rest
  | '?' :: rest =>
    match readFlags? true [] rest with
    | some (change, ':' :: rest) => some (.group change none, rest)
    | some (change, _ :: rest) => if change = [] then none else some (.flags change, rest)
    | _ => none
  | rest => some (.group [] none, rest)

/-! ## Patterns -/

/-- A group whose end has not been read. -/
structure OpenGroup where
  /-- The choices that are complete, the last first. -/
  choices : List Pattern
  /-- The parts of the choice that is not, the last first. -/
  parts : List Pattern
  change : FlagChange
  verbose : Bool

namespace OpenGroup

/-- A group of which nothing has been read. -/
def empty (change : FlagChange) (verbose : Bool) : OpenGroup :=
  ⟨[], [], change, (change.lookup .verbose).getD verbose⟩

/-- The group with one more part. -/
def add (g : OpenGroup) (p : Pattern) : OpenGroup :=
  { g with parts := p :: g.parts }

/-- The choice that is not complete. -/
def lastChoice (g : OpenGroup) : Pattern :=
  match g.parts with
  | [p] => p
  | ps => .sequence ps.reverse

/-- The group at the start of another choice. -/
def addChoice (g : OpenGroup) : OpenGroup :=
  { g with choices := g.lastChoice :: g.choices, parts := [] }

/-- What has been read. -/
def body (g : OpenGroup) : Pattern :=
  if g.choices.isEmpty then g.lastChoice else .choice (g.lastChoice :: g.choices).reverse

/-- The group with its last part repeated. Flags are not a part that can be. -/
def repeat? (g : OpenGroup) : Option OpenGroup :=
  match g.parts with
  | [] | .flags _ :: _ => none
  | p :: ps => some { g with parts := .repetition p :: ps }

end OpenGroup

/-- Reads a pattern within a group, in the groups around it, given the names of groups so far. -/
def readParts? : Nat → List String → List OpenGroup → OpenGroup → List Char → Option Pattern
  | 0, _, _, _, _ => none
  | fuel + 1, names, around, g, cs =>
    match ahead g.verbose cs with
    | [] => if around.isEmpty then some g.body else none
    | '(' :: rest => do
      match ← readOpening? g.verbose rest with
      | (.flags change, rest) =>
        let g := { g.add (.flags change) with
          verbose := (change.lookup .verbose).getD g.verbose }
        readParts? fuel names around g rest
      | (.group change name, rest) =>
        if name.any names.contains then none
        else readParts? fuel (name.toList ++ names) (g :: around) (.empty change g.verbose) rest
    | ')' :: rest =>
      match around with
      | [] => none
      | outer :: around => readParts? fuel names around (outer.add (.group g.change g.body)) rest
    | '|' :: rest => readParts? fuel names around g.addChoice rest
    | '[' :: rest => do
      let (negated, rest) := readNegation g.verbose rest
      let (body, rest) ← readSet? g.verbose (rest.length + 1) .empty rest
      readParts? fuel names around (g.add (.set negated body)) rest
    | '?' :: rest | '*' :: rest | '+' :: rest => do
      readParts? fuel names around (← g.repeat?)
        (if rest.head? = some '?' then rest.drop 1 else rest)
    | '\x7b' :: _ => none
    | '\\' :: rest => do
      let (p, rest) ← readEscape? g.verbose rest
      readParts? fuel names around (g.add (.primitive p)) rest
    | '.' :: rest => readParts? fuel names around (g.add (.primitive .anyChar)) rest
    | '^' :: rest | '$' :: rest => readParts? fuel names around (g.add (.primitive .anchor)) rest
    | c :: rest => readParts? fuel names around (g.add (.primitive (.char c))) rest

/-- The pattern that a text is. -/
def ofString? (s : String) : Option Pattern :=
  readParts? (s.length + 1) [] [] (.empty [] false) s.toList

/-- Whether a text is a pattern for which a matcher can be built. -/
def isValid (s : String) : Bool :=
  (ofString? s).any hasMatcher

/-- A part can be repeated and that repeated again, but nothing cannot. -/
example : isValid "a**" = true ∧ isValid "|*" = false := by decide +kernel

/-- A bracket that is the first in a set stands for itself. -/
example : isValid "[]a]" = true ∧ isValid "[]" = false := by decide +kernel

/-- There are no tables of digits other than those of ASCII. -/
example : isValid "\\d" = false ∧ isValid "(?-u)\\d" = true := by decide +kernel

end Interview.Pattern

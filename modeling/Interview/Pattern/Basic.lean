/-!
# Patterns

A pattern describes texts. It is built of single characters, anchors, and sets of characters in
brackets; of repetitions and groups; and of flags that change what follows them in their group. The
tree keeps of each part what decides whether a matcher can be built for the pattern, and leaves out
what only matters for a match, such as how often a repetition goes.
-/

namespace Interview

namespace Pattern

/-- What can be switched on or off within a pattern. -/
inductive Flag where
  | ignoreCase
  | multiLine
  | dotMatchesLineEnd
  | swapGreed
  /-- Characters are those of Unicode, and not bytes. -/
  | unicode
  | carriageReturns
  /-- Blanks and comments in the pattern are left out. -/
  | verbose
deriving DecidableEq, Repr

/-- Flags, and whether they are switched on. -/
abbrev FlagChange := List (Flag × Bool)

/-- A part of a pattern that has no parts. -/
inductive Primitive where
  | char (c : Char)
  /-- A byte past ASCII, or the character with that code. -/
  | byte (code : Nat)
  | anyChar
  /-- The start or end of a line or of the text. -/
  | anchor
  | wordBoundary
  /-- One of the shorthands for digits, blanks, and characters of words, or for all others. -/
  | shorthand (negated : Bool)
  /-- The characters with some property. -/
  | property
deriving DecidableEq, Repr

/-- The code of a part that is one character. -/
def Primitive.code? : Primitive → Option Nat
  | char c => some c.toNat
  | byte code => some code
  | _ => none

/-- What stands between the brackets of a set of characters. -/
inductive CharSet where
  | single (p : Primitive)
  | range (first last : Primitive)
  /-- A set of ASCII characters that has a name, or all others. -/
  | named (negated : Bool)
  | union (items : List CharSet)
  /-- A set in brackets of its own. -/
  | brackets (negated : Bool) (body : CharSet)
  /-- What two sets have in common, or only the first, or only one of them. -/
  | operation (left right : CharSet)

end Pattern

/-- A pattern. -/
inductive Pattern where
  | flags (change : Pattern.FlagChange)
  | primitive (p : Pattern.Primitive)
  | set (negated : Bool) (body : Pattern.CharSet)
  | repetition (p : Pattern)
  | group (change : Pattern.FlagChange) (p : Pattern)
  | sequence (ps : List Pattern)
  | choice (ps : List Pattern)

namespace Pattern

/-! ## Depth -/

mutual

/-- How deep a set is nested. -/
def CharSet.depth : CharSet → Nat
  | .single _ | .range _ _ | .named _ | .union [] => 0
  | .union (item :: rest) => CharSet.depthOfAll (item :: rest) + 1
  | .brackets _ body => body.depth + 1
  | .operation left right => max left.depth right.depth + 1

/-- How deep the deepest of some sets is nested. -/
def CharSet.depthOfAll : List CharSet → Nat
  | [] => 0
  | item :: rest => max item.depth (CharSet.depthOfAll rest)

end

mutual

/-- How deep a pattern is nested. -/
def depth : Pattern → Nat
  | .flags _ | .primitive _ | .sequence [] => 0
  | .set _ body => body.depth + 1
  | .repetition p | .group _ p => p.depth + 1
  | .sequence (p :: ps) | .choice (p :: ps) => depthOfAll (p :: ps) + 1
  | .choice [] => 1

/-- How deep the deepest of some patterns is nested. -/
def depthOfAll : List Pattern → Nat
  | [] => 0
  | p :: ps => max p.depth (depthOfAll ps)

end

/-! ## Matchers -/

/-- The flags that decide what a matcher can be built for. -/
structure Mode where
  ignoreCase : Bool
  unicode : Bool
deriving DecidableEq, Repr

namespace Mode

/-- The mode at the start of a pattern. -/
def default : Mode := ⟨false, true⟩

/-- The mode after a change of flags. -/
def change (m : Mode) (flags : FlagChange) : Mode :=
  ⟨(flags.lookup .ignoreCase).getD m.ignoreCase, (flags.lookup .unicode).getD m.unicode⟩

/-- Whether letters of all alphabets would have to be compared in either case, for which there are
no tables. -/
def foldsAllCases (m : Mode) : Bool :=
  m.ignoreCase && m.unicode

end Mode

/-- Whether a matcher can be built for a part. There are no tables of the properties of characters,
and a matcher must not stop inside a character. -/
def Primitive.hasMatcher (m : Mode) : Primitive → Bool
  | char _ => !m.foldsAllCases
  | byte _ => m.unicode && !m.ignoreCase
  | anyChar => m.unicode
  | anchor => true
  | wordBoundary => !m.unicode
  | shorthand negated => !m.unicode && !negated
  | property => false

/-- Whether a matcher can be built for a part inside brackets. A set of bytes is one of ASCII. -/
def Primitive.hasMatcherInSet (m : Mode) (p : Primitive) : Bool :=
  p.hasMatcher m && (m.unicode || p.code?.all (· < 128))

mutual

/-- Whether a matcher can be built for a set. -/
def CharSet.hasMatcher (m : Mode) : CharSet → Bool
  | .single p => p.hasMatcherInSet m
  | .range first last => first.hasMatcherInSet m && last.hasMatcherInSet m
  | .named negated => !m.foldsAllCases && (m.unicode || !negated)
  | .union items => CharSet.haveMatchers m items
  | .brackets negated body => (m.unicode || !negated) && body.hasMatcher m
  | .operation left right => left.hasMatcher m && right.hasMatcher m

/-- Whether matchers can be built for some sets. -/
def CharSet.haveMatchers (m : Mode) : List CharSet → Bool
  | [] => true
  | item :: rest => item.hasMatcher m && CharSet.haveMatchers m rest

end

mutual

/-- The mode after a pattern, if a matcher can be built for it. -/
def modeAfter? (m : Mode) : Pattern → Option Mode
  | .flags change => some (m.change change)
  | .primitive p => if p.hasMatcher m then some m else none
  | .set negated body => if (CharSet.brackets negated body).hasMatcher m then some m else none
  | .repetition p => p.modeAfter? m
  | .group change p => (p.modeAfter? (m.change change)).map fun _ => m
  | .sequence ps | .choice ps => modeAfterAll? m ps

/-- The mode after some patterns, if matchers can be built for them. -/
def modeAfterAll? (m : Mode) : List Pattern → Option Mode
  | [] => some m
  | p :: ps => (p.modeAfter? m).bind fun m => modeAfterAll? m ps

end

/-- How deep a pattern may be nested. -/
def maxDepth : Nat := 250

/-- Whether a matcher can be built for a pattern. -/
def hasMatcher (p : Pattern) : Bool :=
  p.depth ≤ maxDepth && (p.modeAfter? .default).isSome

end Pattern

end Interview

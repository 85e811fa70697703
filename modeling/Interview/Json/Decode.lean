import Interview.Json.Basic

/-!
# Decoding documents

How the values of a document are read from JSON. Fields that a document does not know are ignored;
a field that it knows may be written once only. A field is *required*; or *optional*, when it may be
absent or `null`; or it has a *default* for its absence, and then it may not be `null`. Nothing is
coerced from one JSON type to another.

A part that is ignored may be of any kind, even without a value. But where the kind of a thing is
found out only after its parts have been read, all of them are *kept* till then, and so all of them
have to be usable. Names of kinds may be written a little more freely in what has been kept.
-/

namespace Interview.Json

variable {α : Type}

/-- Why a value of a document is refused. -/
inductive DecodeError where
  /-- The value does not have the JSON type that it should have. -/
  | mismatch (expected : String)
  /-- A required field is absent. -/
  | absent (field : String)
  /-- A known field is written more than once. -/
  | doubled (field : String)
  /-- A name is none of the names that may stand here. -/
  | unknownName (name : String)
  /-- A text that should be a date is none. -/
  | notADate (text : String)
  /-- A number is past the largest double. -/
  | outOfRange
  /-- A part that is kept has no value. -/
  | unusable
  /-- A condition is refused for a reason of its own. -/
  | condition (reason : String)
deriving DecidableEq, Repr

/-- A decoded value, or why there is none. -/
abbrev Decoded (α : Type) := Except DecodeError α

/-! ## Values -/

/-- The fields of an object. -/
def fields : Json → Decoded (List (String × Json))
  | .object fields => .ok fields
  | _ => .error (.mismatch "object")

/-- A truth value. -/
def toBool : Json → Decoded Bool
  | .bool b => .ok b
  | _ => .error (.mismatch "boolean")

/-- A text. -/
def toText : Json → Decoded String
  | .string s => .ok s
  | _ => .error (.mismatch "string")

/-- A double. -/
def toFloat : Json → Decoded Float
  | .number n =>
    match n.float? with
    | some x => .ok x
    | none => .error .outOfRange
  | _ => .error (.mismatch "number")

/-- The items of an array, each decoded. -/
def toList (item : Json → Decoded α) : Json → Decoded (List α)
  | .array items => items.mapM item
  | _ => .error (.mismatch "array")

/-- A value, or `null`. -/
def toOption (value : Json → Decoded α) : Json → Decoded (Option α)
  | .null => .ok none
  | j => (value j).map some

/-- A value that is kept till its kind is known. -/
def kept (j : Json) : Decoded Json :=
  if j.isUsable then .ok j else .error .unusable

/-! ## Names -/

/-- The thing with a given name. -/
def ofName (all : List α) (name : α → String) (s : String) : Decoded α :=
  match all.find? (name · == s) with
  | some a => .ok a
  | none => .error (.unknownName s)

/-- The kind of an object. -/
def toKind (all : List α) (name : α → String) (j : Json) : Decoded α := do
  ofName all name (← j.toText)

/-- The kind of an object that has been kept. It may be written as its position among all kinds. -/
def toKeptKind (all : List α) (name : α → String) : Json → Decoded α
  | .number n =>
    match n.natural?.bind (all[·]?) with
    | some a => .ok a
    | none => .error (.mismatch "name")
  | j => toKind all name j

/-- Whether a value stands for nothing. -/
def isNothing : Json → Bool
  | .null => true
  | _ => false

/-- Whether a value that has been kept stands for nothing. -/
def isKeptNothing : Json → Bool
  | .null | .object [] => true
  | _ => false

/-- One of several things, written as its name, or as an object with nothing under that name. -/
def toNamedBy (isNothing : Json → Bool) (all : List α) (name : α → String) : Json → Decoded α
  | .string s => ofName all name s
  | .object [(s, content)] =>
    if isNothing content then ofName all name s else .error (.mismatch "null")
  | _ => .error (.mismatch "name")

/-- One of several things, by its name. -/
def toNamed (all : List α) (name : α → String) : Json → Decoded α :=
  toNamedBy isNothing all name

/-- One of several things, by its name, in what has been kept. -/
def toKeptNamed (all : List α) (name : α → String) : Json → Decoded α :=
  toNamedBy isKeptNothing all name

/-! ## Fields -/

/-- The value of a field, if it is written; it may be written under one of several names. -/
def sole? (names : List String) (fields : List (String × Json)) : Decoded (Option Json) :=
  match fields.filter (names.contains ·.1) with
  | [] => .ok none
  | [field] => .ok (some field.2)
  | field :: _ => .error (.doubled field.1)

/-- A required field. -/
def required (name : String) (value : Json → Decoded α) (fields : List (String × Json)) :
    Decoded α := do
  match ← sole? [name] fields with
  | some j => value j
  | none => .error (.absent name)

/-- A field that may be absent or `null`. -/
def optional (name : String) (value : Json → Decoded α) (fields : List (String × Json)) :
    Decoded (Option α) := do
  match ← sole? [name] fields with
  | some j => toOption value j
  | none => .ok none

/-- A field with a default for its absence. -/
def defaulted (name : String) (value : Json → Decoded α) (default : α)
    (fields : List (String × Json)) : Decoded α := do
  match ← sole? [name] fields with
  | some j => value j
  | none => .ok default

/-- A truth value that is false in the absence of its field. -/
def flag (name : String) (fields : List (String × Json)) : Decoded Bool :=
  defaulted name toBool false fields

/-- Whether one field is written before another one. -/
def isBefore (name other : String) (fields : List (String × Json)) : Bool :=
  (fields.find? fun field => field.1 == name || field.1 == other).any (·.1 == name)

/-- Decodes the value of the field `name`, which awaits the kind in the field `tag`: it is kept if
it is written before the kind. The decoder is told whether it has been. -/
def awaiting (tag name : String) (fields : List (String × Json)) (value : Bool → Json → Decoded α)
    (j : Json) : Decoded α := do
  if isBefore name tag fields then value true (← j.kept) else value false j

end Interview.Json

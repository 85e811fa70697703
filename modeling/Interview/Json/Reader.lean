import Interview.Json.Token

/-!
# Reading JSON text

A document is one value with nothing but white space around it. The reader takes the tokens one
after the other and keeps the arrays and objects that are still open on a stack. An array or object
inside 127 others has no value, nor has an object one of whose names is no text; both are read to
their ends all the same.
-/

namespace Interview.Json

namespace Reader

/-- The fields of an unfinished object, the last first; none once it has a name that is no text. -/
abbrev Fields := Option (List (String × Json))

/-- An array or object that is still open, with what it holds so far. -/
inductive Frame where
  /-- The items of an array, the last first. -/
  | array (items : List Json)
  /-- The fields of an object, and the name of the next one. -/
  | object (fields : Fields) (name : String)

/-- What may come next. -/
inductive Due where
  /-- A value. -/
  | value
  /-- The first item of an array, or its end. -/
  | firstItem
  /-- The first field of an object, or its end. -/
  | firstName
  /-- The name of another field. -/
  | name (fields : Fields)
  /-- The colon after the name of a field. -/
  | colon (fields : Fields) (name : String)
  /-- A comma, or the end of an array or object, or of the text, after a value. -/
  | after (value : Json)

/-- The most arrays and objects that may be open around an array or object with a value. -/
def maxAround : Nat := 126

/-- The value of an array or object that closes, by what is still open around it. -/
def close (stack : List Frame) (value : Json) : Json :=
  if (stack.drop maxAround).isEmpty then value else .unusable

namespace Fields

/-- The fields of an object, with one more. -/
def add (fields : Fields) (name : String) (value : Json) : Fields :=
  fields.map ((name, value) :: ·)

/-- The object that fields make. -/
def toJson (fields : Fields) : Json :=
  fields.elim .unusable fun fields => .object fields.reverse

end Fields

/-- Takes a token where a value may stand. -/
def value? (stack : List Frame) : Token → Option (List Frame × Due)
  | .scalar v => some (stack, .after v)
  | .text s => some (stack, .after (.string s))
  | .brokenText => some (stack, .after .unusable)
  | .openArray => some (stack, .firstItem)
  | .openObject => some (stack, .firstName)
  | _ => none

/-- Takes a token where the name of a field may stand. -/
def name? (stack : List Frame) (fields : Fields) : Token → Option (List Frame × Due)
  | .text name => some (stack, .colon fields name)
  | .brokenText => some (stack, .colon none "")
  | _ => none

/-- Takes one token. An array or object is pushed on the stack with its first item or field. -/
def step? (stack : List Frame) (due : Due) (token : Token) : Option (List Frame × Due) :=
  match due, token with
  | .value, token => value? stack token
  | .firstItem, .closeArray => some (stack, .after (close stack (.array [])))
  | .firstItem, token => value? (.array [] :: stack) token
  | .firstName, .closeObject => some (stack, .after (close stack (.object [])))
  | .firstName, token => name? stack (some []) token
  | .name fields, token => name? stack fields token
  | .colon fields name, .colon => some (.object fields name :: stack, .value)
  | .after v, .comma =>
    match stack with
    | .array items :: rest => some (.array (v :: items) :: rest, .value)
    | .object fields name :: rest => some (rest, .name (fields.add name v))
    | [] => none
  | .after v, .closeArray =>
    match stack with
    | .array items :: rest => some (rest, .after (close rest (.array (v :: items).reverse)))
    | _ => none
  | .after v, .closeObject =>
    match stack with
    | .object fields name :: rest => some (rest, .after (close rest (fields.add name v).toJson))
    | _ => none
  | _, _ => none

/-- Takes all tokens. -/
def run? (stack : List Frame) (due : Due) : List Token → Option Json
  | [] =>
    match stack, due with
    | [], .after v => some v
    | _, _ => none
  | token :: rest =>
    match step? stack due token with
    | none => none
    | some (stack, due) => run? stack due rest

end Reader

/-- The value that a text stands for. -/
def ofString? (s : String) : Option Json :=
  (tokens? s).bind (Reader.run? [] .value)

end Interview.Json

import Interview.Json.Numeral

/-!
# JSON values

A value of a JSON document. An object keeps its fields in the order they are written, and keeps
doubled ones: which of two fields counts, or whether doubling is an error, is for the reader of the
document to say.

A document may hold parts that follow the grammar and still have no value. They are kept in the tree
as `Json.unusable`, because a decoder that has no use for a part does not mind what it is.
-/

namespace Interview

/-- A JSON value. -/
inductive Json where
  | null
  | bool (b : Bool)
  | number (n : Json.Numeral)
  | string (s : String)
  | array (items : List Json)
  | object (fields : List (String × Json))
  /-- What follows the grammar but has no value: a string that is no text, an object with such a
  string as a name, or an array or object that is nested too deeply. -/
  | unusable
deriving Inhabited

namespace Json

/-- A natural number as a JSON value. -/
def nat (n : Nat) : Json := .number (.ofNat n)

/-- An integer as a JSON value. -/
def int (n : Int) : Json := .number (.ofInt n)

/-- A text, or `null` in its absence. -/
def textOrNull (s : Option String) : Json :=
  (s.map Json.string).getD .null

/-- A list of texts. -/
def texts (ss : List String) : Json := .array (ss.map .string)

/-- The value of the first field of an object with a given name. -/
def field? (name : String) : Json → Option Json
  | .object fields => fields.lookup name
  | _ => none

/-! ## Usable values -/

mutual

/-- Whether every part of a value can be used. A number can unless it is past the largest double. -/
def isUsable : Json → Bool
  | null | bool _ | string _ => true
  | number n => n.float?.isSome
  | array items => areUsable items
  | object fields => haveUsable fields
  | unusable => false

/-- Whether every part of some items can be used. -/
def areUsable : List Json → Bool
  | [] => true
  | item :: rest => item.isUsable && areUsable rest

/-- Whether every part of the values of some fields can be used. -/
def haveUsable : List (String × Json) → Bool
  | [] => true
  | (_, value) :: rest => value.isUsable && haveUsable rest

end

end Json

end Interview

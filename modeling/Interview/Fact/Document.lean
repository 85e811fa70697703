import Interview.Fact.Store
import Interview.Json.Decode

/-!
# Facts in JSON

A document of facts is an object from paths to facts. A fact is an object with the field `complete`
and, unless it has no value, the field `value`: an object that says by `kind` what its own `value`
is, in either order. Paths may be written twice; the last one counts.
-/

namespace Interview

open Json (Decoded)

namespace FactValue

/-- The kinds of value, as documents name them. -/
inductive Kind where
  | boolean
  | text
  | number
  | collection
  | itemRef

/-- All kinds. -/
def Kind.all : List Kind := [.boolean, .text, .number, .collection, .itemRef]

/-- The name of a kind. -/
def Kind.name : Kind → String
  | .boolean => "boolean"
  | .text => "text"
  | .number => "number"
  | .collection => "collection"
  | .itemRef => "item_ref"

/-- The value of a given kind. -/
def ofContent (kind : Kind) (content : Json) : Decoded FactValue :=
  match kind with
  | .boolean => content.toBool.map boolean
  | .text => content.toText.map text
  | .number => content.toFloat.map number
  | .collection => (content.toList Json.toText).map collection
  | .itemRef => content.toText.map itemRef

/-- Decodes a value. -/
def ofJson (j : Json) : Decoded FactValue := do
  let fields ← j.fields
  let kind ← Json.required "kind" (Json.toNamed Kind.all Kind.name) fields
  Json.required "value" (Json.awaiting "kind" "value" fields fun _ => ofContent kind) fields

end FactValue

/-- Decodes a fact. -/
def Fact.ofJson (j : Json) : Decoded Fact := do
  let fields ← j.fields
  let complete ← Json.required "complete" Json.toBool fields
  let value ← Json.optional "value" FactValue.ofJson fields
  return ⟨complete, value⟩

/-- Decodes a document of facts. -/
def Store.ofJson (j : Json) : Decoded Store := do
  let facts ← (← j.fields).mapM fun (path, fact) => return (path, ← Fact.ofJson fact)
  return Table.ofList facts

end Interview

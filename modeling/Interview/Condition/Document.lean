import Interview.Condition.Basic
import Interview.Json.Decode

/-!
# Conditions in JSON

A condition is written as a text, which is the path of a fact or the name of a special condition; as
an object with such a text as `condition` and an operator; or, for imported data, as an object whose
`condition` is `data-import`. An object that would be of the last form but does not decode as such
is taken to be of the second. A condition is kept as a whole while its form is found out. Where
several conditions may stand, one may stand without a list.
-/

namespace Interview.Condition

open Json (Decoded DecodeError)

/-! ## Errors -/

/-- Why a condition is refused. -/
inductive Error where
  /-- The value has none of the forms of a condition. -/
  | shape
  /-- A name is neither a path nor the name of a condition. -/
  | unknown (name : String)
  /-- A condition that takes no operator has one. -/
  | unexpectedOperator (name : String)
deriving DecidableEq, Repr

/-- The wording of a refused condition. -/
def Error.message : Error → String
  | shape => "data did not match any variant of untagged enum RawCondition"
  | unknown name =>
    s!"condition `{name}` must be an absolute fact path or a known condition name"
  | unexpectedOperator name => s!"`{name}` does not take an operator"

/-! ## Decoding -/

/-- The name of the condition on experimental parts. -/
def experimentalName : String := "experimental"

/-- The name of the condition on submission. -/
def submissionName : String := "submissionBlockingFactsAreFalse"

/-- The name of the condition on signing. -/
def signingName : String := "isEssarSigningPath"

/-- The name that marks conditions on imported data. -/
def importName : String := "data-import"

/-- The condition with a given name or path and operator. -/
def ofName (name : String) (op : Option Operator) : Except Error Condition :=
  if name = experimentalName then
    if op.isSome then .error (.unexpectedOperator name) else .ok experimental
  else if name = submissionName then
    if op.isSome then .error (.unexpectedOperator name) else .ok nothingBlocksSubmission
  else if name = signingName then
    .ok (signingPath (op.getD .default))
  else if name.toList.head? = some '/' then
    .ok (fact name (op.getD .default))
  else
    .error (.unknown name)

/-- The form of a condition on imported data. -/
def importForm (fields : List (String × Json)) : Decoded Condition := do
  let _ ← Json.required "condition" (Json.toNamed [()] fun _ => importName) fields
  let question ← Json.required "section" (Json.toNamed Import.Question.all (·.label)) fields
  let op ← Json.optional "operator" (Json.toNamed Import.Operator.all (·.label)) fields
  return imported question (op.getD .default)

/-- The form of a condition with an operator: the name and the operator. -/
def operatorForm (fields : List (String × Json)) : Decoded (String × Option Operator) := do
  let op ← Json.optional "operator" (Json.toNamed Operator.all (·.label)) fields
  let name ← Json.required "condition" Json.toText fields
  return (name, op)

/-- Decodes a condition. -/
def ofJson : Json → Except Error Condition
  | .string name => ofName name none
  | .object fields =>
    match importForm fields with
    | .ok condition => .ok condition
    | .error _ =>
      match operatorForm fields with
      | .ok (name, op) => ofName name op
      | .error _ => .error .shape
  | _ => .error .shape

/-- Decodes a condition within a document. -/
def decode (j : Json) : Decoded Condition := do
  (ofJson (← j.kept)).mapError fun e => .condition e.message

/-- Decodes one condition or a list of them. -/
def decodeAll : Json → Decoded (List Condition)
  | .array items => items.mapM decode
  | j => (decode j).map ([·])

/-! ## Encoding -/

/-- A name with an operator. -/
def withOperator (name : String) (op : Operator) : Json :=
  .object [("operator", .string op.label), ("condition", .string name)]

/-- Encodes a condition. The operator `isTrue` on a fact is left out. -/
def toJson : Condition → Json
  | fact path op => if op = .isTrue then .string path else withOperator path op
  | experimental => .string experimentalName
  | nothingBlocksSubmission => .string submissionName
  | signingPath op => withOperator signingName op
  | imported question op =>
    .object [("condition", .string importName), ("section", .string question.label),
      ("operator", .string op.label)]

/-- Encodes conditions as a list. -/
def toJsonAll (conditions : List Condition) : Json :=
  .array (conditions.map toJson)

end Interview.Condition

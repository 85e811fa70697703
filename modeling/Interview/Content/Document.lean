import Interview.Condition.Document
import Interview.Content.Basic

/-!
# Content in JSON

An element is one flat object: its `type`, the fields that belong to the type, and the fields
`conditions` and `batches`. It is kept as a whole till its type is known.
-/

namespace Interview

open Json (Decoded)

namespace Content

/-- The types of content, as documents name them. -/
inductive Kind where
  | heading
  | info
  | field
  | setFact
  | taxReturnAlert
  | rejectionAlert
  | collectionManager
  | collectionPreview
  | saveAndContinue
  | setFactAndContinue
  | exit
  | submit
  | knockout
  | link
  | dataViewLink

namespace Kind

/-- All types. -/
def all : List Kind :=
  [heading, info, field, setFact, taxReturnAlert, rejectionAlert, collectionManager,
    collectionPreview, saveAndContinue, setFactAndContinue, exit, submit, knockout, link,
    dataViewLink]

/-- The name of a type. -/
def name : Kind → String
  | heading => "heading"
  | info => "info_display"
  | field => "fact"
  | setFact => "set_fact_action"
  | taxReturnAlert => "tax_return_alert"
  | rejectionAlert => "mef_alert"
  | collectionManager => "collection_item_manager"
  | collectionPreview => "collection_data_preview"
  | saveAndContinue => "save_and_continue_button"
  | setFactAndContinue => "set_fact_and_continue_button"
  | exit => "exit_button"
  | submit => "submit_button"
  | knockout => "knockout_button"
  | link => "internal_link"
  | dataViewLink => "collection_data_view_internal_link"

end Kind

/-- The type of a content. -/
def kind : Content → Kind
  | heading .. => .heading
  | info .. => .info
  | field .. => .field
  | setFact .. => .setFact
  | taxReturnAlert .. => .taxReturnAlert
  | rejectionAlert .. => .rejectionAlert
  | collectionManager .. => .collectionManager
  | collectionPreview => .collectionPreview
  | saveAndContinue => .saveAndContinue
  | setFactAndContinue => .setFactAndContinue
  | exit => .exit
  | submit => .submit
  | knockout => .knockout
  | link .. => .link
  | dataViewLink .. => .dataViewLink

/-! ## Decoding -/

/-- A required text. -/
def text (name : String) (fields : List (String × Json)) : Decoded String :=
  Json.required name Json.toText fields

/-- The paths of the facts that an alert is about. -/
def alertPaths (fields : List (String × Json)) : Decoded (List String) :=
  Json.defaulted "fact_paths" (Json.toList Json.toText) [] fields

/-- The seriousness of an alert. -/
def alertKind (fields : List (String × Json)) : Decoded AlertKind :=
  Json.required "alert_type" (Json.toKeptNamed AlertKind.all (·.name)) fields

/-- Decodes the fields that belong to a type. -/
def ofFields (kind : Kind) (fields : List (String × Json)) : Decoded Content := do
  match kind with
  | .heading => return heading (← text "i18n_key" fields)
  | .info => return info (← text "i18n_key" fields)
  | .field =>
    let path ← text "path" fields
    let kind ← Json.required "kind" (Json.toKeptNamed FieldKind.all (·.name)) fields
    let readOnly ← Json.flag "read_only" fields
    let onlyOn ← Json.optional "display_only_on" (Json.toKeptNamed Rendering.all (·.name)) fields
    return field path kind readOnly onlyOn
  | .setFact => return setFact (← text "path" fields) (← text "source" fields)
  | .taxReturnAlert =>
    return taxReturnAlert (← alertKind fields) (← text "i18n_key" fields) (← alertPaths fields)
  | .rejectionAlert =>
    return rejectionAlert (← alertKind fields) (← text "i18n_key" fields)
      (← text "mef_error_code" fields) (← alertPaths fields)
  | .collectionManager =>
    return collectionManager (← text "path" fields) (← Json.optional "loop_name" Json.toText fields)
  | .collectionPreview => return collectionPreview
  | .saveAndContinue => return saveAndContinue
  | .setFactAndContinue => return setFactAndContinue
  | .exit => return exit
  | .submit => return submit
  | .knockout => return knockout
  | .link => return link (← text "route" fields)
  | .dataViewLink => return dataViewLink (← text "route" fields)

end Content

/-- Decodes an element. -/
def Element.ofJson (j : Json) : Decoded Element := do
  let fields ← (← j.kept).fields
  let conditions ← Json.defaulted "conditions" Condition.decodeAll [] fields
  let batches ← Json.defaulted "batches" (Json.toList Json.toText) [] fields
  let kind ← Json.required "type" (Json.toKeptKind Content.Kind.all (·.name)) fields
  return ⟨← Content.ofFields kind fields, conditions, batches⟩

/-! ## Encoding -/

namespace Content

/-- The fields that belong to a content, without its type. -/
def toFields : Content → List (String × Json)
  | heading key => [("i18n_key", .string key)]
  | info key => [("i18n_key", .string key)]
  | field path kind readOnly onlyOn =>
    [("path", .string path), ("kind", .string kind.name), ("read_only", .bool readOnly),
      ("display_only_on", Json.textOrNull (onlyOn.map Rendering.name))]
  | setFact path source => [("path", .string path), ("source", .string source)]
  | taxReturnAlert kind key factPaths =>
    [("alert_type", .string kind.name), ("i18n_key", .string key),
      ("fact_paths", Json.texts factPaths)]
  | rejectionAlert kind key code factPaths =>
    [("alert_type", .string kind.name), ("i18n_key", .string key),
      ("mef_error_code", .string code), ("fact_paths", Json.texts factPaths)]
  | collectionManager path loop =>
    [("path", .string path), ("loop_name", Json.textOrNull loop)]
  | link route => [("route", .string route)]
  | dataViewLink route => [("route", .string route)]
  | collectionPreview | saveAndContinue | setFactAndContinue | exit | submit | knockout => []

end Content

/-- Encodes an element. -/
def Element.toJson (e : Element) : Json :=
  .object (("type", .string e.content.kind.name) :: e.content.toFields
    ++ [("conditions", Condition.toJsonAll e.conditions), ("batches", Json.texts e.batches)])

end Interview

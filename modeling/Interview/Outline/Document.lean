import Interview.Batch.Document
import Interview.Content.Document
import Interview.Outline.Basic

/-!
# Outlines in JSON

A node is an object whose field `kind` says what it is; the nodes below it are in the list
`children`, which may be left out. A node is kept as a whole till its kind is known. The decoder
follows the structure of the document, so it has an answer for every one.
-/

namespace Interview

open Json (Decoded)

namespace Node

/-- The kinds of node, as documents name them. -/
inductive Kind where
  | category
  | subcategory
  | topic
  | loop
  | gate
  | screen
  | assertion

/-- All kinds. -/
def Kind.all : List Kind := [.category, .subcategory, .topic, .loop, .gate, .screen, .assertion]

/-- The name of a kind. -/
def Kind.name : Kind → String
  | .category => "category"
  | .subcategory => "subcategory"
  | .topic => "sub_subcategory"
  | .loop => "collection_loop"
  | .gate => "gate"
  | .screen => "screen"
  | .assertion => "assertion"

end Node

/-! ## Decoding the fields of a node -/

/-- One condition or a list of them; none in the absence of the field. -/
def Condition.field (name : String) (fields : List (String × Json)) : Decoded (List Condition) :=
  Json.defaulted name Condition.decodeAll [] fields

/-- Decodes what is declared about a subcategory. -/
def SubcategoryHead.ofFields (fields : List (String × Json)) : Decoded SubcategoryHead := do
  let route ← Json.required "route" Json.toText fields
  let completeIf ← Condition.field "complete_if" fields
  let displayOnlyIf ← Condition.field "display_only_if" fields
  let skipsDataView ← Json.flag "skip_data_view" fields
  let signsAndSubmits ← Json.flag "is_sign_and_submit" fields
  let locks ← Json.flag "lock_future_sections_if_collection_items_incomplete" fields
  let collection ← Json.optional "collection_context" Json.toText fields
  return ⟨route, completeIf, displayOnlyIf, skipsDataView, signsAndSubmits, locks, collection⟩

/-- Decodes what is declared about a loop. -/
def LoopHead.ofFields (fields : List (String × Json)) : Decoded LoopHead := do
  let name ← Json.required "loop_name" Json.toText fields
  let collection ← Json.optional "collection" Json.toText fields
  let autoIterates ← Json.flag "auto_iterate" fields
  let isInner ← Json.flag "is_inner" fields
  let completeIf ← Json.optional "collection_item_completed_condition" Condition.decode fields
  let donePath ← Json.optional "done_path" Json.toText fields
  let knockoutRoute ← Json.optional "knockout_route" Json.toText fields
  return ⟨name, collection, autoIterates, isInner, completeIf, donePath, knockoutRoute⟩

/-- Decodes what is declared about a screen. -/
def ScreenHead.ofFields (fields : List (String × Json)) : Decoded ScreenHead := do
  let route ← Json.required "route" Json.toText fields
  let condition ← Json.optional "condition" Condition.decode fields
  let routesAutomatically ← Json.optional "route_automatically" Json.toBool fields
  let isKnockout ← Json.flag "is_knockout" fields
  let actsAsDataView ← Json.flag "act_as_data_view" fields
  let overridesRoute ← Json.flag "has_screen_route_override" fields
  let content ← Json.required "content" (Json.toList Element.ofJson) fields
  return ⟨route, condition, routesAutomatically, isKnockout, actsAsDataView, overridesRoute,
    content⟩

/-- Decodes what is declared about an assertion. -/
def AssertionHead.ofFields (fields : List (String × Json)) : Decoded AssertionHead := do
  let kind ← Json.required "assertion_type" (Json.toKeptNamed AlertKind.all (·.name)) fields
  let key ← Json.required "i18n_key" Json.toText fields
  let conditions ← Condition.field "conditions" fields
  let editRoute ← Json.optional "edit_route" Json.toText fields
  return ⟨kind, key, conditions, editRoute⟩

/-- The nodes below a node, of which each field `children` makes a list. -/
def Node.soleChildren : List (Decoded (List Node)) → Decoded (List Node)
  | [] => .ok []
  | [children] => children
  | _ => .error (.doubled "children")

/-- Decodes a node from its own fields and from what its fields `children` hold. -/
def Node.ofFields (fields : List (String × Json)) (children : List (Decoded (List Node))) :
    Decoded Node := do
  match ← Json.required "kind" (Json.toKeptKind Kind.all Kind.name) fields with
  | .category =>
    return category (← Json.required "route" Json.toText fields) (← soleChildren children)
  | .subcategory => return subcategory (← SubcategoryHead.ofFields fields) (← soleChildren children)
  | .topic =>
    return topic (← Json.required "route" Json.toText fields) (← soleChildren children)
  | .loop => return loop (← LoopHead.ofFields fields) (← soleChildren children)
  | .gate =>
    return gate (← Json.required "condition" Condition.decode fields) (← soleChildren children)
  | .screen => return screen (← ScreenHead.ofFields fields)
  | .assertion => return assertion (← AssertionHead.ofFields fields)

/-! ## Decoding the tree -/

mutual

/-- Decodes a node. -/
def Node.ofJson : Json → Decoded Node
  | .object fields => Node.ofFields fields (Node.childrenOf fields)
  | _ => .error (.mismatch "object")

/-- Decodes each of the fields `children`. -/
def Node.childrenOf : List (String × Json) → List (Decoded (List Node))
  | [] => []
  | (name, value) :: rest =>
    if name = "children" then Node.listOfJson value :: Node.childrenOf rest
    else Node.childrenOf rest

/-- Decodes a list of nodes. -/
def Node.listOfJson : Json → Decoded (List Node)
  | .array items => Node.itemsOfJson items
  | _ => .error (.mismatch "array")

/-- Decodes the items of a list of nodes. -/
def Node.itemsOfJson : List Json → Decoded (List Node)
  | [] => .ok []
  | item :: rest => do
    let node ← Node.ofJson item
    let nodes ← Node.itemsOfJson rest
    return node :: nodes

end

/-- Decodes a node at the top of an outline. The kinds below have been kept with it, its own has
not. -/
def Node.topOfJson (j : Json) : Decoded Node := do
  let fields ← (← j.kept).fields
  let _ ← Json.required "kind" (Json.toKind Kind.all Kind.name) fields
  Node.ofJson j

/-- Decodes an outline. -/
def Outline.ofJson (j : Json) : Decoded Outline := do
  let fields ← j.fields
  let batches ← Json.defaulted "batches" Batch.Registry.ofJson .empty fields
  let nodes ← Json.required "categories" (Json.toList Node.topOfJson) fields
  return ⟨batches, nodes⟩

/-! ## Encoding -/

/-- Encodes a condition that may be missing. -/
def Condition.orNull (condition : Option Condition) : Json :=
  (condition.map Condition.toJson).getD .null

/-- The fields of a subcategory, without its parts. -/
def SubcategoryHead.toFields (h : SubcategoryHead) : List (String × Json) :=
  [("route", .string h.route),
    ("complete_if", Condition.toJsonAll h.completeIf),
    ("display_only_if", Condition.toJsonAll h.displayOnlyIf),
    ("skip_data_view", .bool h.skipsDataView),
    ("is_sign_and_submit", .bool h.signsAndSubmits),
    ("lock_future_sections_if_collection_items_incomplete", .bool h.locksOnUnfinishedItems),
    ("collection_context", Json.textOrNull h.collection)]

/-- The fields of a loop, without its parts. -/
def LoopHead.toFields (h : LoopHead) : List (String × Json) :=
  [("loop_name", .string h.name),
    ("collection", Json.textOrNull h.collection),
    ("auto_iterate", .bool h.autoIterates),
    ("is_inner", .bool h.isInner),
    ("collection_item_completed_condition", Condition.orNull h.itemCompleteIf),
    ("done_path", Json.textOrNull h.donePath),
    ("knockout_route", Json.textOrNull h.knockoutRoute)]

/-- The fields of a screen. -/
def ScreenHead.toFields (h : ScreenHead) : List (String × Json) :=
  [("route", .string h.route),
    ("condition", Condition.orNull h.condition),
    ("route_automatically", (h.routesAutomatically.map Json.bool).getD .null),
    ("is_knockout", .bool h.isKnockout),
    ("act_as_data_view", .bool h.actsAsDataView),
    ("has_screen_route_override", .bool h.overridesRoute),
    ("content", .array (h.content.map Element.toJson))]

/-- The fields of an assertion. -/
def AssertionHead.toFields (h : AssertionHead) : List (String × Json) :=
  [("assertion_type", .string h.kind.name),
    ("i18n_key", .string h.key),
    ("conditions", Condition.toJsonAll h.conditions),
    ("edit_route", Json.textOrNull h.editRoute)]

/-- A node with its kind and fields. -/
def Node.tagged (kind : Kind) (fields : List (String × Json)) : Json :=
  .object (("kind", .string kind.name) :: fields)

mutual

/-- Encodes a node. -/
def Node.toJson : Node → Json
  | .category route children =>
    Node.tagged .category
      [("route", .string route), ("children", .array (Node.itemsToJson children))]
  | .subcategory head children =>
    Node.tagged .subcategory (head.toFields ++ [("children", .array (Node.itemsToJson children))])
  | .topic route children =>
    Node.tagged .topic [("route", .string route), ("children", .array (Node.itemsToJson children))]
  | .loop head children =>
    Node.tagged .loop (head.toFields ++ [("children", .array (Node.itemsToJson children))])
  | .gate condition children =>
    Node.tagged .gate
      [("condition", condition.toJson), ("children", .array (Node.itemsToJson children))]
  | .screen head => Node.tagged .screen head.toFields
  | .assertion head => Node.tagged .assertion head.toFields

/-- Encodes the items of a list of nodes. -/
def Node.itemsToJson : List Node → List Json
  | [] => []
  | node :: rest => node.toJson :: Node.itemsToJson rest

end

/-- Encodes an outline. -/
def Outline.toJson (o : Outline) : Json :=
  .object [("batches", o.batches.toJson), ("categories", .array (Node.itemsToJson o.nodes))]

end Interview

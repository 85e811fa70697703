import Interview.Flow.Basic
import Interview.Outline.WellFormed

/-!
# Flattened outlines

What the screens, topics and assertions of an outline are like in a flow, said of each of them from
the nodes around it alone: which of these nodes it belongs to, and which of their conditions it
takes over.
-/

namespace Interview

/-! ## Nodes around -/

/-- The condition of a gate. -/
def Node.gateCondition? : Node → Option Condition
  | .gate condition _ => some condition
  | _ => none

/-- The conditions of the gates among nodes around, the outermost first. -/
def gatesAround (around : List Node) : List Condition :=
  around.reverse.filterMap Node.gateCondition?

/-- The full route of the innermost topic among nodes around. -/
@[simp] def topicAround : List Node → Option String
  | [] => none
  | .topic route _ :: outer => some ((subcategoryAround outer).getD "" ++ "/" ++ route)
  | _ :: outer => topicAround outer

/-- The innermost loop among nodes around. -/
@[simp] def loopAround : List Node → Option LoopHead
  | [] => none
  | .loop head _ :: _ => some head
  | _ :: outer => loopAround outer

/-- The collection that the innermost subcategory among nodes around is about. -/
@[simp] def subjectAround : List Node → Option String
  | [] => none
  | .subcategory head _ :: _ => head.collection
  | _ :: outer => subjectAround outer

/-- The collection that is gone through around a node: that of the loop, if it lies in one, or else
that of the subcategory. A loop without a collection of its own has that of the subcategory. -/
def collectionAround (around : List Node) : Option String :=
  match loopAround around with
  | some head => head.collection.or (subjectAround around)
  | none => subjectAround around

namespace Site

/-! ## Parts -/

/-- The screen that a node declares. -/
def screen? (x : Site) : Option Screen :=
  match x.node with
  | .screen head => some
    { route := head.route
      fullRoute := (subcategoryAround x.around).getD "" ++ "/" ++ head.route
      categoryRoute := (categoryAround x.around).getD ""
      subcategoryRoute := (subcategoryAround x.around).getD ""
      topicRoute := topicAround x.around
      conditions := gatesAround x.around ++ head.condition.toList
      collection := collectionAround x.around
      membership := (loopAround x.around).map fun l => ⟨l.name, l.autoIterates, l.isInner⟩
      routesAutomatically := head.routesAutomatically.getD true
      isKnockout := head.isKnockout
      actsAsDataView := head.actsAsDataView
      overridesRoute := head.overridesRoute
      content := head.content
      batches := (head.content.flatMap (·.batches)).eraseDups }
  | _ => none

/-- The topic that a node declares. A topic may be declared in several places. -/
def topic? (x : Site) : Option Topic :=
  match x.node with
  | .topic route _ => some
    { route
      fullRoute := (subcategoryAround x.around).getD "" ++ "/" ++ route
      subcategoryRoute := (subcategoryAround x.around).getD ""
      loop := (loopAround x.around).map (·.name) }
  | _ => none

/-- The assertion that a node declares. -/
def assertion? (x : Site) : Option Assertion :=
  match x.node with
  | .assertion head => some
    { kind := head.kind
      key := head.key
      conditions := gatesAround x.around ++ head.conditions
      editRoute := head.editRoute
      subcategoryRoute := (subcategoryAround x.around).getD ""
      topicRoute := topicAround x.around }
  | _ => none

end Site

end Interview

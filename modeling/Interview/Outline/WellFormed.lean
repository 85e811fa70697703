import Interview.Flow.Error
import Interview.Outline.Basic

/-!
# Well-formed outlines

What an outline must be like for a flow to be built from it, said of the tree alone: where nodes of
each kind may stand, which routes and names must differ, and what loops and screens must have. A
node is looked at together with the nodes around it.
-/

namespace Interview

namespace Node

/-- The kind of a node. A gate has none, as it may stand anywhere. -/
def kind? : Node → Option Placed
  | category .. => some .category
  | subcategory .. => some .subcategory
  | topic .. => some .topic
  | loop .. => some .loop
  | gate .. => none
  | screen .. => some .screen
  | assertion .. => some .assertion

/-- The nodes right below a node. -/
def children : Node → List Node
  | category _ children | subcategory _ children | topic _ children | loop _ children
  | gate _ children => children
  | screen _ | assertion _ => []

/-- The collection that a subcategory is about. -/
def subject? : Node → Option String
  | subcategory head _ => head.collection
  | _ => none

end Node

/-- A node of an outline in its place. -/
structure Site where
  node : Node
  /-- The nodes around it, the innermost first. -/
  around : List Node

mutual

/-- A node and the nodes below it, in their order. -/
def Node.sites (around : List Node) : Node → List Site
  | .category route children =>
    ⟨.category route children, around⟩ ::
      Node.allSites (.category route children :: around) children
  | .subcategory head children =>
    ⟨.subcategory head children, around⟩ ::
      Node.allSites (.subcategory head children :: around) children
  | .topic route children =>
    ⟨.topic route children, around⟩ :: Node.allSites (.topic route children :: around) children
  | .loop head children =>
    ⟨.loop head children, around⟩ :: Node.allSites (.loop head children :: around) children
  | .gate condition children =>
    ⟨.gate condition children, around⟩ ::
      Node.allSites (.gate condition children :: around) children
  | .screen head => [⟨.screen head, around⟩]
  | .assertion head => [⟨.assertion head, around⟩]

/-- Several nodes and the nodes below them, in their order. -/
def Node.allSites (around : List Node) : List Node → List Site
  | [] => []
  | node :: rest => node.sites around ++ Node.allSites around rest

end

/-- All nodes of an outline, in their order. -/
def Outline.sites (o : Outline) : List Site :=
  Node.allSites [] o.nodes

/-! ## Routes and names -/

/-- The full route of the innermost category among nodes around. -/
@[simp] def categoryAround : List Node → Option String
  | [] => none
  | .category route _ :: _ => some ("/flow/" ++ route)
  | _ :: outer => categoryAround outer

/-- The full route of the innermost subcategory among nodes around. -/
@[simp] def subcategoryAround : List Node → Option String
  | [] => none
  | .subcategory head _ :: outer => some ((categoryAround outer).getD "" ++ "/" ++ head.route)
  | _ :: outer => subcategoryAround outer

namespace Site

/-- The full route of a subcategory. -/
def subcategoryRoute? (x : Site) : Option String :=
  match x.node with
  | .subcategory head _ => some ((categoryAround x.around).getD "" ++ "/" ++ head.route)
  | _ => none

/-- The full route of a screen. -/
def screenRoute? (x : Site) : Option String :=
  match x.node with
  | .screen head => some ((subcategoryAround x.around).getD "" ++ "/" ++ head.route)
  | _ => none

/-- The name of a loop. -/
def loopName? (x : Site) : Option String :=
  match x.node with
  | .loop head _ => some head.name
  | _ => none

/-! ## Places -/

/-- A node lies in one of a kind. -/
def LiesIn (x : Site) (kind : Placed) : Prop :=
  ∃ n ∈ x.around, n.kind? = some kind

/-- A node stands where nodes of its kind may stand. -/
def IsPlaced (x : Site) : Prop :=
  match x.node.kind? with
  | some .category => ¬ x.LiesIn .category
  | some .subcategory => x.LiesIn .category ∧ ¬ x.LiesIn .subcategory
  | some _ => x.LiesIn .subcategory
  | none => True

/-! ## Loops and screens -/

/-- What a loop must be like. -/
structure IsSoundLoop (x : Site) (head : LoopHead) : Prop where
  notNested : ¬ x.LiesIn .loop
  /-- It has a collection of its own, or the subcategory around is about one. -/
  collection : head.collection.isSome ∨ ∃ n ∈ x.around, n.subject?.isSome
  /-- If it is an inner one, it lies in a topic. -/
  inner : head.isInner = true → x.LiesIn .topic
  /-- There is a screen below it. -/
  screen : ∃ y ∈ Node.allSites [] x.node.children, y.node.kind? = some .screen

end Site

namespace ScreenHead

/-- The headings of a screen. -/
def headings (head : ScreenHead) : List Element :=
  head.content.filter (·.content.isHeading)

/-- There is one heading without conditions, or there are several with conditions each. -/
def HasHeadings (head : ScreenHead) : Prop :=
  (∃ heading, head.headings = [heading] ∧ heading.conditions = []) ∨
    2 ≤ head.headings.length ∧ ∀ heading ∈ head.headings, heading.conditions ≠ []

end ScreenHead

/-- What a screen must be like. -/
structure Site.IsSoundScreen (batches : Batch.Registry) (x : Site) (head : ScreenHead) :
    Prop where
  headings : head.HasHeadings
  /-- There is a button or link to leave it. -/
  exit : ∃ e ∈ head.content, e.content.leavesScreen = true
  /-- If it has fields, it lies in a topic. -/
  fields : (∃ e ∈ head.content, e.content.fieldPath.isSome) → x.LiesIn .topic
  /-- The batches of its content are registered. -/
  batches : ∀ e ∈ head.content, ∀ name ∈ e.batches, (batches.get? name).isSome

/-- **Well-formed outlines.** -/
structure Outline.IsWellFormed (o : Outline) : Prop where
  placed : ∀ x ∈ o.sites, x.IsPlaced
  subcategoryRoutes : (o.sites.filterMap Site.subcategoryRoute?).Nodup
  screenRoutes : (o.sites.filterMap Site.screenRoute?).Nodup
  loopNames : (o.sites.filterMap Site.loopName?).Nodup
  loops : ∀ x ∈ o.sites, ∀ head children, x.node = .loop head children → x.IsSoundLoop head
  screens : ∀ x ∈ o.sites, ∀ head, x.node = .screen head → x.IsSoundScreen o.batches head
  /-- There is a screen. -/
  nonempty : ∃ x ∈ o.sites, x.node.kind? = some .screen

end Interview

import Interview.Outline.Entry

/-!
# Flows

A flow is an interview that has been checked. Its parts are kept in flat lists in the order of the
outline, and each part names those it belongs to: a screen carries the routes of its category, its
subcategory and its topic and the name of its loop. What belongs to a part is therefore a view: the
sublist of those that name it. Subcategories, screens and topics are known by their full routes,
loops by their names.
-/

namespace Interview

/-- A step of the interview. -/
structure Screen where
  /-- The route as declared. -/
  route : String
  /-- The full route, by which the screen is known. -/
  fullRoute : String
  categoryRoute : String
  subcategoryRoute : String
  topicRoute : Option String
  /-- The conditions of the gates around the screen, then its own. -/
  conditions : List Condition
  /-- The collection for whose items the screen is shown. -/
  collection : Option String
  membership : Option LoopMembership
  routesAutomatically : Bool
  isKnockout : Bool
  actsAsDataView : Bool
  overridesRoute : Bool
  content : List Element
  /-- The batches that the content belongs to, each once, in order. -/
  batches : List String
deriving DecidableEq

namespace Screen

/-- The name of the loop that the screen belongs to. -/
def loopName (s : Screen) : Option String :=
  s.membership.map (·.name)

/-- Whether the screen belongs to a loop that leads from item to item. -/
def isAutoIterating (s : Screen) : Bool :=
  s.membership.any (·.autoIterates)

/-- The paths of the facts that the fields of the screen are for. -/
def fieldPaths (s : Screen) : List String :=
  s.content.filterMap (·.content.fieldPath)

end Screen

/-- A group of screens that are summarised together. -/
structure Topic where
  /-- The route as declared, which is the anchor of the summary. -/
  route : String
  fullRoute : String
  /-- The subcategory in which the topic is declared first. -/
  subcategoryRoute : String
  /-- The loop in which the topic is declared first, if any. -/
  loop : Option String
deriving DecidableEq

/-- A part of the interview that is gone through once per item of a collection. -/
structure Loop where
  name : String
  autoIterates : Bool
  isInner : Bool
  /-- Where the loop returns to: its topic for an inner loop, else its subcategory. -/
  fullRoute : String
  subcategoryRoute : String
  collection : String
  itemCompleteIf : Option Condition
  donePath : Option String
  knockoutRoute : Option String
deriving DecidableEq

/-- A topic or a loop. -/
inductive Division where
  | topic (t : Topic)
  | loop (l : Loop)
deriving DecidableEq

namespace Division

/-- The topic, if it is one. -/
def topic? : Division → Option Topic
  | topic t => some t
  | loop _ => none

/-- The loop, if it is one. -/
def loop? : Division → Option Loop
  | topic _ => none
  | loop l => some l

/-- The subcategory that the division belongs to. -/
def subcategoryRoute : Division → String
  | topic t => t.subcategoryRoute
  | loop l => l.subcategoryRoute

/-- Whether the division is no part of a loop. -/
def isOutermost : Division → Bool
  | topic t => t.loop.isNone
  | loop _ => true

end Division

/-- A sentence for the summary of a subcategory. -/
structure Assertion where
  kind : AlertKind
  key : String
  /-- The conditions of the gates around the assertion, then its own. -/
  conditions : List Condition
  editRoute : Option String
  subcategoryRoute : String
  topicRoute : Option String
deriving DecidableEq

/-- A section of the checklist. -/
structure Subcategory where
  route : String
  /-- The position of its category. -/
  category : Nat
  categoryRoute : String
  completeIf : List Condition
  displayOnlyIf : List Condition
  /-- The collection, or reference to an item, that the subcategory is about. -/
  collection : Option String
  hasDataView : Bool
  signsAndSubmits : Bool
  locksOnUnfinishedItems : Bool
deriving DecidableEq

/-- A heading of the checklist. -/
structure Category where
  route : String
deriving DecidableEq

/-- An interview that has been checked. -/
structure Flow where
  categories : List Category
  subcategories : List Subcategory
  /-- Topics and loops. -/
  divisions : List Division
  assertions : List Assertion
  screens : List Screen
  batches : Batch.Registry
deriving DecidableEq

namespace Flow

/-- The flow without parts. -/
def empty (batches : Batch.Registry) : Flow := ⟨[], [], [], [], [], batches⟩

/-! ## Parts of parts -/

/-- All topics, in the order in which they are declared first. -/
def topics (f : Flow) : List Topic :=
  f.divisions.filterMap Division.topic?

/-- All loops. -/
def loops (f : Flow) : List Loop :=
  f.divisions.filterMap Division.loop?

/-- The subcategories of the category at a position. -/
def subcategoriesOf (f : Flow) (category : Nat) : List Subcategory :=
  f.subcategories.filter (·.category = category)

/-- The screens of a subcategory, those of its loops included. -/
def screensOf (f : Flow) (s : Subcategory) : List Screen :=
  f.screens.filter (·.subcategoryRoute = s.route)

/-- The screens of a topic. -/
def screensOfTopic (f : Flow) (t : Topic) : List Screen :=
  f.screens.filter (·.topicRoute = some t.fullRoute)

/-- The screens of a loop. -/
def screensOfLoop (f : Flow) (l : Loop) : List Screen :=
  f.screens.filter (·.loopName = some l.name)

/-- The topics of a subcategory, those of its loops included. -/
def topicsOf (f : Flow) (s : Subcategory) : List Topic :=
  f.topics.filter (·.subcategoryRoute = s.route)

/-- The loops of a subcategory. -/
def loopsOf (f : Flow) (s : Subcategory) : List Loop :=
  f.loops.filter (·.subcategoryRoute = s.route)

/-- The topics and loops of a subcategory that are no part of a loop. -/
def divisionsOf (f : Flow) (s : Subcategory) : List Division :=
  f.divisions.filter fun d => d.subcategoryRoute = s.route && d.isOutermost

/-- The assertions of a subcategory. -/
def assertionsOf (f : Flow) (s : Subcategory) : List Assertion :=
  f.assertions.filter (·.subcategoryRoute = s.route)

/-! ## Looking parts up -/

/-- The screen with a full route. -/
def screen? (f : Flow) (fullRoute : String) : Option Screen :=
  f.screens.find? (·.fullRoute = fullRoute)

/-- The subcategory with a route. -/
def subcategory? (f : Flow) (route : String) : Option Subcategory :=
  f.subcategories.find? (·.route = route)

/-- The topic with a full route. -/
def topic? (f : Flow) (fullRoute : String) : Option Topic :=
  f.topics.find? (·.fullRoute = fullRoute)

/-- The loop with a name. -/
def loop? (f : Flow) (name : String) : Option Loop :=
  f.loops.find? (·.name = name)

end Flow

/-! ## Order of screens -/

/-- The screens of a list that come after a given one. -/
def Screen.later (s : Screen) (screens : List Screen) : List Screen :=
  (screens.dropWhile (·.fullRoute ≠ s.fullRoute)).drop 1

end Interview

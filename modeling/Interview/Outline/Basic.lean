import Interview.Batch.Basic
import Interview.Content.Basic

/-!
# Outlines

An outline declares an interview as a tree. Categories hold subcategories; a subcategory holds
screens, either directly or within topics and loops. A topic groups screens that are summarised
together. A loop is gone through once for every item of a collection. A gate stands anywhere and
puts its condition on everything below it. An assertion is a sentence for the summary of a
subcategory.
-/

namespace Interview

/-- What is declared about a subcategory besides its parts. -/
structure SubcategoryHead where
  route : String
  completeIf : List Condition
  displayOnlyIf : List Condition
  skipsDataView : Bool
  signsAndSubmits : Bool
  /-- Whether later sections stay locked as long as an item of a loop is unfinished. -/
  locksOnUnfinishedItems : Bool
  /-- The collection, or reference to an item, that the subcategory is about. -/
  collection : Option String
deriving DecidableEq

/-- What is declared about a loop besides its parts. -/
structure LoopHead where
  name : String
  /-- The collection gone through; by default the one that the surroundings are about. -/
  collection : Option String
  /-- Whether the filer is led from item to item, instead of back to an overview. -/
  autoIterates : Bool
  /-- Whether the loop belongs to its topic, instead of to the subcategory. -/
  isInner : Bool
  itemCompleteIf : Option Condition
  donePath : Option String
  knockoutRoute : Option String
deriving DecidableEq

/-- What is declared about a screen. -/
structure ScreenHead where
  route : String
  condition : Option Condition
  routesAutomatically : Option Bool
  isKnockout : Bool
  actsAsDataView : Bool
  /-- Whether the screen is reached at the address of its topic's summary. -/
  overridesRoute : Bool
  content : List Element
deriving DecidableEq

/-- What is declared about an assertion. -/
structure AssertionHead where
  kind : AlertKind
  key : String
  conditions : List Condition
  editRoute : Option String
deriving DecidableEq

/-- A node of an outline, with the nodes below it. -/
inductive Node where
  | category (route : String) (children : List Node)
  | subcategory (head : SubcategoryHead) (children : List Node)
  | topic (route : String) (children : List Node)
  | loop (head : LoopHead) (children : List Node)
  | gate (condition : Condition) (children : List Node)
  | screen (head : ScreenHead)
  | assertion (head : AssertionHead)
deriving Inhabited

/-- The outline of an interview. -/
structure Outline where
  batches : Batch.Registry
  nodes : List Node

end Interview

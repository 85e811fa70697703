import Interview.Outline.Basic

/-!
# Entries of an outline

Read from top to bottom, an outline is a list of entries, each with the scope in which it stands:
the category, subcategory, topic and loop around it, the collection it is about, and the conditions
of the gates around it, the outermost first. A gate has no entry of its own; a loop has one at
either end.
-/

namespace Interview

/-- What screens of a loop know of it. -/
structure LoopMembership where
  name : String
  autoIterates : Bool
  isInner : Bool
deriving DecidableEq

/-- The surroundings of a node. -/
structure Scope where
  /-- The full route of the category. -/
  category : Option String
  /-- The full route of the subcategory. -/
  subcategory : Option String
  /-- The full route of the innermost topic. -/
  topic : Option String
  loop : Option LoopMembership
  /-- The collection whose items the screens are shown for. -/
  collection : Option String
  conditions : List Condition
deriving DecidableEq

/-- The surroundings of the outermost nodes. -/
def Scope.outermost : Scope := ⟨none, none, none, none, none, []⟩

namespace Scope

/-- The full route of a category. -/
def categoryRoute (route : String) : String :=
  "/flow/" ++ route

/-- The full route of a part below a route. -/
def below (parent : Option String) (route : String) : String :=
  parent.getD "" ++ "/" ++ route

/-- The collection that a loop goes through. -/
def loopCollection (s : Scope) (head : LoopHead) : Option String :=
  head.collection.or s.collection

/-- The scope of the nodes below a category. -/
def enterCategory (s : Scope) (route : String) : Scope :=
  { s with category := some (categoryRoute route) }

/-- The scope of the nodes below a subcategory. -/
def enterSubcategory (s : Scope) (head : SubcategoryHead) : Scope :=
  { s with
    subcategory := some (below s.category head.route)
    collection := head.collection.or s.collection }

/-- The scope of the nodes below a topic. -/
def enterTopic (s : Scope) (route : String) : Scope :=
  { s with topic := some (below s.subcategory route) }

/-- The scope of the nodes below a loop. -/
def enterLoop (s : Scope) (head : LoopHead) : Scope :=
  { s with
    loop := some ⟨head.name, head.autoIterates, head.isInner⟩
    collection := s.loopCollection head }

/-- The scope of the nodes below a gate. -/
def enterGate (s : Scope) (condition : Condition) : Scope :=
  { s with conditions := s.conditions ++ [condition] }

end Scope

/-- What an entry is about. -/
inductive Entry.Item where
  | category (route : String)
  | subcategory (head : SubcategoryHead)
  | topic (route : String)
  | loop (head : LoopHead)
  /-- The end of a loop. -/
  | loopEnd (name : String)
  | screen (head : ScreenHead)
  | assertion (head : AssertionHead)
deriving DecidableEq

/-- An entry of an outline. -/
structure Entry where
  scope : Scope
  item : Entry.Item
deriving DecidableEq

mutual

/-- The entries of a node and those below it. -/
def Node.entries (scope : Scope) : Node → List Entry
  | .category route children =>
    ⟨scope, .category route⟩ :: Node.allEntries (scope.enterCategory route) children
  | .subcategory head children =>
    ⟨scope, .subcategory head⟩ :: Node.allEntries (scope.enterSubcategory head) children
  | .topic route children =>
    ⟨scope, .topic route⟩ :: Node.allEntries (scope.enterTopic route) children
  | .loop head children =>
    ⟨scope, .loop head⟩ :: Node.allEntries (scope.enterLoop head) children
      ++ [⟨scope, .loopEnd head.name⟩]
  | .gate condition children => Node.allEntries (scope.enterGate condition) children
  | .screen head => [⟨scope, .screen head⟩]
  | .assertion head => [⟨scope, .assertion head⟩]

/-- The entries of several nodes. -/
def Node.allEntries (scope : Scope) : List Node → List Entry
  | [] => []
  | node :: rest => node.entries scope ++ Node.allEntries scope rest

end

/-- The entries of an outline. -/
def Outline.entries (o : Outline) : List Entry :=
  Node.allEntries .outermost o.nodes

end Interview

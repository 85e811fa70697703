import Interview.Flow.Build
import Interview.Table

/-!
# Graphs

A graph has the same parts as a flow, but it numbers them: every part lists the numbers of the parts
that belong to it, and an index for each kind of part leads from routes and names to numbers. So
nothing has to be searched for. A graph is built in one walk through the tree, which carries along
the numbers of the parts around.
-/

namespace Interview

namespace Graph

/-- A topic or loop that is no part of a loop, by its number. -/
inductive Section where
  | topic (id : Nat)
  | loop (id : Nat)
deriving DecidableEq, Repr

/-- A category, with the numbers of its subcategories. -/
structure CategoryNode extends Category where
  subcategories : List Nat
deriving DecidableEq

/-- A subcategory, with the numbers of its parts. -/
structure SubcategoryNode extends Subcategory where
  /-- The screens, those of loops included. -/
  screens : List Nat
  /-- The topics, those of loops included. -/
  topics : List Nat
  loops : List Nat
  /-- The topics and loops that are no part of a loop. -/
  sections : List Section
  assertions : List Assertion
deriving DecidableEq

/-- A topic, with the numbers of its screens. -/
structure TopicNode extends Topic where
  screens : List Nat
deriving DecidableEq

/-- A loop, with the numbers of its parts. -/
structure LoopNode extends Loop where
  screens : List Nat
  topics : List Nat
deriving DecidableEq

/-- A part that nothing belongs to yet. -/
def CategoryNode.bare (c : Category) : CategoryNode := ⟨c, []⟩

@[inherit_doc CategoryNode.bare]
def SubcategoryNode.bare (s : Subcategory) : SubcategoryNode := ⟨s, [], [], [], [], []⟩

@[inherit_doc CategoryNode.bare]
def TopicNode.bare (t : Topic) : TopicNode := ⟨t, []⟩

@[inherit_doc CategoryNode.bare]
def LoopNode.bare (l : Loop) : LoopNode := ⟨l, [], []⟩

end Graph

open Interview.Graph

/-- An interview whose parts are numbered. -/
structure Graph where
  categories : List CategoryNode
  subcategories : List SubcategoryNode
  topics : List TopicNode
  loops : List LoopNode
  /-- The screens, in the order of the outline. -/
  screens : List Screen
  batches : Batch.Registry
  subcategoryIndex : Table Nat
  topicIndex : Table Nat
  loopIndex : Table Nat
  screenIndex : Table Nat
deriving DecidableEq

namespace Graph

/-- The graph without parts. -/
def empty (batches : Batch.Registry) : Graph :=
  ⟨[], [], [], [], [], batches, .empty, .empty, .empty, .empty⟩

/-! ## Places -/

/-- The surroundings of a node: what a scope says, but with the numbers of the parts. -/
structure Place where
  category : Option Nat
  subcategory : Option Nat
  topic : Option Nat
  loop : Option Nat
  collection : Option String
  conditions : List Condition
deriving DecidableEq

/-- The surroundings of the outermost nodes. -/
def Place.outermost : Place := ⟨none, none, none, none, none, []⟩

/-- The scope that a place stands for. -/
def scope (G : Graph) (p : Place) : Scope :=
  { category := (p.category.bind (G.categories[·]?)).map (·.route)
    subcategory := (p.subcategory.bind (G.subcategories[·]?)).map (·.route)
    topic := (p.topic.bind (G.topics[·]?)).map (·.fullRoute)
    loop := (p.loop.bind (G.loops[·]?)).map fun l => ⟨l.name, l.autoIterates, l.isInner⟩
    collection := p.collection
    conditions := p.conditions }

/-! ## New parts -/

/-- Takes a category in. -/
def pushCategory (G : Graph) (c : Category) : Graph :=
  { G with categories := G.categories ++ [.bare c] }

/-- Takes a subcategory of a category in. -/
def pushSubcategory (G : Graph) (category : Nat) (s : Subcategory) : Graph :=
  let id := G.subcategories.length
  { G with
    subcategories := G.subcategories ++ [.bare s]
    subcategoryIndex := G.subcategoryIndex.insert s.route id
    categories := G.categories.modify category fun node =>
      { node with subcategories := node.subcategories ++ [id] } }

/-- Takes a topic in, which belongs to a subcategory and perhaps to a loop. -/
def pushTopic (G : Graph) (subcategory : Nat) (loop : Option Nat) (t : Topic) : Graph :=
  let id := G.topics.length
  { G with
    topics := G.topics ++ [.bare t]
    topicIndex := G.topicIndex.insert t.fullRoute id
    subcategories := G.subcategories.modify subcategory fun node =>
      { node with
        topics := node.topics ++ [id]
        sections := if loop.isNone then node.sections ++ [.topic id] else node.sections }
    loops := match loop with
      | some l => G.loops.modify l fun node => { node with topics := node.topics ++ [id] }
      | none => G.loops }

/-- Takes a loop of a subcategory in. -/
def pushLoop (G : Graph) (subcategory : Nat) (l : Loop) : Graph :=
  let id := G.loops.length
  { G with
    loops := G.loops ++ [.bare l]
    loopIndex := G.loopIndex.insert l.name id
    subcategories := G.subcategories.modify subcategory fun node =>
      { node with loops := node.loops ++ [id], sections := node.sections ++ [.loop id] } }

/-- Takes a screen in, which belongs to a subcategory and perhaps to a topic and a loop. -/
def pushScreen (G : Graph) (subcategory : Nat) (topic loop : Option Nat) (s : Screen) : Graph :=
  let id := G.screens.length
  { G with
    screens := G.screens ++ [s]
    screenIndex := G.screenIndex.insert s.fullRoute id
    subcategories := G.subcategories.modify subcategory fun node =>
      { node with screens := node.screens ++ [id] }
    topics := match topic with
      | some t => G.topics.modify t fun node => { node with screens := node.screens ++ [id] }
      | none => G.topics
    loops := match loop with
      | some l => G.loops.modify l fun node => { node with screens := node.screens ++ [id] }
      | none => G.loops }

/-- Takes an assertion of a subcategory in. -/
def pushAssertion (G : Graph) (subcategory : Nat) (a : Assertion) : Graph :=
  { G with subcategories := G.subcategories.modify subcategory fun node =>
      { node with assertions := node.assertions ++ [a] } }

/-! ## Nodes -/

/-- Goes into a category. -/
def enterCategory (G : Graph) (p : Place) (route : String) :
    Except DefinitionError (Graph × Place) :=
  if p.category.isSome then
    throw (.misplaced .category route)
  else
    return (G.pushCategory ⟨Scope.categoryRoute route⟩,
      { p with category := some G.categories.length })

/-- Goes into a subcategory. -/
def enterSubcategory (G : Graph) (p : Place) (head : SubcategoryHead) :
    Except DefinitionError (Graph × Place) :=
  match p.category, p.subcategory with
  | some category, none =>
    let s := Subcategory.place category ((G.scope p).category.getD "") head
    if (G.subcategoryIndex.get? s.route).isSome then
      throw (.duplicateSubcategory s.route)
    else
      return (G.pushSubcategory category s,
        { p with
          subcategory := some G.subcategories.length
          collection := head.collection.or p.collection })
  | _, _ => throw (.misplaced .subcategory head.route)

/-- Goes into a topic. One that is there already is gone into again. -/
def enterTopic (G : Graph) (p : Place) (route : String) :
    Except DefinitionError (Graph × Place) :=
  match p.subcategory with
  | none => throw (.misplaced .topic route)
  | some subcategory =>
    let t := Topic.place (G.scope p) ((G.scope p).subcategory.getD "") route
    match G.topicIndex.get? t.fullRoute with
    | some id => return (G, { p with topic := some id })
    | none =>
      return (G.pushTopic subcategory p.loop t, { p with topic := some G.topics.length })

/-- Goes into a loop. -/
def enterLoop (G : Graph) (p : Place) (head : LoopHead) :
    Except DefinitionError (Graph × Place) :=
  match p.subcategory with
  | none => throw (.misplaced .loop head.name)
  | some subcategory =>
    match (G.scope p).loop with
    | some parent => throw (.nestedLoop head.name parent.name)
    | none =>
      if (G.loopIndex.get? head.name).isSome then
        throw (.duplicateLoop head.name)
      else
        match (G.scope p).loopCollection head with
        | none => throw (.loopWithoutCollection head.name)
        | some collection => do
          let subcategoryRoute := (G.scope p).subcategory.getD ""
          let fullRoute ← Flow.loopRoute (G.scope p) subcategoryRoute head
          return (G.pushLoop subcategory (.place subcategoryRoute fullRoute collection head),
            { p with loop := some G.loops.length, collection := some collection })

/-- Goes out of a loop, which must have got screens. -/
def leaveLoop (G : Graph) (p : Place) (name : String) : Except DefinitionError Graph :=
  if ((p.loop.bind (G.loops[·]?)).map (·.screens)).getD [] = [] then
    throw (.emptyLoop name)
  else
    return G

/-- Takes the node of a screen. -/
def addScreen (G : Graph) (p : Place) (head : ScreenHead) : Except DefinitionError Graph :=
  match p.category, p.subcategory with
  | some _, some subcategory => do
    let s := Screen.place (G.scope p) ((G.scope p).subcategory.getD "") head
    if (G.screenIndex.get? s.fullRoute).isSome then
      throw (.duplicateScreen s.fullRoute)
    s.checkBatches G.batches
    s.check
    return G.pushScreen subcategory p.topic p.loop s
  | _, _ => throw (.misplaced .screen head.route)

/-- Takes the node of an assertion. -/
def addAssertion (G : Graph) (p : Place) (head : AssertionHead) : Except DefinitionError Graph :=
  match p.subcategory with
  | none => throw (.misplaced .assertion head.key)
  | some subcategory =>
    return G.pushAssertion subcategory
      (.place (G.scope p) ((G.scope p).subcategory.getD "") head)

mutual

/-- Takes a node and those below it. -/
def visit (G : Graph) (p : Place) : Node → Except DefinitionError Graph
  | .category route children => do
    let (G, p) ← G.enterCategory p route
    G.visitAll p children
  | .subcategory head children => do
    let (G, p) ← G.enterSubcategory p head
    G.visitAll p children
  | .topic route children => do
    let (G, p) ← G.enterTopic p route
    G.visitAll p children
  | .loop head children => do
    let (G, p) ← G.enterLoop p head
    let G ← G.visitAll p children
    G.leaveLoop p head.name
  | .gate condition children =>
    G.visitAll { p with conditions := p.conditions ++ [condition] } children
  | .screen head => G.addScreen p head
  | .assertion head => G.addAssertion p head

/-- Takes several nodes. -/
def visitAll (G : Graph) (p : Place) : List Node → Except DefinitionError Graph
  | [] => return G
  | node :: rest => do
    let G ← G.visit p node
    G.visitAll p rest

end

/-- The graph of an outline. -/
def build (o : Outline) : Except DefinitionError Graph := do
  let G ← (empty o.batches).visitAll .outermost o.nodes
  if G.screens = [] then throw .emptyFlow else return G

/-! ## Looking parts up -/

/-- The number of the screen with a full route. -/
def screenId? (G : Graph) (fullRoute : String) : Option Nat :=
  G.screenIndex.get? fullRoute

/-- The number of the subcategory with a route. -/
def subcategoryId? (G : Graph) (route : String) : Option Nat :=
  G.subcategoryIndex.get? route

/-- The number of the topic with a full route. -/
def topicId? (G : Graph) (fullRoute : String) : Option Nat :=
  G.topicIndex.get? fullRoute

/-- The number of the loop with a name. -/
def loopId? (G : Graph) (name : String) : Option Nat :=
  G.loopIndex.get? name

end Graph

end Interview

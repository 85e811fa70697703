import Interview.Flow.Basic
import Interview.Flow.Error

/-!
# Building flows

A flow is built by taking the entries of an outline one after the other. Each entry is checked
against its scope and the flow built so far, and adds at most one part to the end of one list.
-/

namespace Interview

/-! ## Screens -/

namespace Screen

/-- The batch names of some elements, each at its first place. -/
def batchNames (content : List Element) : List String :=
  (content.flatMap (·.batches)).foldl
    (fun names name => if names.contains name then names else names ++ [name]) []

/-- The screen that is declared in a scope within a subcategory. -/
def place (scope : Scope) (subcategoryRoute : String) (head : ScreenHead) : Screen :=
  { route := head.route
    fullRoute := Scope.below (some subcategoryRoute) head.route
    categoryRoute := scope.category.getD ""
    subcategoryRoute
    topicRoute := scope.topic
    conditions := scope.conditions ++ head.condition.toList
    collection := scope.collection
    membership := scope.loop
    routesAutomatically := head.routesAutomatically.getD true
    isKnockout := head.isKnockout
    actsAsDataView := head.actsAsDataView
    overridesRoute := head.overridesRoute
    content := head.content
    batches := batchNames head.content }

/-- Checks that there is one heading for every case: one without conditions, or several with. -/
def checkHeadings (s : Screen) : Except DefinitionError Unit :=
  match s.content.filter (·.content.isHeading) with
  | [] => throw (.missingHeading s.fullRoute)
  | [heading] =>
    if heading.conditions ≠ [] then throw (.singleConditionalHeading s.fullRoute) else pure ()
  | headings =>
    if headings.any (·.conditions = []) then throw (.ambiguousHeadings s.fullRoute) else pure ()

/-- Checks the content of a screen. -/
def check (s : Screen) : Except DefinitionError Unit := do
  s.checkHeadings
  if !s.content.any (·.content.leavesScreen) then
    throw (.missingExit s.fullRoute)
  if s.topicRoute.isNone && !s.fieldPaths.isEmpty then
    throw (.fieldsOutsideTopic s.fullRoute)

/-- Checks that all batches of the content are registered. -/
def checkBatches (s : Screen) (registry : Batch.Registry) : Except DefinitionError Unit :=
  match (s.content.flatMap (·.batches)).find? fun name => (registry.get? name).isNone with
  | some name => throw (.unknownBatch s.fullRoute name)
  | none => pure ()

end Screen

/-! ## Other parts -/

/-- The subcategory that is declared in the category at a position. -/
def Subcategory.place (category : Nat) (categoryRoute : String) (head : SubcategoryHead) :
    Subcategory :=
  { route := Scope.below (some categoryRoute) head.route
    category
    categoryRoute
    completeIf := head.completeIf
    displayOnlyIf := head.displayOnlyIf
    collection := head.collection
    hasDataView := !head.skipsDataView
    signsAndSubmits := head.signsAndSubmits
    locksOnUnfinishedItems := head.locksOnUnfinishedItems }

/-- The topic that is declared in a scope within a subcategory. -/
def Topic.place (scope : Scope) (subcategoryRoute route : String) : Topic :=
  { route
    fullRoute := Scope.below (some subcategoryRoute) route
    subcategoryRoute
    loop := scope.loop.map (·.name) }

/-- The loop that is declared within a subcategory, with the route that it returns to and the
collection that it goes through. -/
def Loop.place (subcategoryRoute fullRoute collection : String) (head : LoopHead) : Loop :=
  { name := head.name
    autoIterates := head.autoIterates
    isInner := head.isInner
    fullRoute
    subcategoryRoute
    collection
    itemCompleteIf := head.itemCompleteIf
    donePath := head.donePath
    knockoutRoute := head.knockoutRoute }

/-- The assertion that is declared in a scope within a subcategory. -/
def Assertion.place (scope : Scope) (subcategoryRoute : String) (head : AssertionHead) :
    Assertion :=
  { kind := head.kind
    key := head.key
    conditions := scope.conditions ++ head.conditions
    editRoute := head.editRoute
    subcategoryRoute
    topicRoute := scope.topic }

/-! ## Entries -/

namespace Flow

/-- Takes the entry of a category. -/
def addCategory (f : Flow) (scope : Scope) (route : String) : Except DefinitionError Flow :=
  if scope.category.isSome then
    throw (.misplaced .category route)
  else
    return { f with categories := f.categories ++ [⟨Scope.categoryRoute route⟩] }

/-- Takes the entry of a subcategory. Its category is the last one taken. -/
def addSubcategory (f : Flow) (scope : Scope) (head : SubcategoryHead) :
    Except DefinitionError Flow :=
  match scope.category, scope.subcategory with
  | some categoryRoute, none =>
    let subcategory := Subcategory.place (f.categories.length - 1) categoryRoute head
    if (f.subcategory? subcategory.route).isSome then
      throw (.duplicateSubcategory subcategory.route)
    else
      return { f with subcategories := f.subcategories ++ [subcategory] }
  | _, _ => throw (.misplaced .subcategory head.route)

/-- Takes the entry of a topic. A topic that is known already is gone on with. -/
def addTopic (f : Flow) (scope : Scope) (route : String) : Except DefinitionError Flow :=
  match scope.subcategory with
  | none => throw (.misplaced .topic route)
  | some subcategoryRoute =>
    let topic := Topic.place scope subcategoryRoute route
    if (f.topic? topic.fullRoute).isSome then
      return f
    else
      return { f with divisions := f.divisions ++ [.topic topic] }

/-- The route that a loop returns to. -/
def loopRoute (scope : Scope) (subcategoryRoute : String) (head : LoopHead) :
    Except DefinitionError String :=
  if head.isInner then
    match scope.topic with
    | some topicRoute => return topicRoute
    | none => throw (.innerLoopOutsideTopic head.name)
  else
    return subcategoryRoute

/-- Takes the entry of a loop. -/
def addLoop (f : Flow) (scope : Scope) (head : LoopHead) : Except DefinitionError Flow :=
  match scope.subcategory with
  | none => throw (.misplaced .loop head.name)
  | some subcategoryRoute =>
    match scope.loop with
    | some parent => throw (.nestedLoop head.name parent.name)
    | none =>
      if (f.loop? head.name).isSome then
        throw (.duplicateLoop head.name)
      else
        match scope.loopCollection head with
        | none => throw (.loopWithoutCollection head.name)
        | some collection => do
          let fullRoute ← loopRoute scope subcategoryRoute head
          let loop := Loop.place subcategoryRoute fullRoute collection head
          return { f with divisions := f.divisions ++ [.loop loop] }

/-- Takes the end of a loop. -/
def endLoop (f : Flow) (name : String) : Except DefinitionError Flow :=
  if f.screens.any (·.loopName = some name) then return f else throw (.emptyLoop name)

/-- Takes the entry of a screen. -/
def addScreen (f : Flow) (scope : Scope) (head : ScreenHead) : Except DefinitionError Flow :=
  match scope.subcategory with
  | none => throw (.misplaced .screen head.route)
  | some subcategoryRoute => do
    let screen := Screen.place scope subcategoryRoute head
    if (f.screen? screen.fullRoute).isSome then
      throw (.duplicateScreen screen.fullRoute)
    screen.checkBatches f.batches
    screen.check
    return { f with screens := f.screens ++ [screen] }

/-- Takes the entry of an assertion. -/
def addAssertion (f : Flow) (scope : Scope) (head : AssertionHead) : Except DefinitionError Flow :=
  match scope.subcategory with
  | none => throw (.misplaced .assertion head.key)
  | some subcategoryRoute =>
    return { f with assertions := f.assertions ++ [.place scope subcategoryRoute head] }

/-- Takes an entry. -/
def add (f : Flow) (entry : Entry) : Except DefinitionError Flow :=
  match entry.item with
  | .category route => f.addCategory entry.scope route
  | .subcategory head => f.addSubcategory entry.scope head
  | .topic route => f.addTopic entry.scope route
  | .loop head => f.addLoop entry.scope head
  | .loopEnd name => f.endLoop name
  | .screen head => f.addScreen entry.scope head
  | .assertion head => f.addAssertion entry.scope head

/-- The flow of an outline. -/
def build (o : Outline) : Except DefinitionError Flow := do
  let f ← o.entries.foldlM add (empty o.batches)
  if f.screens = [] then throw .emptyFlow else return f

end Flow

end Interview

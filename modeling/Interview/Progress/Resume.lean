import Interview.Flow.Iteration

/-!
# Where a filer stands in a subcategory

Whether a subcategory has been started, and at which screen to go on with it: the first screen,
topic by topic and loop by loop, that still waits for an answer.
-/

namespace Interview

/-- A screen to go on with, and the item to show it for. -/
structure ResumePoint where
  screen : Screen
  item : Option String
deriving DecidableEq

namespace Flow

/-- The item that a subcategory is shown for: the one that its reference refers to. -/
def contextItem (s : Subcategory) : Reading (Option String) :=
  match s.collection with
  | some collection => Reading.referencedItem collection
  | none => return none

/-- The screens of a subcategory that belong to no loop. -/
def ownScreens (f : Flow) (s : Subcategory) : List Screen :=
  (f.screensOf s).filter (·.membership.isNone)

/-- Whether a subcategory has been started: a required fact on a screen outside its loops is
complete, or a loop that does not lead from item to item has items. The items of the other loops may
be there before the filer enters the subcategory. -/
def isStarted (f : Flow) (ctx : Context) (s : Subcategory) (item : Option String) :
    Reading Bool := do
  let answered ← (f.ownScreens s).anyM fun screen => do
    if ← screen.isAvailable ctx item then screen.hasAnswer ctx item else return false
  if answered then
    return true
  else
    (f.loopsOf s).anyM fun l => if l.autoIterates then return false else l.hasMembers

/-- The assertions of a subcategory that hold. -/
def activeAssertions (f : Flow) (ctx : Context) (s : Subcategory) (item : Option String) :
    Reading (List Assertion) :=
  (f.assertionsOf s).filterM fun assertion => Condition.allHold ctx item assertion.conditions

/-! ## Resume points -/

/-- The first screen of a loop that waits for an answer about an item; none if the item is
finished. -/
def firstUnansweredOfLoop (f : Flow) (ctx : Context) (l : Loop) (item : Option String) :
    Reading (Option Screen) := do
  let finished ← match item with
    | some item => l.isItemComplete ctx item
    | none => pure false
  if finished then return none else Screen.firstUnanswered ctx item (f.screensOfLoop l)

/-- The first unfinished item of a loop with a screen that waits for an answer about it. -/
def unfinishedPoint (f : Flow) (ctx : Context) (l : Loop) : Reading (Option ResumePoint) := do
  if ← l.hasUnfinishedItem ctx then
    (← l.items).findSomeM? fun item => do
      return (← f.firstUnansweredOfLoop ctx l (some item)).map (⟨·, some item⟩)
  else
    return none

/-- The screen in the section that a loop returns to on which its collection is managed. -/
def hub? (f : Flow) (s : Subcategory) (l : Loop) : Option Screen :=
  ((f.topicsOf s).find? (·.fullRoute = l.fullRoute)).bind fun topic =>
    (f.screensOfTopic topic).find? fun screen => screen.content.any (·.content.managesCollection)

/-- Whether the mark that a loop is done is set. -/
def isMarkedDone (donePath : String) : Reading Bool :=
  return (← Reading.lookup donePath none).any fun fact => fact.complete && fact.isTruthy

/-- The hub of a loop that is not marked as done. A loop without a mark has none. -/
def pendingHub (f : Flow) (ctx : Context) (s : Subcategory) (l : Loop) (item : Option String) :
    Reading (Option Screen) :=
  match l.donePath with
  | none => return none
  | some donePath => do
    if ← isMarkedDone donePath then
      return none
    else
      match f.hub? s l with
      | none => return none
      | some hub => if ← hub.isAvailable ctx item then return some hub else return none

/-- The screen of a topic or loop to go on with. -/
def divisionPoint (f : Flow) (ctx : Context) (s : Subcategory) (item : Option String) :
    Division → Reading (Option ResumePoint)
  | .topic topic => do
    let screens := (f.screensOfTopic topic).filter (·.membership.isNone)
    return (← Screen.firstUnanswered ctx item screens).map (⟨·, item⟩)
  | .loop l => do
    match ← f.unfinishedPoint ctx l with
    | some point => return some point
    | none => return (← f.pendingHub ctx s l item).map (⟨·, item⟩)

/-- The screen of a subcategory to go on with. -/
def resumePoint (f : Flow) (ctx : Context) (s : Subcategory) (item : Option String) :
    Reading (Option ResumePoint) :=
  (f.divisionsOf s).findSomeM? (f.divisionPoint ctx s item)

end Flow

/-! ## The report -/

/-- How far a loop is. -/
structure LoopSummary where
  loop : String
  progress : LoopProgress
  /-- Where to go on, in a loop that leads from item to item. -/
  resumeAt : Option ResumePoint
deriving DecidableEq

/-- How far a subcategory is. -/
structure SubcategoryProgress where
  subcategoryRoute : String
  item : Option String
  started : Bool
  resumeAt : Option ResumePoint
  loops : List LoopSummary
  /-- The keys of the assertions that hold. -/
  assertions : List String
deriving DecidableEq

namespace Flow

/-- How far a loop is. -/
def loopSummary (f : Flow) (ctx : Context) (l : Loop) : Reading LoopSummary := do
  let progress ← l.progress ctx
  let resumeAt ← f.loopResumePoint ctx l
  return ⟨l.name, progress, resumeAt.map fun (screen, item) => ⟨screen, some item⟩⟩

/-- How far a subcategory is. -/
def progress (f : Flow) (ctx : Context) (s : Subcategory) : Reading SubcategoryProgress := do
  let item ← contextItem s
  let loops ← (f.loopsOf s).mapM (f.loopSummary ctx)
  let started ← f.isStarted ctx s item
  let resumeAt ← f.resumePoint ctx s item
  let assertions ← f.activeAssertions ctx s item
  return ⟨s.route, item, started, resumeAt, loops, assertions.map (·.key)⟩

end Flow

end Interview

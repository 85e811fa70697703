import Interview.Flow.Basic
import Interview.Route.Query

/-!
# Screens in front of the facts

Where a screen is found, whether it can be shown in the context of an item, and which facts the
filer still has to answer on it.
-/

namespace Interview.Screen

/-- The address of a screen shown for an item. A screen that overrides its route is found at the
summary of its topic, whatever the item. -/
def address (s : Screen) (item : Option String) (review : Bool) : String :=
  match s.overridesRoute, s.topicRoute with
  | true, some topicRoute => "/data-view" ++ topicRoute
  | _, _ => Route.withQuery s.fullRoute (Route.parameters s.collection item review)

/-- The collection that must have items for the screen to be shown at all: that of its loop, if the
loop leads from item to item. -/
def neededCollection (s : Screen) : Option String :=
  if s.isAutoIterating then s.collection else none

/-- Whether the screen cannot be shown because its loop has nothing to go through. -/
def isIdle (s : Screen) : Reading Bool :=
  match s.neededCollection with
  | some collection => return (← Reading.items collection).isEmpty
  | none => return false

/-- Whether the screen can be shown in the context of an item. -/
def isAvailable (ctx : Context) (item : Option String) (s : Screen) : Reading Bool := do
  if ← s.isIdle then return false else Condition.allHold ctx item s.conditions

/-- The paths of the facts that the filer has to answer on the screen. -/
def requiredPaths (ctx : Context) (item : Option String) (s : Screen) : Reading (List String) := do
  let shown ← s.content.filterM fun element => Condition.allHold ctx item element.conditions
  return (shown.filterMap (·.content.requiredPath)).filter (!ctx.settings.isOptional ·)

/-- Whether the fact at a path is complete in the context of an item. -/
def isAnswered (item : Option String) (path : String) : Reading Bool :=
  return (← Reading.lookup path item).any (·.complete)

/-- Whether a required fact on the screen is complete. -/
def hasAnswer (ctx : Context) (item : Option String) (s : Screen) : Reading Bool := do
  (← s.requiredPaths ctx item).anyM (isAnswered item)

/-- Whether leaving the screen sets a fact that is not complete yet. -/
def setsOpenFact (ctx : Context) (item : Option String) (s : Screen) : Reading Bool :=
  s.content.anyM fun element =>
    match element.content.setPath with
    | some path => do
      if ← Condition.allHold ctx item element.conditions then
        return !(← isAnswered item path)
      else
        return false
    | none => return false

/-- Whether the screen still waits for an answer: a required fact, or a fact that it sets, is not
complete. -/
def isUnanswered (ctx : Context) (item : Option String) (s : Screen) : Reading Bool := do
  if ← (← s.requiredPaths ctx item).anyM fun path => return !(← isAnswered item path) then
    return true
  else
    s.setsOpenFact ctx item

/-- The first of some screens that can be shown and still waits for an answer. -/
def firstUnanswered (ctx : Context) (item : Option String) (screens : List Screen) :
    Reading (Option Screen) :=
  screens.findM? fun s => do
    if ← s.isAvailable ctx item then s.isUnanswered ctx item else return false

end Interview.Screen

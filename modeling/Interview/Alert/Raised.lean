import Interview.Alert.Basic
import Interview.Alert.Submission
import Interview.Flow.Iteration

/-!
# Alerts that screens raise

An alert declared on a screen is raised when its conditions hold. Without an item, an alert on a
screen of a loop is raised as well when they hold for an item of the loop's collection, and is then
about the first such item.
-/

namespace Interview

namespace Screen

/-- An alert of a screen that is shown for one item, about the same or another. -/
def alert (s : Screen) (shownFor about : Option String) (kind : AlertKind) (key : String)
    (factPaths : List String) (code : Option String) : Alert :=
  ⟨kind, key, s.address shownFor false, s.subcategoryRoute, s.topicRoute, s.loopName, about,
    factPaths, code⟩

/-- The items that alerts of a screen without an item may be about. -/
def loopItems (s : Screen) : Reading (List String) :=
  match s.membership, s.collection with
  | some _, some collection => Reading.items collection
  | _, _ => return []

/-- Whether conditions hold so that an alert is raised, and which item it is then about. -/
def raisedFor (ctx : Context) (item : Option String) (members : List String)
    (conditions : List Condition) : Reading (Option (Option String)) := do
  let holds ← Condition.allHold ctx item conditions
  match item with
  | some item => return if holds then some (some item) else none
  | none =>
    let member ← members.findM? fun member => Condition.allHold ctx (some member) conditions
    return if holds || member.isSome then some member else none

/-- The tax return alerts that a screen raises. -/
def taxReturnAlerts (ctx : Context) (item : Option String) (s : Screen) :
    Reading (List Alert) := do
  let members ← s.loopItems
  let alerts ← s.content.mapM fun element =>
    match element.content with
    | .taxReturnAlert kind key factPaths => do
      let about ← raisedFor ctx item members element.conditions
      return about.map fun about => s.alert item about kind key factPaths none
    | _ => return none
  return alerts.filterMap id

/-- The alerts that a screen raises about a rejected return. -/
def rejectionAlerts (ctx : Context) (submission : Submission) (item : Option String) (s : Screen) :
    Reading (List Alert) := do
  let alerts ← s.content.mapM fun element =>
    match element.content with
    | .rejectionAlert kind key code factPaths => do
      if submission.hasCode code then
        if ← Condition.allHold ctx item element.conditions then
          return some (s.alert item item kind key factPaths (some code))
        else
          return none
      else
        return none
    | _ => return none
  return alerts.filterMap id

end Screen

/-! ## Collecting them -/

/-- The tax return alerts of some screens in the context of an item. -/
def screenAlerts (ctx : Context) (item : Option String) (screens : List Screen) :
    Reading (List Alert) := do
  return (← screens.mapM (Screen.taxReturnAlerts ctx item)).flatten

/-- The alerts of some screens about a rejected return. -/
def rejectionAlerts (ctx : Context) (submission : Submission) (item : Option String)
    (screens : List Screen) : Reading (List Alert) := do
  return (← screens.mapM (Screen.rejectionAlerts ctx submission item)).flatten

namespace Flow

/-- The tax return alerts of a loop, item by item. -/
def alertsOfLoop (f : Flow) (ctx : Context) (l : Loop) : Reading (List Alert) := do
  let items ← l.items
  return (← items.mapM fun item => screenAlerts ctx (some item) (f.screensOfLoop l)).flatten

/-- The tax return alerts of some loops. -/
def loopAlerts (f : Flow) (ctx : Context) (loops : List Loop) : Reading (List Alert) := do
  return (← loops.mapM (f.alertsOfLoop ctx)).flatten

end Flow

end Interview

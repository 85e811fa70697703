import Interview.Screen.Availability

/-!
# Arrivals

Where the filer gets from a screen: to another screen, or out of the screens to a summary or to the
checklist; and for which item.
-/

namespace Interview

/-- Where a step leads. -/
inductive Destination where
  | screen (s : Screen)
  | checklist
  /-- The summary of a subcategory, at the anchor of a topic if one is given. -/
  | dataView (subcategoryRoute : String) (anchor : Option String)
  /-- The overview of a loop for one item. -/
  | loopDataView (loop : String)
deriving DecidableEq

/-- Where a step leads, and for which item. -/
structure Arrival where
  destination : Destination
  item : Option String
deriving DecidableEq

namespace Arrival

/-- The screen arrived at, if it is one. -/
def screen? (a : Arrival) : Option Screen :=
  match a.destination with
  | .screen s => some s
  | _ => none

/-- The address arrived at. -/
def address (a : Arrival) : String :=
  match a.destination with
  | .screen s => s.address a.item false
  | .checklist => "/checklist"
  | .dataView route (some anchor) => "/data-view" ++ route ++ "#" ++ anchor
  | .dataView route none => "/data-view" ++ route
  | .loopDataView loop =>
    let base := "/data-view/loop/" ++ Text.Percent.encode loop
    match a.item with
    | some item => base ++ "/" ++ item
    | none => base

end Arrival

/-- Why a step leads nowhere: a defect of the outline, not of the facts. -/
inductive NavigationError where
  | unknownScreen (screen : String)
  | nothingFollows (screen : String)
  | unknownLoop (loop : String)
  | noScreenForItem (loop item : String)
  | outsideTopic (screen : String)
deriving DecidableEq, Repr

/-- The wording of a failed step. -/
def NavigationError.message : NavigationError → String
  | unknownScreen screen => s!"screen {screen} is not part of the flow"
  | nothingFollows screen => s!"no available screen follows {screen}"
  | unknownLoop loop => s!"collection loop {loop} is not part of the flow"
  | noScreenForItem loop item =>
    s!"collection loop {loop} has no available screen for item {item}"
  | outsideTopic screen => s!"screen {screen} is not inside a sub-subcategory"

end Interview

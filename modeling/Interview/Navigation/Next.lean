import Interview.Flow.Iteration
import Interview.Navigation.Basic

/-!
# The next screen

From a screen shown for an item, the rules are tried in this order. At the last screen of a loop
the next item is taken up, or the filer returns to the overview of the loop. Otherwise the later
screens are scanned for the first that can be shown. A knockout screen is shown at once. In review,
a filer who would leave a topic stays in it as long as it has screens left, and then returns to its
summary. A screen of the same subcategory is shown. A filer who would leave the subcategory gets to
its summary or to the checklist.
-/

namespace Interview

/-! ## Scanning -/

/-- What a scan carries along: the loop of the last screen looked at, and the item it was looked at
for. -/
structure ScanState where
  loop : Option String
  item : Option String
deriving DecidableEq

/-- Goes on to a screen. Entering another loop, or leaving one, drops the item; a loop that leads
from item to item is entered at the first item of its collection. -/
def ScanState.enter (t : ScanState) (s : Screen) : Reading ScanState :=
  if s.isAutoIterating && (t.item.isNone || t.loop ≠ s.loopName) then
    match s.collection with
    | some collection => return ⟨s.loopName, (← Reading.items collection).head?⟩
    | none => return ⟨s.loopName, none⟩
  else
    return ⟨s.loopName, if t.loop ≠ s.loopName then none else t.item⟩

/-- Whether a scan stops at a screen: it is routed to automatically and can be shown. -/
def Screen.isReached (ctx : Context) (item : Option String) (s : Screen) : Reading Bool :=
  if s.routesAutomatically then s.isAvailable ctx item else return false

/-- The first of some screens at which a scan stops, with the item it is shown for. -/
def scan (ctx : Context) : ScanState → List Screen → Reading (Option (Screen × Option String))
  | _, [] => return none
  | t, s :: rest => do
    let t ← t.enter s
    if ← s.isReached ctx t.item then
      return some (s, t.item)
    else
      scan ctx t rest

namespace Flow

/-! ## The rules -/

/-- The rule for the last screen of a loop. It has no result in the middle of a pass, and none after
the last item of a loop that leads from item to item. -/
def endOfLoop (f : Flow) (ctx : Context) (current : Screen) (item : Option String) :
    Reading (Except NavigationError (Option Arrival)) :=
  match current.membership, item with
  | some membership, some item =>
    match f.loop? membership.name with
    | none => return .error (.unknownLoop membership.name)
    | some l => do
      let last ← f.lastScreen ctx l (some item)
      if last.map (·.fullRoute) ≠ some current.fullRoute then
        return .ok none
      else if !membership.autoIterates then
        return .ok (some ⟨.loopDataView membership.name, some item⟩)
      else
        match ← l.nextItem item with
        | none => return .ok none
        | some next =>
          match ← f.firstScreen ctx l (some next) with
          | some first => return .ok (some ⟨.screen first, some next⟩)
          | none => return .error (.noScreenForItem membership.name next)
  | _, _ => return .ok none

/-- The summary that the filer gets to from a screen. -/
def summary (f : Flow) (current : Screen) (item : Option String) (review : Bool) : Arrival :=
  let anchor := if review then (current.topicRoute.bind f.topic?).map (·.route) else none
  let subcategory : Arrival := ⟨.dataView current.subcategoryRoute anchor, item⟩
  match current.membership, item with
  | some membership, some _ =>
    if membership.autoIterates then subcategory else ⟨.loopDataView membership.name, item⟩
  | _, _ => subcategory

/-- The rule for leaving a topic in review. -/
def reviewExit (f : Flow) (ctx : Context) (current : Screen) (item : Option String) :
    Reading (Except NavigationError Arrival) :=
  if current.actsAsDataView then
    return .ok ⟨.checklist, item⟩
  else
    match current.topicRoute.bind f.topic? with
    | none => return .error (.outsideTopic current.fullRoute)
    | some topic => do
      match ← scan ctx ⟨current.loopName, item⟩ (current.later (f.screensOfTopic topic)) with
      | some (s, item) => return .ok ⟨.screen s, item⟩
      | none => return .ok (f.summary current item true)

/-- Whether a subcategory is left for the checklist, because it has no summary of its own. -/
def endsAtChecklist (f : Flow) (s : Subcategory) : Bool :=
  (f.screensOf s).any (·.actsAsDataView) || !s.hasDataView
    || (s.collection.isSome && !(f.loopsOf s).isEmpty)

/-- The rule for leaving a subcategory. -/
def subcategoryExit (f : Flow) (current : Screen) (item : Option String) : Arrival :=
  if (f.subcategory? current.subcategoryRoute).all f.endsAtChecklist then
    ⟨.checklist, item⟩
  else
    f.summary current item false

/-- The rules for the screen that the scan has found. -/
def leave (f : Flow) (ctx : Context) (current : Screen) (item : Option String) (review : Bool)
    (found : Screen × Option String) : Reading (Except NavigationError Arrival) :=
  if found.1.isKnockout then
    return .ok ⟨.screen found.1, found.2⟩
  else if review && current.topicRoute ≠ found.1.topicRoute then
    f.reviewExit ctx current item
  else if current.subcategoryRoute = found.1.subcategoryRoute then
    return .ok ⟨.screen found.1, found.2⟩
  else
    return .ok (f.subcategoryExit current item)

/-- Where the filer gets from a screen shown for an item. -/
def next (f : Flow) (ctx : Context) (current : Screen) (item : Option String) (review : Bool) :
    Reading (Except NavigationError Arrival) := do
  match ← f.endOfLoop ctx current item with
  | .error e => return .error e
  | .ok (some arrival) => return .ok arrival
  | .ok none =>
    match ← scan ctx ⟨current.loopName, item⟩ (current.later f.screens) with
    | none => return .error (.nothingFollows current.fullRoute)
    | some found => f.leave ctx current item review found

/-- Where the filer gets from the screen with a full route. -/
def nextFromRoute (f : Flow) (ctx : Context) (route : String) (item : Option String)
    (review : Bool) : Reading (Except NavigationError Arrival) :=
  match f.screen? route with
  | some current => f.next ctx current item review
  | none => return .error (.unknownScreen route)

/-- Where the filer gets from the screen at a position. -/
def nextFromPosition (f : Flow) (ctx : Context) (position : Nat) (item : Option String)
    (review : Bool) : Reading (Except NavigationError Arrival) :=
  match f.screens[position]? with
  | some current => f.next ctx current item review
  | none => return .error (.unknownScreen s!"#{position}")

end Flow

end Interview

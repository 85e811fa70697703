import Interview.Alert.Raised
import Interview.Progress.Resume

/-!
# The checklist

The checklist has a row for every subcategory that is displayed, in order. Rows are complete up to
the first one that is not; that one is next, and the rows after it are locked. A next row without a
screen to open counts as complete. The fold that computes the rows carries two flags: whether all
rows before are complete, and whether the category has a row that is complete or next.
-/

namespace Interview

/-- A row of the checklist. -/
structure ChecklistRow where
  subcategoryRoute : String
  isComplete : Bool
  isNext : Bool
  isStartedButNotComplete : Bool
  hasUnfinishedItem : Bool
  /-- Where the row leads, if it can be opened. -/
  address : Option String
  alerts : Alerts
  rejectionAlerts : Alerts
deriving DecidableEq

/-- Whether a row cannot be opened yet. -/
def ChecklistRow.isLocked (r : ChecklistRow) : Bool :=
  !r.isComplete && !r.isNext

/-- A category of the checklist. -/
structure ChecklistCategory where
  route : String
  /-- Whether a row of the category is complete or next. -/
  active : Bool
  rows : List ChecklistRow
deriving DecidableEq

/-- What is carried from one row to the next. -/
structure ChecklistState where
  /-- Whether all rows so far are complete. -/
  allComplete : Bool
  /-- Whether a row of the category so far is complete or next. -/
  categoryActive : Bool
deriving DecidableEq, Repr

/-- What is carried into the first row. -/
def ChecklistState.initial : ChecklistState := ⟨true, false⟩

namespace Flow

/-! ## One row -/

/-- Whether a loop of a subcategory is open and has an unfinished item. -/
def hasOpenUnfinishedItem (f : Flow) (ctx : Context) (s : Subcategory) (item : Option String) :
    Reading Bool :=
  (f.loopsOf s).anyM fun l => do
    if ← f.isOpen ctx l item then l.hasUnfinishedItem ctx else return false

/-- Whether the conditions for completing a subcategory hold. A subcategory without such conditions
is never complete by itself. -/
def meetsCompletion (ctx : Context) (s : Subcategory) (item : Option String) : Reading Bool :=
  if s.completeIf = [] then return false else Condition.allHold ctx item s.completeIf

/-- The address of the summary of a subcategory: that of the first of its screens that stands in for
the summary and can be shown, or else its own. -/
def summaryAddress (f : Flow) (ctx : Context) (s : Subcategory) (item : Option String) :
    Reading String := do
  let substitute ← ((f.screensOf s).filter (·.actsAsDataView)).findM? (·.isAvailable ctx item)
  match substitute with
  | some screen => return screen.address item true
  | none =>
    return Route.withQuery ("/data-view" ++ s.route) (Route.parameters s.collection item true)

/-- The address that a row leads to: the summary, if it is to be shown and there is one, or else the
first screen that can be shown. -/
def rowAddress (f : Flow) (ctx : Context) (s : Subcategory) (item : Option String)
    (showSummary : Bool) : Reading (Option String) := do
  if s.hasDataView && showSummary then
    return some (← f.summaryAddress ctx s item)
  else
    return (← (f.screensOf s).findM? (·.isAvailable ctx item)).map (·.address item false)

/-- How a row stands, before it is known where it leads. -/
structure Standing where
  started : Bool
  hasUnfinishedItem : Bool
  complete : Bool
deriving DecidableEq, Repr

/-- How a row stands when all rows before are complete or not. -/
def standing (f : Flow) (ctx : Context) (s : Subcategory) (item : Option String)
    (allComplete : Bool) : Reading Standing := do
  let started ← f.isStarted ctx s item
  if allComplete then
    let unfinished ← if started then f.hasOpenUnfinishedItem ctx s item else pure false
    let complete ← meetsCompletion ctx s item
    return ⟨started, unfinished, complete && !(s.locksOnUnfinishedItems && unfinished)⟩
  else
    return ⟨started, false, false⟩

/-- The alerts of a row of an active category. -/
def rowAlerts (f : Flow) (ctx : Context) (s : Subcategory) (item : Option String) :
    Reading Alerts := do
  let own ← screenAlerts ctx item (f.screensOf s)
  let ofLoops ← f.loopAlerts ctx (f.loopsOf s)
  return (Alerts.empty.pushAll own).merge (Alerts.empty.pushAll ofLoops)

/-- The alerts of a row about a rejected return. -/
def rowRejectionAlerts (f : Flow) (ctx : Context) (submission : Option Submission)
    (s : Subcategory) (item : Option String) : Reading Alerts :=
  match submission with
  | some submission =>
    if submission.isRejected then
      return Alerts.empty.pushAll (← rejectionAlerts ctx submission item (f.screensOf s))
    else
      return .empty
  | none => return .empty

/-- The row of a subcategory that is displayed, and what is carried on from it. -/
def displayedRow (f : Flow) (ctx : Context) (submission : Option Submission) (s : Subcategory)
    (item : Option String) (state : ChecklistState) :
    Reading (ChecklistRow × ChecklistState) := do
  let st ← f.standing ctx s item state.allComplete
  let isNext := state.allComplete && !st.complete
  let address ←
    if isNext || st.complete then f.rowAddress ctx s item (st.complete || st.started)
    else pure none
  let passedOver := isNext && address.isNone
  let after : ChecklistState :=
    ⟨state.allComplete && (st.complete || passedOver),
      state.categoryActive || isNext || st.complete⟩
  let alerts ← if after.categoryActive then f.rowAlerts ctx s item else pure .empty
  let rejections ← f.rowRejectionAlerts ctx submission s item
  return (
    { subcategoryRoute := s.route
      isComplete := st.complete || passedOver
      isNext := isNext && !passedOver
      isStartedButNotComplete := isNext && !passedOver && st.started
      hasUnfinishedItem := st.hasUnfinishedItem
      address
      alerts
      rejectionAlerts := rejections },
    after)

/-- The row of a subcategory, unless it is hidden, and what is carried on from it. -/
def checklistRow (f : Flow) (ctx : Context) (submission : Option Submission)
    (state : ChecklistState) (s : Subcategory) :
    Reading (Option ChecklistRow × ChecklistState) := do
  let item ← contextItem s
  if ← Condition.allHold ctx item s.displayOnlyIf then
    let (row, state) ← f.displayedRow ctx submission s item state
    return (some row, state)
  else
    return (none, state)

/-! ## All rows -/

/-- The rows of some subcategories, and what is carried on from them. -/
def checklistRows (f : Flow) (ctx : Context) (submission : Option Submission) :
    ChecklistState → List Subcategory → Reading (List ChecklistRow × ChecklistState)
  | state, [] => return ([], state)
  | state, s :: rest => do
    let (row, state) ← f.checklistRow ctx submission state s
    let (rows, state) ← f.checklistRows ctx submission state rest
    return (row.toList ++ rows, state)

/-- The categories of the checklist, each with its position in the flow. -/
def displayedCategories (f : Flow) (settings : Settings) : List (Category × Nat) :=
  f.categories.zipIdx.filter fun (category, _) => !settings.excludes category.route

/-- The rows of some categories, each with its position in the flow. -/
def checklistCategories (f : Flow) (ctx : Context) (submission : Option Submission) :
    ChecklistState → List (Category × Nat) → Reading (List ChecklistCategory)
  | _, [] => return []
  | state, (category, position) :: rest => do
    let (rows, state) ← f.checklistRows ctx submission { state with categoryActive := false }
      (f.subcategoriesOf position)
    let more ← f.checklistCategories ctx submission state rest
    return ⟨category.route, state.categoryActive, rows⟩ :: more

/-- The checklist. -/
def checklist (f : Flow) (ctx : Context) (submission : Option Submission) :
    Reading (List ChecklistCategory) :=
  f.checklistCategories ctx submission .initial (f.displayedCategories ctx.settings)

end Flow

end Interview

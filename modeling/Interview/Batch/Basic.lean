import Interview.Calendar.Date
import Interview.Table

/-!
# Content batches

The content of screens is written and reviewed in batches. Where a batch stands in that work decides
whether the screens it is on are open, locked, and ready to be published.
-/

namespace Interview

namespace Batch

/-- The steps of the work on a batch. -/
inductive Status where
  | inProgress
  | firstReview
  | secondReview
  | translationCheck
  | complete
deriving DecidableEq, Repr

namespace Status

/-- All steps, in their order. -/
def all : List Status := [inProgress, firstReview, secondReview, translationCheck, complete]

/-- The name of a step. -/
def label : Status → String
  | inProgress => "WIP"
  | firstReview => "DF Review"
  | secondReview => "CC Review"
  | translationCheck => "Translation Check"
  | complete => "Complete"

/-- Whether others than its authors work on the batch at this step. -/
def isReview : Status → Bool
  | firstReview | secondReview | translationCheck => true
  | inProgress | complete => false

end Status

/-- What a batch is about. -/
inductive Purpose where
  | admin
  | content
deriving DecidableEq, Repr

namespace Purpose

/-- Both purposes. -/
def all : List Purpose := [admin, content]

/-- The name of a purpose. -/
def label : Purpose → String
  | admin => "Admin"
  | content => "Content"

end Purpose

/-- A step that a batch has gone through, or is to go through. -/
structure HistoryEntry where
  status : Status
  completed : Option Calendar.Date
deriving DecidableEq

end Batch

/-- A batch of content. -/
structure Batch where
  purpose : Batch.Purpose
  status : Batch.Status
  started : Option Calendar.Date
  history : List Batch.HistoryEntry
deriving DecidableEq

namespace Batch

/-- The date on which a batch entered its step: the latest completion of an earlier one, or else the
date on which the work started. -/
def entered? (b : Batch) : Option Calendar.Date :=
  (Calendar.Date.latest? (b.history.filterMap (·.completed))).or b.started

/-- For how many days a batch has been at its step. -/
def daysInStatus (b : Batch) (today : Calendar.Date) : Option Int :=
  b.entered?.map (·.daysUntil today)

/-- The batches by their names. -/
abbrev Registry := Table Batch

/-! ## Screens -/

/-- What the batches of a screen say about it. -/
structure ScreenStatus where
  isOpen : Bool
  isLocked : Bool
  isPublishable : Bool
deriving DecidableEq, Repr

/-- What is said about a screen without batches. -/
def ScreenStatus.initial : ScreenStatus := ⟨false, false, true⟩

/-- What one more batch adds. -/
def ScreenStatus.add (s : ScreenStatus) (status : Status) : ScreenStatus :=
  ⟨s.isOpen || status ≠ .complete, s.isLocked || status.isReview,
    s.isPublishable && status = .complete⟩

/-- Adds the batches with the given names, up to the first name that is not registered. -/
def ScreenStatus.addAll (registry : Registry) : List String → ScreenStatus → ScreenStatus
  | [], s => s
  | name :: names, s =>
    match registry.get? name with
    | some batch => addAll registry names (s.add batch.status)
    | none => s

/-- What the batches with the given names say about their screen. -/
def screenStatus (names : List String) (registry : Registry) : ScreenStatus :=
  ScreenStatus.addAll registry names .initial

/-- The states by which screens are picked. -/
inductive State where
  | locked
  | unlocked
  | publishable
  | unpublishable
deriving DecidableEq, Repr

namespace State

/-- All states, in their order. -/
def all : List State := [locked, unlocked, publishable, unpublishable]

/-- The name of a state. -/
def name : State → String
  | locked => "locked"
  | unlocked => "unlocked"
  | publishable => "publishable"
  | unpublishable => "unpublishable"

/-- The state with a given name, in any letter case and with blanks around it. -/
def ofText? (s : String) : Option State :=
  all.find? (·.name == Text.lower (Text.trim s))

end State

/-- Whether a screen is in a state. -/
def isInState (state : State) (names : List String) (registry : Registry) : Bool :=
  let status := screenStatus names registry
  match state with
  | .locked => status.isLocked
  | .unlocked => !status.isLocked
  | .publishable => status.isPublishable
  | .unpublishable => !status.isPublishable

/-- Whether one of the batches with the given names is at a step. -/
def isAtStep (step : Status) (names : List String) (registry : Registry) : Bool :=
  (names.filterMap registry.get?).any (·.status = step)

end Batch

end Interview

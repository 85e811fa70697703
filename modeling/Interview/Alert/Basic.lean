import Interview.Content.Basic

/-!
# Alerts

Alerts are collected in two lists, warnings and errors. An alert is left out if its list has one
with the same message for the same item.
-/

namespace Interview

/-- An alert, with the place where it is raised. -/
structure Alert where
  kind : AlertKind
  /-- The message. -/
  key : String
  /-- The address of the screen that raises it. -/
  address : String
  subcategoryRoute : String
  topicRoute : Option String
  loop : Option String
  /-- The item that it is about. -/
  item : Option String
  factPaths : List String
  /-- The code of the rejection that raises it. -/
  code : Option String
deriving DecidableEq

/-- Whether two alerts say the same about the same item. -/
def Alert.repeats (a b : Alert) : Bool :=
  a.key = b.key && a.item = b.item

/-- Collected alerts. -/
structure Alerts where
  warnings : List Alert
  errors : List Alert
deriving DecidableEq

namespace Alerts

/-- No alerts. -/
def empty : Alerts := ⟨[], []⟩

/-- Whether there are no alerts. -/
def isEmpty (a : Alerts) : Bool :=
  a.warnings.isEmpty && a.errors.isEmpty

/-- A list with an alert at its end, unless it has one that says the same. -/
def append (list : List Alert) (alert : Alert) : List Alert :=
  if list.any (·.repeats alert) then list else list ++ [alert]

/-- Adds an alert to the list of its kind. -/
def push (a : Alerts) (alert : Alert) : Alerts :=
  match alert.kind with
  | .warning => { a with warnings := append a.warnings alert }
  | .error => { a with errors := append a.errors alert }

/-- Adds alerts one after the other. -/
def pushAll (a : Alerts) (alerts : List Alert) : Alerts :=
  alerts.foldl push a

/-- Adds other collected alerts, their warnings first. -/
def merge (a other : Alerts) : Alerts :=
  a.pushAll (other.warnings ++ other.errors)

end Alerts

end Interview

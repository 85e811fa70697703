import Interview.Checklist.Basic
import Interview.Json.Basic
import Interview.Navigation.Walk

/-!
# Reports

The answers of the engine as JSON documents. A screen is given by its position in the flow where it
is a destination, and by its address or route where it is shown to a reader.
-/

namespace Interview.Report

/-- A list as a JSON array. -/
def list {α : Type} (item : α → Json) (items : List α) : Json :=
  .array (items.map item)

/-- What there may be, or `null` in its absence. -/
def orNull {α : Type} (value : α → Json) (x : Option α) : Json :=
  (x.map value).getD .null

/-! ## Structure of a flow -/

/-- What a loop is called, and where filers go who cannot go on. -/
def loopOutline (l : Loop) : Json :=
  .object [("name", .string l.name), ("knockout_route", Json.textOrNull l.knockoutRoute)]

/-- What a subcategory consists of. -/
def subcategoryOutline (f : Flow) (s : Subcategory) : Json :=
  .object [("route", .string s.route), ("screens", .nat (f.screensOf s).length),
    ("loops", list loopOutline (f.loopsOf s)), ("has_data_view", .bool s.hasDataView),
    ("is_sign_and_submit", .bool s.signsAndSubmits),
    ("assertions", .nat (f.assertionsOf s).length)]

/-- What a category consists of, with its position. -/
def categoryOutline (f : Flow) (entry : Category × Nat) : Json :=
  .object [("route", .string entry.1.route),
    ("subcategories", list (subcategoryOutline f) (f.subcategoriesOf entry.2))]

/-- What a flow consists of. -/
def outline (f : Flow) : Json :=
  .object [("valid", .bool true), ("screens", .nat f.screens.length),
    ("loops", .nat f.loops.length), ("categories", list (categoryOutline f) f.categories.zipIdx)]

/-! ## Steps -/

/-- The position of a screen. -/
def position (f : Flow) (s : Screen) : Nat :=
  f.screens.findIdx (·.fullRoute = s.fullRoute)

/-- Where a step leads. -/
def destination (f : Flow) : Destination → Json
  | .screen s => .object [("type", .string "screen"), ("screen", .nat (position f s))]
  | .checklist => .object [("type", .string "checklist")]
  | .dataView route anchor =>
    .object [("type", .string "data_view"), ("subcategory_route", .string route),
      ("section", Json.textOrNull anchor)]
  | .loopDataView loop =>
    .object [("type", .string "loop_data_view"), ("loop_name", .string loop)]

/-- Where a step leads, and for which item. -/
def arrival (f : Flow) (a : Arrival) : Json :=
  .object [("destination", destination f a.destination), ("item_id", Json.textOrNull a.item),
    ("route", .string a.address)]

/-- A stop of a walk. -/
def stop (a : Arrival) : Json :=
  .object [("route", .string a.address), ("item_id", Json.textOrNull a.item)]

/-- A walk. -/
def walk (w : Walk) : Json :=
  .object [("outcome", .string w.finish.name), ("steps", list stop w.stops)]

/-! ## Checklist -/

/-- An alert. -/
def alert (a : Alert) : Json :=
  .object [("alert_type", .string a.kind.name), ("i18n_key", .string a.key),
    ("route", .string a.address), ("subcategory_route", .string a.subcategoryRoute),
    ("sub_subcategory_route", Json.textOrNull a.topicRoute),
    ("loop_name", Json.textOrNull a.loop), ("item_id", Json.textOrNull a.item),
    ("fact_paths", Json.texts a.factPaths), ("mef_error_code", Json.textOrNull a.code)]

/-- Collected alerts. -/
def alerts (a : Alerts) : Json :=
  .object [("warnings", list alert a.warnings), ("errors", list alert a.errors)]

/-- The fields of a row of the checklist. -/
def rowFields (r : ChecklistRow) : List (String × Json) :=
  [("subcategory_route", .string r.subcategoryRoute), ("is_complete", .bool r.isComplete),
    ("is_next", .bool r.isNext),
    ("is_started_but_not_complete", .bool r.isStartedButNotComplete),
    ("has_incomplete_collection_item", .bool r.hasUnfinishedItem),
    ("navigation_url", Json.textOrNull r.address), ("alerts", alerts r.alerts),
    ("mef_alerts", alerts r.rejectionAlerts)]

/-- A category of the checklist, its rows with the given fields. -/
def checklistCategory (fields : ChecklistRow → List (String × Json)) (c : ChecklistCategory) :
    Json :=
  .object [("route", .string c.route), ("active", .bool c.active),
    ("subcategories", list (.object ∘ fields) c.rows)]

/-- The checklist. -/
def checklist (categories : List ChecklistCategory) : Json :=
  list (checklistCategory rowFields) categories

/-! ## Progress -/

/-- The address of a screen to go on with. -/
def resumeAddress (p : ResumePoint) : Json :=
  .string (p.screen.address p.item false)

/-- How many items of a loop are finished. -/
def loopProgress (p : LoopProgress) : Json :=
  .object [("total", .nat p.total), ("complete", .nat p.complete),
    ("incomplete", .nat p.incomplete)]

/-- How far a loop is; `key` and `point` say how a screen to go on with is given. -/
def loopSummary (key : String) (point : ResumePoint → Json) (l : LoopSummary) : Json :=
  .object [("loop_name", .string l.loop), ("progress", loopProgress l.progress),
    (key, orNull point l.resumeAt)]

/-- How far a subcategory is; `key` and `point` say how a screen to go on with is given. -/
def subcategoryProgress (key : String) (point : ResumePoint → Json) (p : SubcategoryProgress) :
    Json :=
  .object [("subcategory_route", .string p.subcategoryRoute), ("item_id", Json.textOrNull p.item),
    ("started", .bool p.started), (key, orNull point p.resumeAt),
    ("loops", list (loopSummary key point) p.loops), ("active_assertions", Json.texts p.assertions)]

/-- How far the subcategories are. -/
def progress (rows : List SubcategoryProgress) : Json :=
  list (subcategoryProgress "resume_route" resumeAddress) rows

/-! ## Batches -/

/-- What batches say about their screen. -/
def screenStatus (s : Batch.ScreenStatus) : Json :=
  .object [("is_open", .bool s.isOpen), ("is_locked", .bool s.isLocked),
    ("is_publishable", .bool s.isPublishable)]

/-- How long a batch has been at its step. -/
def batchAge (today : Calendar.Date) (name : String) (b : Batch) : Json :=
  .object [("name", .string name), ("status", .string b.status.label),
    ("days_in_status", orNull Json.int (b.daysInStatus today))]

/-- How the batches of a screen stand. -/
def screenBatches (registry : Batch.Registry) (today : Calendar.Date) (s : Screen) : Json :=
  .object [("route", .string s.fullRoute),
    ("batches", .array <| s.batches.filterMap fun name =>
      (registry.get? name).map (batchAge today name)),
    ("status", screenStatus (Batch.screenStatus s.batches registry))]

/-- How the batches stand on the screens that have some, of all states or of one. -/
def batches (f : Flow) (state : Option Batch.State) (today : Calendar.Date) : Json :=
  let screens := f.screens.filter fun s =>
    !s.batches.isEmpty && state.all fun state => Batch.isInState state s.batches f.batches
  .object [("today", .string today.toText),
    ("screens", list (screenBatches f.batches today) screens)]

end Interview.Report

import Interview.Checklist.Basic
import Interview.Fact.Snapshot
import Interview.Navigation.Next

/-!
# Sessions

What can be asked of a snapshot, from single facts to the whole checklist, and what happens in a
session with one: questions are asked, and in between the store is written to.
-/

namespace Interview

/-- A question to a snapshot. -/
inductive Query where
  /-- The fact at a concrete path. -/
  | fact (path : String)
  /-- The fact at a path in the context of an item. -/
  | lookup (path : String) (item : Option String)
  /-- The items of a collection. -/
  | items (collection : String)
  /-- The item that a reference refers to. -/
  | referencedItem (path : String)
  /-- Whether a condition holds. -/
  | holds (condition : Condition) (item : Option String)
  /-- Whether all conditions hold. -/
  | allHold (conditions : List Condition) (item : Option String)
  | checklist (f : Flow) (submission : Option Submission)
  /-- Where the filer gets from the screen at a position. -/
  | next (f : Flow) (position : Nat) (item : Option String) (review : Bool)
  /-- How far a subcategory is. -/
  | progress (f : Flow) (s : Subcategory)

/-- The answer to a question. -/
inductive Reply where
  | fact (f : Fact)
  | found (f : Option Fact)
  | items (items : List String)
  | item (item : Option String)
  | verdict (holds : Bool)
  | checklist (categories : List ChecklistCategory)
  | arrival (a : Except NavigationError Arrival)
  | progress (p : SubcategoryProgress)

/-- How a question is answered. -/
def Query.reading (ctx : Context) : Query → Reading Reply
  | fact path => .fact <$> Reading.fact path
  | lookup path item => .found <$> Reading.lookup path item
  | items collection => .items <$> Reading.items collection
  | referencedItem path => .item <$> Reading.referencedItem path
  | holds condition item => .verdict <$> condition.holds ctx item
  | allHold conditions item => .verdict <$> Condition.allHold ctx item conditions
  | checklist f submission => .checklist <$> f.checklist ctx submission
  | next f position item review => .arrival <$> f.nextFromPosition ctx position item review
  | progress f s => .progress <$> f.progress ctx s

/-! ## What happens in a session -/

variable {σ : Type}

/-- A question is asked, or the store is changed. -/
inductive Event (σ : Type) where
  | ask (q : Query)
  | change (write : σ → σ)

/-- The question, if one is asked. -/
def Event.query? : Event σ → Option Query
  | ask q => some q
  | change _ => none

/-- The same event where a record is kept of the store. -/
def Event.recorded : Event σ → Event (Recorded σ)
  | ask q => .ask q
  | change write => .change fun r => { r with store := write r.store }

/-- The answers to the questions of a session, each with the paths that were asked for on the way,
and the view at its end. -/
def replies (get : Source σ) (ctx : Context) :
    List (Event σ) → View σ → List (Reply × List String) × View σ
  | [], v => ([], v)
  | .ask q :: events, v =>
    let (reply, v) := (q.reading ctx).traced.through get v
    let (rest, v) := replies get ctx events v
    (reply :: rest, v)
  | .change write :: events, v => replies get ctx events { v with store := write v.store }

end Interview

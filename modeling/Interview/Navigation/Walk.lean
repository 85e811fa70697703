import Interview.Navigation.Next

/-!
# Walks

A walk goes from screen to screen without review, until the filer leaves the screens, gets to a
knockout screen or to one that nothing follows, or until a number of steps has been made. The last
step of a walk may be one out of the screens; all steps before it are screens.
-/

namespace Interview

/-- How a walk ends. -/
inductive WalkEnd where
  /-- The number of steps has been made. -/
  | stepLimit
  | knockout
  /-- No screen follows the last one. -/
  | endOfFlow
  /-- The last step leads out of the screens. -/
  | leftSubcategory
deriving DecidableEq, Repr

/-- The name of an end in reports. -/
def WalkEnd.name : WalkEnd → String
  | stepLimit => "max_steps"
  | knockout => "knockout"
  | endOfFlow => "end_of_flow"
  | leftSubcategory => "left_subcategory"

/-- A walk: where it has been, in order, and how it ends. -/
structure Walk where
  stops : List Arrival
  finish : WalkEnd
deriving DecidableEq

/-- A walk with a stop put before it. -/
def Walk.via (stop : Arrival) (w : Walk) : Walk :=
  { w with stops := stop :: w.stops }

namespace Flow

/-- The walk from a screen shown for an item, of at most the given number of steps. -/
def walkFrom (f : Flow) (ctx : Context) :
    Nat → Screen → Option String → Reading (Except NavigationError Walk)
  | 0, s, item => return .ok ⟨[⟨.screen s, item⟩], .stepLimit⟩
  | limit + 1, s, item =>
    let here : Arrival := ⟨.screen s, item⟩
    if s.isKnockout then
      return .ok ⟨[here], .knockout⟩
    else do
      match ← f.next ctx s item false with
      | .error (.nothingFollows _) => return .ok ⟨[here], .endOfFlow⟩
      | .error e => return .error e
      | .ok arrival =>
        match arrival.destination with
        | .screen s => return (← f.walkFrom ctx limit s arrival.item).map (·.via here)
        | _ => return .ok ⟨[here, arrival], .leftSubcategory⟩

/-- The screen that a walk starts at: the one with the given full route, or the first one. -/
def start (f : Flow) (route : Option String) : Except NavigationError Screen :=
  match route with
  | some route => (f.screen? route).elim (.error (.unknownScreen route)) .ok
  | none => f.screens.head?.elim (.error (.unknownScreen "<first>")) .ok

/-- The item that a screen is shown for when it is opened by itself: the one that its reference
refers to, or the first of its collection. -/
def entryItem (s : Screen) : Reading (Option String) :=
  match s.collection with
  | some collection => do
    match ← Reading.referencedItem collection with
    | some item => return some item
    | none => return (← Reading.items collection).head?
  | none => return none

/-- The walk from a place, by default the first screen of the flow shown for its own item. -/
def walk (f : Flow) (ctx : Context) (route item : Option String) (limit : Nat) :
    Reading (Except NavigationError Walk) := do
  match f.start route with
  | .error e => return .error e
  | .ok s =>
    let item ← match item with
      | some item => pure (some item)
      | none => entryItem s
    f.walkFrom ctx limit s item

end Flow

end Interview

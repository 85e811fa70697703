import Interview.Screen.Availability

/-!
# Going through loops

The items of a loop, which of them are finished, and the screens by which one pass over an item
begins and ends.
-/

namespace Interview

/-- How many items of a loop are finished. -/
structure LoopProgress where
  total : Nat
  complete : Nat
  incomplete : Nat
deriving DecidableEq, Repr

/-- The item after the first place of a given one. -/
def itemAfter (item : String) (items : List String) : Option String :=
  ((items.dropWhile (· ≠ item)).drop 1).head?

namespace Loop

/-- The items of a loop, in their order. -/
def items (l : Loop) : Reading (List String) :=
  Reading.items l.collection

/-- Whether the collection of a loop has items. -/
def hasMembers (l : Loop) : Reading Bool :=
  return !(← l.items).isEmpty

/-- The item after a given one. -/
def nextItem (l : Loop) (item : String) : Reading (Option String) :=
  itemAfter item <$> l.items

/-- Whether an item is finished. A loop that does not say when that is has no finished items. -/
def isItemComplete (ctx : Context) (l : Loop) (item : String) : Reading Bool :=
  match l.itemCompleteIf with
  | some condition => condition.holds ctx (some item)
  | none => return false

/-- How many items are finished. -/
def progress (ctx : Context) (l : Loop) : Reading LoopProgress := do
  let items ← l.items
  let complete ← items.filterM (l.isItemComplete ctx)
  return ⟨items.length, complete.length, items.length - complete.length⟩

/-- Whether an item is unfinished. A loop that does not say when items are finished has none. -/
def hasUnfinishedItem (ctx : Context) (l : Loop) : Reading Bool :=
  match l.itemCompleteIf with
  | some condition => do
    (← l.items).anyM fun item => return !(← condition.holds ctx (some item))
  | none => return false

end Loop

namespace Flow

/-- The first screen of a loop that can be shown for an item. -/
def firstScreen (f : Flow) (ctx : Context) (l : Loop) (item : Option String) :
    Reading (Option Screen) :=
  (f.screensOfLoop l).findM? (·.isAvailable ctx item)

/-- The last screen of a loop that can be shown for an item: there one pass ends. -/
def lastScreen (f : Flow) (ctx : Context) (l : Loop) (item : Option String) :
    Reading (Option Screen) :=
  (f.screensOfLoop l).reverse.findM? (·.isAvailable ctx item)

/-- Whether a screen of a loop can be shown for an item. -/
def isOpen (f : Flow) (ctx : Context) (l : Loop) (item : Option String) : Reading Bool :=
  return (← f.firstScreen ctx l item).isSome

/-- Where a loop that leads from item to item is gone on with: at the first unfinished item for
which there is a screen. -/
def loopResumePoint (f : Flow) (ctx : Context) (l : Loop) : Reading (Option (Screen × String)) := do
  if l.autoIterates then
    (← l.items).findSomeM? fun item => do
      if ← l.isItemComplete ctx item then
        return none
      else
        return (← f.firstScreen ctx l (some item)).map (·, item)
  else
    return none

end Flow

end Interview

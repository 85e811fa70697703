/-!
# Facts

A fact has a value, or none yet, and it is complete or not. A value may be there before the fact is
complete: it is then a placeholder.
-/

namespace Interview

/-- The value of a fact. -/
inductive FactValue where
  | boolean (b : Bool)
  | text (s : String)
  | number (x : Float)
  /-- The items of a collection, in order. -/
  | collection (items : List String)
  /-- A reference to an item of a collection. -/
  | itemRef (item : String)
deriving DecidableEq, Inhabited

namespace FactValue

/-- Whether a value counts as true: a text if it is not empty, a number if it differs from zero, a
collection or reference in any case. -/
def isTruthy : FactValue → Bool
  | boolean b => b
  | text s => s ≠ ""
  | number x => x != 0.0
  | collection _ => true
  | itemRef _ => true

end FactValue

/-- What is known about a fact. -/
structure Fact where
  complete : Bool
  value : Option FactValue
deriving DecidableEq, Inhabited

namespace Fact

/-- A fact about which nothing is known. -/
def unknown : Fact := ⟨false, none⟩

/-- Whether a fact has a value, complete or not. -/
def hasValue (f : Fact) : Bool :=
  f.value.isSome

/-- Whether a fact has a value that counts as true. -/
def isTruthy (f : Fact) : Bool :=
  f.value.any FactValue.isTruthy

/-- The items of a complete collection; no items otherwise. -/
def items (f : Fact) : List String :=
  match f with
  | ⟨true, some (.collection items)⟩ => items
  | _ => []

/-- The item that a complete reference refers to. -/
def referencedItem (f : Fact) : Option String :=
  match f with
  | ⟨true, some (.itemRef item)⟩ => some item
  | _ => none

@[simp] theorem items_unknown : unknown.items = [] := rfl

@[simp] theorem referencedItem_unknown : unknown.referencedItem = none := rfl

end Fact

end Interview

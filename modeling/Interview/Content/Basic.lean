import Interview.Condition.Basic

/-!
# Content of screens

A screen is declared as a list of elements: headings, texts, fields for facts, alerts, and the
buttons and links by which the filer leaves the screen. An element may have conditions of its own,
and it may belong to batches that are reviewed together.
-/

namespace Interview

/-- How serious an alert is. -/
inductive AlertKind where
  | warning
  | error
deriving DecidableEq, Repr

namespace AlertKind

/-- Both kinds. -/
def all : List AlertKind := [warning, error]

/-- The name of a kind in documents. -/
def name : AlertKind → String
  | warning => "warning"
  | error => "error"

/-- The name of a kind for readers. -/
def label : AlertKind → String
  | warning => "Warning"
  | error => "Error"

end AlertKind

/-- What a field for a fact looks like. -/
inductive FieldKind where
  | boolean
  | text
  | choice
  | choices
  | dollar
  | date
  | address
  | tin
  | pin
  /-- Picks one of the items of a collection that are there already. -/
  | select
deriving DecidableEq, Repr

namespace FieldKind

/-- All kinds. -/
def all : List FieldKind :=
  [boolean, text, choice, choices, dollar, date, address, tin, pin, select]

/-- The name of a kind in documents. -/
def name : FieldKind → String
  | boolean => "boolean"
  | text => "text"
  | choice => "enum"
  | choices => "multi_enum"
  | dollar => "dollar"
  | date => "date"
  | address => "address"
  | tin => "tin"
  | pin => "pin"
  | select => "select"

end FieldKind

/-- The one rendering of a screen on which a field is shown. -/
inductive Rendering where
  | edit
  | dataView
deriving DecidableEq, Repr

namespace Rendering

/-- Both renderings. -/
def all : List Rendering := [edit, dataView]

/-- The name of a rendering in documents. -/
def name : Rendering → String
  | edit => "edit"
  | dataView => "data_view"

end Rendering

/-- What an element of a screen is. -/
inductive Content where
  | heading (key : String)
  | info (key : String)
  | field (path : String) (kind : FieldKind) (readOnly : Bool) (onlyOn : Option Rendering)
  /-- Sets a fact to the value of another when the screen is left. -/
  | setFact (path source : String)
  | taxReturnAlert (kind : AlertKind) (key : String) (factPaths : List String)
  /-- An alert about a return that was rejected with a given code. -/
  | rejectionAlert (kind : AlertKind) (key code : String) (factPaths : List String)
  | collectionManager (path : String) (loop : Option String)
  | collectionPreview
  | saveAndContinue
  | setFactAndContinue
  | exit
  | submit
  | knockout
  | link (route : String)
  | dataViewLink (route : String)
deriving DecidableEq

namespace Content

/-- Whether this is a heading. -/
def isHeading : Content → Bool
  | heading _ => true
  | _ => false

/-- Whether the filer can leave the screen by this. -/
def leavesScreen : Content → Bool
  | heading .. | info .. | field .. | setFact .. | taxReturnAlert .. | rejectionAlert .. => false
  | collectionManager .. | collectionPreview | saveAndContinue | setFactAndContinue | exit
  | submit | knockout | link .. | dataViewLink .. => true

/-- Whether this manages the items of a collection. -/
def managesCollection : Content → Bool
  | collectionManager .. => true
  | _ => false

/-- The path of the fact that a field is for. -/
def fieldPath : Content → Option String
  | field path .. => some path
  | _ => none

/-- The path of the fact that the filer has to answer here: the field can be written, is shown while
editing, and does not just pick an item. -/
def requiredPath : Content → Option String
  | field path kind readOnly onlyOn =>
    if !readOnly && kind ≠ .select && onlyOn ≠ some .dataView then some path else none
  | _ => none

/-- The path of the fact that leaving the screen sets. -/
def setPath : Content → Option String
  | setFact path _ => some path
  | _ => none

end Content

/-- An element of a screen. -/
structure Element where
  content : Content
  /-- The conditions under which the element is shown. -/
  conditions : List Condition
  /-- The names of the batches that the element belongs to. -/
  batches : List String
deriving DecidableEq

end Interview

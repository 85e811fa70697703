/-!
# Defects of outlines

Why no flow can be built from an outline. The first defect in the order of the outline is the one
that is reported.
-/

namespace Interview

/-- The nodes whose place in the tree matters. -/
inductive Placed where
  | category
  | subcategory
  | topic
  | loop
  | screen
  | assertion
deriving DecidableEq, Repr

namespace Placed

/-- What a node is called. -/
def label : Placed → String
  | category => "category"
  | subcategory => "subcategory"
  | topic => "sub-subcategory"
  | loop => "collection loop"
  | screen => "screen"
  | assertion => "assertion"

/-- What a node must stand in. -/
def parent : Placed → String
  | category => "flow root"
  | subcategory => "category"
  | topic | loop | screen | assertion => "subcategory"

end Placed

/-- A defect of an outline. -/
inductive DefinitionError where
  | missingHeading (screen : String)
  | ambiguousHeadings (screen : String)
  | singleConditionalHeading (screen : String)
  | missingExit (screen : String)
  | fieldsOutsideTopic (screen : String)
  | duplicateScreen (route : String)
  | duplicateSubcategory (route : String)
  | duplicateLoop (loop : String)
  | emptyLoop (loop : String)
  | loopWithoutCollection (loop : String)
  | nestedLoop (loop parent : String)
  | innerLoopOutsideTopic (loop : String)
  | misplaced (node : Placed) (name : String)
  | unknownBatch (screen batch : String)
  | emptyFlow
deriving DecidableEq, Repr

/-- The wording of a defect. -/
def DefinitionError.message : DefinitionError → String
  | missingHeading screen => s!"screen {screen} has no heading"
  | ambiguousHeadings screen =>
    s!"screen {screen} declares several headings but not all of them are conditional"
  | singleConditionalHeading screen =>
    s!"screen {screen} declares a single heading that is conditional"
  | missingExit screen => s!"screen {screen} has no button or link to leave it"
  | fieldsOutsideTopic screen =>
    s!"screen {screen} collects facts but is not inside a sub-subcategory"
  | duplicateScreen route => s!"duplicate screen route {route}"
  | duplicateSubcategory route => s!"duplicate subcategory route {route}"
  | duplicateLoop loop => s!"duplicate collection loop {loop}"
  | emptyLoop loop => s!"collection loop {loop} has no screens"
  | loopWithoutCollection loop =>
    s!"collection loop {loop} has no collection and none is in scope"
  | nestedLoop loop parent => s!"collection loop {loop} is nested inside loop {parent}"
  | innerLoopOutsideTopic loop =>
    s!"inner collection loop {loop} must sit inside a sub-subcategory"
  | misplaced node name => s!"{node.label} `{name}` must be declared inside a {node.parent}"
  | unknownBatch screen batch => s!"screen {screen} references unknown content batch {batch}"
  | emptyFlow => "flow declares no screens"

end Interview

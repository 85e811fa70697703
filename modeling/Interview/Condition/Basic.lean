import Interview.Condition.Operator
import Interview.Fact.Reading
import Interview.Import.Profile
import Interview.Settings

/-!
# Conditions

A condition decides whether a part of an interview is shown. Most ask for one fact; others look at
the settings of the deployment or at imported data. Evaluation always has an answer: what is missing
counts as incomplete, and an abstract path without an item makes its condition false.
-/

namespace Interview

/-- What conditions look at besides facts. -/
structure Context where
  imports : Import.State
  settings : Settings
deriving Inhabited

/-- A condition. -/
inductive Condition where
  /-- A demand on one fact. -/
  | fact (path : String) (op : Operator)
  /-- Experimental parts are shown. -/
  | experimental
  /-- All facts that block the submission of a return are false. -/
  | nothingBlocksSubmission
  /-- A demand on the filer's way of signing. -/
  | signingPath (op : Operator)
  /-- A demand on imported data. -/
  | imported (question : Import.Question) (op : Import.Operator)
deriving DecidableEq

namespace Condition

/-- The fact that says that the filer signs on the older path. -/
def olderSigningFact : String := "/isLegacySigningPath"

/-- The fact that says that the filer resubmits a rejected return. -/
def resubmittingFact : String := "/isResubmitting"

/-- Whether the fact at a path meets a demand in the context of an item. -/
def factHolds (path : String) (op : Operator) (item : Option String) : Reading Bool :=
  return (← Reading.lookup path item).any op.apply

/-- Whether the fact at a path is false. -/
def isFalse (item : Option String) (path : String) : Reading Bool :=
  return (← Reading.lookup path item).any (·.value = some (.boolean false))

/-- Whether a condition holds in the context of an item. -/
def holds (ctx : Context) (item : Option String) : Condition → Reading Bool
  | fact path op => factHolds path op item
  | experimental => return ctx.settings.experimental
  | nothingBlocksSubmission => ctx.settings.submissionBlockingFacts.allM (isFalse item)
  | signingPath op =>
    if ctx.settings.electronicSigning then
      return !(← factHolds olderSigningFact op item)
    else
      return op.signingOff
  | imported question op => do
    let resubmitting := (← Reading.lookup resubmittingFact item).any fun fact =>
      fact.complete && fact.isTruthy
    return op.apply (ctx.imports.answer resubmitting question)

/-- Whether all conditions of a list hold; those after the first that fails are not evaluated. -/
def allHold (ctx : Context) (item : Option String) (conditions : List Condition) : Reading Bool :=
  conditions.allM (holds ctx item)

end Condition

end Interview

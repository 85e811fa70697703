import Interview.Fact.Basic

/-!
# Operators on facts

A fact is complete or not and has a value or not; an operator turns that into a truth value. Some
operators take placeholder values into account, others ask for completeness.
-/

namespace Interview

/-- What a condition may demand of a fact. -/
inductive Operator where
  | isTrue
  | isFalse
  | isTrueAndComplete
  | isFalseAndComplete
  | isTrueOrIncomplete
  | isFalseOrIncomplete
  | isComplete
  | isIncomplete
deriving DecidableEq, Repr

namespace Operator

/-- All operators, in their order. -/
def all : List Operator :=
  [isTrue, isFalse, isTrueAndComplete, isFalseAndComplete, isTrueOrIncomplete,
    isFalseOrIncomplete, isComplete, isIncomplete]

/-- The name of an operator in documents. -/
def label : Operator → String
  | isTrue => "isTrue"
  | isFalse => "isFalse"
  | isTrueAndComplete => "isTrueAndComplete"
  | isFalseAndComplete => "isFalseAndComplete"
  | isTrueOrIncomplete => "isTrueOrIncomplete"
  | isFalseOrIncomplete => "isFalseOrIncomplete"
  | isComplete => "isComplete"
  | isIncomplete => "isIncomplete"

/-- The operator of a condition that names none. -/
def default : Operator := isTrue

/-- Whether a fact meets the demand. A fact without a value is neither true nor false. -/
def apply (op : Operator) (fact : Fact) : Bool :=
  match op with
  | isTrue => fact.hasValue && fact.isTruthy
  | isFalse => fact.hasValue && !fact.isTruthy
  | isTrueAndComplete => fact.complete && fact.isTruthy
  | isFalseAndComplete => fact.complete && !fact.isTruthy
  | isTrueOrIncomplete => !fact.complete || fact.isTruthy
  | isFalseOrIncomplete => !fact.complete || !fact.isTruthy
  | isComplete => fact.complete
  | isIncomplete => !fact.complete

/-- What the operator makes of the signing path while electronic signing is switched off. -/
def signingOff : Operator → Bool
  | isTrue | isTrueAndComplete | isTrueOrIncomplete | isIncomplete => false
  | isFalse | isFalseAndComplete | isFalseOrIncomplete | isComplete => true

end Operator

end Interview

import Interview.Environment.LogFilter
import Interview.Environment.Variables
import Interview.Settings

/-!
# Configuration

What a deployment configures by environment variables: its stage, its log level, and the settings of
the engine. A switch is off unless it is set; a list has its entries between commas.
-/

namespace Interview

/-- What a deployment is for. -/
inductive Stage where
  | development
  | test
  | production
deriving DecidableEq, Repr

namespace Stage

/-- The name of a stage. -/
def label : Stage → String
  | development => "Development"
  | test => "Test"
  | production => "Production"

/-- The stage that a text names. What names no other stage is development. -/
def ofText (s : String) : Stage :=
  let word := Text.lower (Text.trim s)
  if ["prod", "production"].contains word then production
  else if ["test", "ci"].contains word then test
  else development

end Stage

/-- The configuration of a deployment. -/
structure Configuration where
  stage : Stage
  logLevel : String
  settings : Settings
deriving DecidableEq

namespace Configuration

/-- A variable whose value is no truth value. -/
structure InvalidSwitch where
  name : String
  value : String
deriving DecidableEq, Repr

/-- The wording of a variable whose value is no truth value. -/
def InvalidSwitch.message (e : InvalidSwitch) : String :=
  s!"{e.name} must be a boolean (true/false, 1/0, yes/no, on/off), got '{e.value}'"

/-- The truth value that a text stands for. -/
def switch? (s : String) : Option Bool :=
  let word := Text.lower (Text.trim s)
  if ["1", "true", "yes", "on"].contains word then some true
  else if ["0", "false", "no", "off", ""].contains word then some false
  else none

/-- The position of a switch. -/
def switch (vars : Variables) (name : String) : Except InvalidSwitch Bool :=
  match vars.get? name with
  | none => .ok false
  | some value => (switch? value).elim (.error ⟨name, value⟩) .ok

/-- The entries of a list, if its variable is set. -/
def entries? (vars : Variables) (name : String) : Option (List String) :=
  (vars.get? name).map (Text.entries ',')

/-- The configuration that variables give. -/
def ofVariables (vars : Variables) : Except InvalidSwitch Configuration := do
  let experimental ← switch vars "FLOW_EXPERIMENTAL"
  let electronicSigning ← switch vars "FLOW_ESSAR_SIGNING"
  return {
    stage := Stage.ofText ((vars.get? "APP_ENV").getD "development")
    logLevel := (vars.get? "APP_LOG_LEVEL").getD "info"
    settings := {
      experimental
      electronicSigning
      excludedCategories :=
        (entries? vars "FLOW_EXCLUDED_CATEGORIES").getD Settings.default.excludedCategories
      submissionBlockingFacts := (entries? vars "FLOW_SUBMISSION_BLOCKING_FACTS").getD []
      optionalFacts := (entries? vars "FLOW_OPTIONAL_FACTS").getD [] } }

/-- The variable that may hold a log filter. -/
def filterVariable : String := "RUST_LOG"

/-- Whether a log filter can be set up: from its variable, or else from the log level. -/
def hasLogFilter (vars : Variables) (c : Configuration) : Bool :=
  (vars.get? filterVariable).any LogFilter.isValid || LogFilter.isValid c.logLevel

end Configuration

end Interview

import Interview.Table

/-!
# Environment variables

The variables that the surroundings set, by name.
-/

namespace Interview

/-- The variables that are set. -/
abbrev Variables := Table String

/-- Sets a variable that is not set yet. -/
def Variables.setDefault (vars : Variables) (name value : String) : Variables :=
  if (vars.get? name).isSome then vars else vars.insert name value

end Interview

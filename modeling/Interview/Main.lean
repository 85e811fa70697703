import Interview.Command.Run
import Interview.Json.Writer
import Std.Time.Zoned

/-!
# The program

Reads the environment and the files that the arguments name, carries the command out, and prints its
report.
-/

namespace Interview.Program

/-- The names of the variables that are looked at. -/
def variableNames : List String :=
  ["APP_ENV", "APP_LOG_LEVEL", Configuration.filterVariable, "FLOW_EXCLUDED_CATEGORIES",
    "FLOW_EXPERIMENTAL", "FLOW_ESSAR_SIGNING", "FLOW_SUBMISSION_BLOCKING_FACTS",
    "FLOW_OPTIONAL_FACTS"]

/-- The variables that are set. -/
def readVariables : IO Variables := do
  let entries ← variableNames.filterMapM fun name => return (← IO.getEnv name).map (name, ·)
  return Table.ofList entries

/-- What can be read at a path that can be opened; nothing can at a directory. -/
def readOpened (path : String) : IO Command.Entry := do
  try
    return .file (← IO.FS.readBinFile path).toList
  catch _ =>
    return .directory

/-- What a path leads to, if it can be opened. -/
def readPath? (path : String) : IO (Option Command.Entry) := do
  try
    let _ ← IO.FS.Handle.mk path .read
    return some (← readOpened path)
  catch _ =>
    return none

/-- What some paths lead to. -/
def readEntries (paths : List String) : IO (Table Command.Entry) := do
  let entries ← paths.filterMapM fun path => return (← readPath? path).map (path, ·)
  return Table.ofList entries

/-- The current date; the start of the calendar if it cannot be told. -/
def currentDate : IO Calendar.Date := do
  let now ← Std.Time.PlainDate.now
  return (Calendar.Date.ofParts? now.year.toInt now.month.val.toNat now.day.val.toNat).getD
    ⟨1, 1, 1, by decide⟩

/-- What is printed when help is asked for. -/
def helpText : String :=
  "usage: interview-flow [validate|next|checklist|progress|walk|batches] [options]"

end Interview.Program

open Interview Interview.Program

/-- Carries out the command that the arguments ask for. -/
def main (args : List String) : IO UInt32 := do
  let paths := ((Command.ofArguments args).toOption.map Command.paths).getD []
  let entries ← readEntries (Command.settingsFile :: paths)
  match Command.run ⟨← readVariables, entries.get?, ← currentDate⟩ args with
  | .printed report =>
    IO.println report.compress
    return 0
  | .failed cause =>
    IO.eprintln s!"application error: {cause.message}"
    return 1
  | .noticed .help =>
    IO.println helpText
    return 0
  | .noticed .version =>
    IO.print Command.versionText
    return 0
  | .noticed .refused =>
    IO.eprintln helpText
    return 2

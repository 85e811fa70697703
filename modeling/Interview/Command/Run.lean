import Interview.Command.Arguments
import Interview.Command.Files
import Interview.Command.Report
import Interview.Command.Sample
import Interview.Environment.Configuration
import Interview.Environment.SettingsFile
import Interview.Fact.Document
import Interview.Fact.Export
import Interview.Flow.Build
import Interview.Import.Document
import Interview.Json.Reader
import Interview.Outline.Document

/-!
# Carrying out a command

A command reads its documents, asks the engine, and gives a report. What can fail is looked at in
this order: the arguments, the configuration, the log filter, the flow, the facts, the imports, the
submission, and then the question itself.
-/

namespace Interview.Command

/-- What a command finds around it. -/
structure World where
  environment : Variables
  /-- What paths lead to. -/
  find? : String → Option Entry
  today : Calendar.Date

/-! ## Failures -/

/-- Why a command gives no report. -/
inductive Failure where
  | configuration (cause : Configuration.InvalidSwitch)
  | logFilter (logLevel : String)
  | flowNotRead
  | flowNotDecoded
  | flowNotBuilt (cause : DefinitionError)
  | snapshotNotRead
  | snapshotNotDecoded
  | snapshotNotLoaded (cause : Export.Error)
  | navigation (cause : NavigationError)
deriving DecidableEq, Repr

/-- The wording of an export that is refused. -/
def exportMessage : Export.Error → String
  | .row line cause => s!"invalid fact on line {line}: {cause.message}"
  | .unequalLengths | .notText | .columns => "invalid fact CSV data"

/-- The wording of a failure. -/
def Failure.message : Failure → String
  | configuration cause => s!"configuration error: {cause.message}"
  | logFilter logLevel =>
    s!"logging setup failed: '{logLevel}' is not a valid log filter (set APP_LOG_LEVEL or RUST_LOG)"
  | flowNotRead => "flow definition error: failed to read flow definition"
  | flowNotDecoded => "flow definition error: invalid flow definition JSON"
  | flowNotBuilt cause => s!"flow definition error: invalid flow definition: {cause.message}"
  | snapshotNotRead => "fact snapshot error: failed to read snapshot"
  | snapshotNotDecoded => "fact snapshot error: invalid snapshot JSON"
  | snapshotNotLoaded cause => s!"fact snapshot error: {exportMessage cause}"
  | navigation cause => s!"navigation error: {cause.message}"

/-! ## Documents -/

/-- The JSON value in a file. -/
def jsonOfBytes? (bytes : List UInt8) : Option Json :=
  (Text.Utf8.decode? bytes).bind fun cs => Json.ofString? (String.ofList cs)

/-- The value of a document in a file. -/
def decodeFile {α : Type} (w : World) (unread undecoded : Failure) (decode : Json → Json.Decoded α)
    (path : String) : Except Failure α :=
  match w.find? path with
  | none => .error unread
  | some entry =>
    match (entry.contents?.bind jsonOfBytes?).map decode with
    | some (.ok value) => .ok value
    | _ => .error undecoded

/-- The flow of an outline. -/
def build (o : Outline) : Except Failure Flow :=
  match Flow.build o with
  | .ok f => .ok f
  | .error cause => .error (.flowNotBuilt cause)

/-- The flow in a file, or that of the sample. -/
def loadFlow (w : World) : Option String → Except Failure Flow
  | some path => do build (← decodeFile w .flowNotRead .flowNotDecoded Outline.ofJson path)
  | none => build Sample.outline

/-- Whether the name of a file says that it is a JSON document: it ends in `.json`, in any letter
case, and there is something before that. -/
def isJsonName (path : String) : Bool :=
  let name := (stepNames path).getLast?.getD ""
  match (Text.split '.' (Text.lower name)).reverse with
  | "json" :: stem => stem ≠ [] && stem ≠ [""]
  | _ => false

/-- The facts of an export. Where nothing can be read, there are none. -/
def loadExport (entry : Entry) : Except Failure Store :=
  match Export.load (entry.contents?.getD []) with
  | .ok store => .ok store
  | .error cause => .error (.snapshotNotLoaded cause)

/-- The facts in a file, or those of the sample. -/
def loadFacts (w : World) : Option String → Except Failure Store
  | some path =>
    if isJsonName path then
      decodeFile w .snapshotNotRead .snapshotNotDecoded Store.ofJson path
    else
      (w.find? path).elim (.error .snapshotNotRead) loadExport
  | none => .ok Sample.facts

/-- The import profile in a file; without a file it has not been loaded. -/
def loadImports (w : World) : Option String → Except Failure Import.State
  | some path => decodeFile w .snapshotNotRead .snapshotNotDecoded Import.State.ofJson path
  | none => .ok .notLoaded

/-- The submission in a file, if one is given. -/
def loadSubmission (w : World) : Option String → Except Failure (Option Submission)
  | some path =>
    some <$> decodeFile w .snapshotNotRead .snapshotNotDecoded Submission.ofJson path
  | none => .ok none

/-- The paths of the files that documents are in. -/
def Sources.paths (s : Sources) : List String :=
  [s.flow, s.facts, s.imports].filterMap id

/-- The paths of the files that a command reads. -/
def paths : Command → List String
  | validate flow | batches flow _ _ => flow.toList
  | next sources _ _ _ | progress sources | walk sources _ _ _ => Sources.paths sources
  | checklist sources submission => Sources.paths sources ++ submission.toList

/-! ## Questions -/

/-- What the engine is asked about. -/
structure Situation where
  flow : Flow
  store : Store
  context : Context

/-- The situation that documents and settings describe. -/
def loadSituation (w : World) (settings : Settings) (sources : Sources) :
    Except Failure Situation := do
  let flow ← loadFlow w sources.flow
  let store ← loadFacts w sources.facts
  let imports ← loadImports w sources.imports
  return ⟨flow, store, ⟨imports, settings⟩⟩

/-- The answer to a question in a situation. -/
def Situation.answer {α : Type} (s : Situation) (question : Flow → Context → Reading α) : α :=
  (question s.flow s.context).run s.store.facts

/-- The report on a step or walk, unless it fails. -/
def reportOf {α : Type} (report : α → Json) : Except NavigationError α → Except Failure Json
  | .ok a => .ok (report a)
  | .error cause => .error (.navigation cause)

/-- The report of a command under given settings. -/
def report (w : World) (settings : Settings) : Command → Except Failure Json
  | validate flow => return Report.outline (← loadFlow w flow)
  | next sources screen item review => do
    let s ← loadSituation w settings sources
    reportOf (Report.arrival s.flow) (s.answer fun f ctx => f.nextFromRoute ctx screen item review)
  | checklist sources submission => do
    let s ← loadSituation w settings sources
    let submission ← loadSubmission w submission
    return Report.checklist (s.answer fun f ctx => f.checklist ctx submission)
  | progress sources => do
    let s ← loadSituation w settings sources
    return Report.progress (s.answer fun f ctx => f.subcategories.mapM (f.progress ctx))
  | walk sources start item limit => do
    let s ← loadSituation w settings sources
    reportOf Report.walk (s.answer fun f ctx => f.walk ctx start item limit)
  | batches flow state today =>
    return Report.batches (← loadFlow w flow) state (today.getD w.today)

/-! ## Outcomes -/

/-- What comes of arguments. -/
inductive Outcome where
  | printed (report : Json)
  | failed (cause : Failure)
  /-- No command is carried out. -/
  | noticed (notice : Notice)

/-- The path of the file with settings for variables. -/
def settingsFile : String := ".env"

/-- The variables, those of the settings file included. -/
def World.allVariables (w : World) : Variables :=
  match ((w.find? settingsFile).bind Entry.contents?).bind Text.Utf8.decode? with
  | some file => w.environment.fillFrom file
  | none => w.environment

/-- The settings that the variables give, once the log filter has been looked at. -/
def World.settings (w : World) : Except Failure Settings :=
  match Configuration.ofVariables w.allVariables with
  | .error cause => .error (.configuration cause)
  | .ok config =>
    if config.hasLogFilter w.allVariables then .ok config.settings
    else .error (.logFilter config.logLevel)

/-- What comes of arguments. -/
def run (w : World) (args : List String) : Outcome :=
  match ofArguments args with
  | .error notice => .noticed notice
  | .ok command =>
    match w.settings >>= fun settings => report w settings command with
    | .ok report => .printed report
    | .error cause => .failed cause

/-- What is printed on the version of the program. -/
def versionText : String := "interview-flow 0.1.0\n"

end Interview.Command

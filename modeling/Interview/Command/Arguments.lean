import Interview.Batch.Basic
import Interview.Numeral.Word

/-!
# Commands and their arguments

A command is named by the first argument; without arguments it is the checklist. Its options follow,
each `--name value` or `--name=value`, or `--name` alone for a switch. An option is given at most
once. A value of its own argument does not start with a hyphen, unless it is nothing but a hyphen.

The arguments are looked at one after the other, each value as soon as it is met, so that what is
wrong before a call for help comes first, and what is wrong after it does not matter.
-/

namespace Interview

/-- Where a command finds its documents: the paths of files, where they are given. -/
structure Sources where
  flow : Option String
  facts : Option String
  imports : Option String
deriving DecidableEq, Repr

/-- The sources if no file is given. -/
def Sources.default : Sources := ⟨none, none, none⟩

/-- What can be asked for. -/
inductive Command where
  /-- What the flow consists of. -/
  | validate (flow : Option String)
  /-- Where the filer gets from a screen. -/
  | next (sources : Sources) (screen : String) (item : Option String) (review : Bool)
  | checklist (sources : Sources) (submission : Option String)
  /-- How far the filer is in each subcategory. -/
  | progress (sources : Sources)
  | walk (sources : Sources) (start item : Option String) (limit : Nat)
  /-- How the batches of the screens stand. -/
  | batches (flow : Option String) (state : Option Batch.State) (today : Option Calendar.Date)

namespace Command

/-- What arguments lead to that name no command to carry out. -/
inductive Notice where
  | help
  | version
  /-- The arguments cannot be understood. -/
  | refused
deriving DecidableEq, Repr

/-! ## Options -/

/-- What the value of an option is. -/
inductive ValueKind where
  | text
  /-- The path of a file. -/
  | path
  | count
  | batchState
  | date
deriving DecidableEq, Repr

/-- Whether an option can have a value. -/
def ValueKind.allows (kind : ValueKind) (value : String) : Bool :=
  match kind with
  | text => true
  | path => value ≠ ""
  | count => (Numeral.word? value).isSome
  | batchState => (Batch.State.ofText? value).isSome
  | date => (Calendar.Date.ofText? value).isSome

/-- The options of a command, by their names. -/
structure Options where
  /-- Those with a value, and what it is. -/
  valued : List (String × ValueKind)
  /-- Those without. -/
  switches : List String
deriving DecidableEq, Repr

/-- The options that are given. -/
structure Given where
  values : List (String × String)
  switches : List String
deriving DecidableEq, Repr

namespace Given

/-- No options. -/
def none : Given := ⟨[], []⟩

/-- The value of an option. -/
def value? (g : Given) (name : String) : Option String :=
  g.values.lookup name

/-- Adds an option with a value, by what the options may be. -/
def addValue (g : Given) (options : Options) (name value : String) : Except Notice Given :=
  if (g.value? name).isNone && (options.valued.lookup name).any (·.allows value) then
    .ok { g with values := (name, value) :: g.values }
  else
    .error .refused

/-- Adds a switch. -/
def addSwitch (g : Given) (name : String) : Except Notice Given :=
  if g.switches.contains name then .error .refused
  else .ok { g with switches := name :: g.switches }

end Given

/-- Whether an argument asks for help. -/
def asksHelp (arg : String) : Bool :=
  arg = "--help" || arg.startsWith "-h"

/-- Whether an argument can be the value of the option before it. -/
def isValue (arg : String) : Bool :=
  arg.toList.head? ≠ some '-' || arg = "-"

/-- The name of an option and the value attached to it, if the argument is an option. -/
def option? (arg : String) : Option (String × Option String) :=
  match arg.toList with
  | '-' :: '-' :: rest =>
    let (name, rest) := rest.span (· ≠ '=')
    some (String.ofList name, if rest = [] then none else some (String.ofList (rest.drop 1)))
  | _ => none

/-- Reads the options of a command after those that are given already. Two hyphens end them. -/
def scan (options : Options) (given : Given) : List String → Except Notice Given
  | [] => .ok given
  | arg :: rest =>
    if asksHelp arg then
      .error .help
    else if arg = "--" then
      if rest = [] then .ok given else .error .refused
    else
      match option? arg with
      | none => .error .refused
      | some (name, some value) => do
        scan options (← given.addValue options name value) rest
      | some (name, none) =>
        if options.switches.contains name then do
          scan options (← given.addSwitch name) rest
        else
          match rest with
          | value :: rest =>
            if isValue value then do
              scan options (← given.addValue options name value) rest
            else
              .error .refused
          | [] => .error .refused

/-- The paths of the documents. -/
def Given.sources (g : Given) : Sources :=
  ⟨g.value? "flow", g.value? "facts", g.value? "imports"⟩

/-! ## Commands -/

/-- The number of steps of a walk that sets no limit. -/
def defaultLimit : Nat := 200

/-- The options that say where documents are. -/
def sourceOptions : List (String × ValueKind) :=
  [("flow", .path), ("facts", .path), ("imports", .path)]

/-- A command by its name: its options, and how it is made from them. -/
def named? (name : String) : Option (Options × (Given → Except Notice Command)) :=
  match name with
  | "validate" => some (⟨[("flow", .path)], []⟩, fun given => .ok (.validate (given.value? "flow")))
  | "next" => some (⟨sourceOptions ++ [("screen", .text), ("item", .text)], ["review"]⟩,
      fun given =>
        match given.value? "screen" with
        | some screen =>
          .ok (.next given.sources screen (given.value? "item") (given.switches.contains "review"))
        | none => .error .refused)
  | "checklist" => some (⟨sourceOptions ++ [("submission", .path)], []⟩, fun given =>
      .ok (.checklist given.sources (given.value? "submission")))
  | "progress" => some (⟨sourceOptions, []⟩, fun given => .ok (.progress given.sources))
  | "walk" => some (⟨sourceOptions ++ [("start", .text), ("item", .text), ("max-steps", .count)],
      []⟩, fun given =>
        .ok (.walk given.sources (given.value? "start") (given.value? "item")
          (((given.value? "max-steps").bind Numeral.word?).getD defaultLimit)))
  | "batches" => some (⟨[("flow", .path), ("status", .batchState), ("today", .date)], []⟩,
      fun given =>
        .ok (.batches (given.value? "flow") ((given.value? "status").bind Batch.State.ofText?)
          ((given.value? "today").bind Calendar.Date.ofText?)))
  | _ => none

/-- The command that a name and the arguments after it ask for. -/
def ofName (name : String) (args : List String) : Except Notice Command :=
  match named? name with
  | some (options, make) => do make (← scan options .none args)
  | none => .error .refused

/-- Whether there is help about a name. -/
def isTopic (name : String) : Bool :=
  (named? name).isSome || name = "help"

/-- Whether there is help about what follows the word `help`: nothing, or one name. No command has
commands of its own. -/
def isTopics : List String → Bool
  | [] => true
  | [name] => isTopic name
  | _ => false

/-- The command that arguments ask for. -/
def ofArguments : List String → Except Notice Command
  | [] => .ok (.checklist .default none)
  | arg :: args =>
    if asksHelp arg then .error .help
    else if arg = "--version" ∨ arg.startsWith "-V" then .error .version
    else if arg = "--" ∧ args = [] then .ok (.checklist .default none)
    else if arg = "help" then
      .error (if isTopics args then .help else .refused)
    else ofName arg args

end Command

end Interview

import Interview.Table
import Interview.Text.Blank

/-!
# Files by their paths

A path is a row of names between slashes. It leads step by step from the working directory, or from
the root if it starts with a slash: an empty name and `.` stay where they are, `..` leads to the
directory above, and any other name to what has that name. A step can only be made from a directory.

Known are the files below the working directory, and the places that every system has. Nothing else
is taken to exist, except that there is always a directory above.
-/

namespace Interview.Command

/-- What a path leads to. -/
inductive Entry where
  | file (contents : List UInt8)
  /-- A directory can be opened, but it cannot be read. -/
  | directory
deriving DecidableEq, Repr

/-- What can be read at an entry. -/
def Entry.contents? : Entry → Option (List UInt8)
  | file contents => some contents
  | directory => none

/-- Where a path has led so far. -/
inductive Place where
  /-- A directory above the working directory. -/
  | above
  /-- What some names lead to from the working directory. -/
  | inside (names : List String)
  /-- What some names lead to from the root. -/
  | rooted (names : List String)

/-- The names that a path consists of. -/
def pathNames (path : String) : List String :=
  Text.split '/' path

/-- The names of a path that make a step. -/
def stepNames (path : String) : List String :=
  (pathNames path).filter fun name => name ≠ "" && name ≠ "."

/-- Files by their paths below the working directory. -/
abbrev Files := Table (List UInt8)

/-- The places that every system has, by the names that lead there from the root. -/
def systemFind? : List String → Option Entry
  | [] | ["dev"] | ["tmp"] => some .directory
  | ["dev", "null"] => some (.file [])
  | _ => none

namespace Files

/-- What is at the end of some names from the working directory. -/
def entryInside? (files : Files) (names : List String) : Option Entry :=
  let known := files.entries.map fun (path, contents) => (stepNames path, contents)
  match known.lookup names with
  | some contents => some (.file contents)
  | none =>
    if names = [] || known.any (names.isPrefixOf ·.1) then some .directory else none

/-- What is at a place. -/
def entryAt? (files : Files) : Place → Option Entry
  | .above => some .directory
  | .inside names => files.entryInside? names
  | .rooted names => systemFind? names

/-- The place that a name leads to from a directory. -/
def follow? (name : String) : Place → Option Place
  | .above => if name = ".." then some .above else none
  | .inside names =>
    if name = ".." then some (if names = [] then .above else .inside names.dropLast)
    else some (.inside (names ++ [name]))
  | .rooted names =>
    some (.rooted (if name = ".." then names.dropLast else names ++ [name]))

/-- Makes the step of a name. -/
def step? (files : Files) (place : Place) (name : String) : Option Place :=
  match files.entryAt? place with
  | some .directory => if name = "" ∨ name = "." then some place else follow? name place
  | _ => none

/-- What a path leads to. -/
def find? (files : Files) (path : String) : Option Entry :=
  let start := if path.startsWith "/" then Place.rooted [] else Place.inside []
  ((pathNames path).foldlM files.step? start).bind files.entryAt?

/-- Steps that stay where they are change nothing. -/
example : Files.find? (Table.empty.insert "a.csv" [65]) ".//a.csv" = some (.file [65]) := by
  decide +kernel

/-- No step can be made from a file. -/
example : Files.find? (Table.empty.insert "a.csv" [65]) "a.csv/." = none := by
  decide +kernel

end Files

end Interview.Command

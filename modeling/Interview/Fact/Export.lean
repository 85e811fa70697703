import Interview.Csv.Record
import Interview.Fact.Store
import Interview.Numeral.Decimal
import Interview.Text.Blank
import Interview.Text.Utf8

/-!
# Facts exported as comma-separated values

An export has a header and one row per fact, with the columns `path`, `kind`, `value` and
`complete`, of which the last two may be missing; other columns are ignored. Blanks around a field
do not count.

A row without a value gives an incomplete fact, whatever its kind; a row with a value and the flag
`complete` false gives a placeholder. Rows are taken in order, and a later row replaces an earlier
one for the same path. The first row that cannot be taken decides the error, and then there is no
store at all.
-/

namespace Interview.Export

/-! ## Errors -/

/-- Why a value is refused. -/
inductive ValueError where
  | notABoolean (raw : String)
  | notANumber (raw : String)
  | unknownKind (kind : String)
deriving DecidableEq, Repr

/-- The wording of a refused value. -/
def ValueError.message : ValueError → String
  | notABoolean raw => s!"invalid boolean `{raw}`"
  | notANumber raw => s!"invalid number `{raw}`"
  | unknownKind kind => s!"unknown fact kind `{kind}`"

/-- Why a row is refused. -/
inductive RowError where
  | relativePath (path : String)
  | badFlag (flag path : String)
  | badValue (cause : ValueError) (path : String)
deriving DecidableEq, Repr

/-- The wording of a refused row. -/
def RowError.message : RowError → String
  | relativePath path => s!"fact path `{path}` must start with `/`"
  | badFlag flag path => s!"invalid complete flag `{flag}` for {path}"
  | badValue cause path => s!"{cause.message} ({path})"

/-- Why an export is refused. -/
inductive Error where
  /-- A row has more or fewer fields than the header. -/
  | unequalLengths
  /-- A row is not text. -/
  | notText
  /-- A column that is needed is missing, or a column that is used is there twice. -/
  | columns
  /-- A row is refused; it has the given number, the header being number 1. -/
  | row (line : Nat) (cause : RowError)
deriving DecidableEq, Repr

/-! ## Values -/

/-- A truth value as an export writes it. -/
def bool? (raw : String) : Option Bool :=
  let word := Text.lower (Text.trim raw)
  if word = "true" ∨ word = "yes" ∨ word = "1" then some true
  else if word = "false" ∨ word = "no" ∨ word = "0" then some false
  else none

/-- The value that a text stands for under a kind. The name of a kind may be in any letter case. -/
def value (kind raw : String) : Except ValueError FactValue :=
  let kind := Text.lower kind
  if kind = "boolean" ∨ kind = "bool" then
    match bool? raw with
    | some b => .ok (.boolean b)
    | none => .error (.notABoolean raw)
  else if kind = "text" ∨ kind = "string" then
    .ok (.text raw)
  else if kind = "number" ∨ kind = "dollar" then
    match Numeral.float? (String.ofList (raw.toList.filter (· ≠ ','))) with
    | some x => .ok (.number x)
    | none => .error (.notANumber raw)
  else if kind = "collection" then
    .ok (.collection (Text.entries ';' raw))
  else if kind = "item" ∨ kind = "item_ref" then
    .ok (.itemRef raw)
  else
    .error (.unknownKind kind)

/-! ## Rows -/

/-- The fields of a row that matter. -/
structure Row where
  path : String
  kind : String
  value : Option String
  complete : Option String
deriving DecidableEq, Repr

/-- The flag of a row; a row without one is complete. -/
def Row.flag (row : Row) : Except RowError Bool :=
  match row.complete with
  | none => .ok true
  | some flag =>
    match bool? flag with
    | some b => .ok b
    | none => .error (.badFlag flag row.path)

/-- The fact that a row states, with its path. -/
def Row.fact (row : Row) : Except RowError (String × Fact) := do
  if row.path.toList.head? ≠ some '/' then
    throw (.relativePath row.path)
  let complete ← row.flag
  match row.value with
  | none => return (row.path, .unknown)
  | some raw =>
    match Export.value row.kind raw with
    | .ok v => return (row.path, ⟨complete, some v⟩)
    | .error cause => throw (.badValue cause row.path)

/-! ## Columns -/

/-- The positions of the columns that matter. -/
structure Columns where
  path : Nat
  kind : Nat
  value : Option Nat
  complete : Option Nat
deriving DecidableEq, Repr

namespace Columns

/-- The position of a column; an error if it is there twice. -/
def position (name : String) (header : List String) : Except Error (Option Nat) :=
  if header.count name ≤ 1 then .ok (header.idxOf? name) else .error .columns

/-- The positions that a header names. -/
def ofHeader (header : List String) : Except Error Columns := do
  let path ← position "path" header
  let kind ← position "kind" header
  let value ← position "value" header
  let complete ← position "complete" header
  match path, kind with
  | some path, some kind => return ⟨path, kind, value, complete⟩
  | _, _ => throw .columns

/-- The positions when the header cannot be read: the columns stand in their order. -/
def inOrder (width : Nat) : Except Error Columns :=
  if width < 2 then .error .columns
  else .ok ⟨0, 1, if 2 < width then some 2 else none, if 3 < width then some 3 else none⟩

/-- A field of a record, unless it is blank. -/
def nonblank (fields : List String) (position : Option Nat) : Option String :=
  (position.bind fun i => fields[i]?).filter (· ≠ "")

/-- The row of a record. -/
def row (c : Columns) (fields : List String) : Row :=
  ⟨fields.getD c.path "", fields.getD c.kind "", nonblank fields c.value,
    nonblank fields c.complete⟩

end Columns

/-! ## Files -/

/-- The fields of a record as texts without blanks around them, if they are text. -/
def texts? (record : Csv.Record) : Option (List String) :=
  record.mapM fun field => (Text.Utf8.decode? field).map (String.ofList ∘ Text.trimChars)

/-- The columns of an export with a given header. -/
def columns (header : Csv.Record) : Except Error Columns :=
  match texts? header with
  | some names => Columns.ofHeader names
  | none => Columns.inOrder header.length

/-- The row of the record with a given number under a header. -/
def readRow (header record : Csv.Record) : Except Error Row :=
  if record.length ≠ header.length then
    .error .unequalLengths
  else
    match texts? record with
    | none => .error .notText
    | some fields => (columns header).map (·.row fields)

/-- Takes the record with a given index after the header. -/
def takeRecord (header : Csv.Record) (store : Store) (entry : Csv.Record × Nat) :
    Except Error Store := do
  let row ← readRow header entry.1
  match row.fact with
  | .ok (path, fact) => return store.insert path fact
  | .error cause => throw (.row (entry.2 + 2) cause)

/-- The facts of an export. -/
def load (bytes : List UInt8) : Except Error Store :=
  match Csv.records bytes with
  | [] => .ok .empty
  | header :: rows => rows.zipIdx.foldlM (takeRecord header) .empty

end Interview.Export

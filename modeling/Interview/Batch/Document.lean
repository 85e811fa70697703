import Interview.Batch.Basic
import Interview.Json.Decode

/-!
# Batches in JSON

The registry of batches is an object from names to batches. A date is written as text; a blank text,
like `null`, stands for no date.
-/

namespace Interview.Batch

open Json (Decoded)

/-! ## Decoding -/

/-- Decodes a date that may be missing. -/
def dateOfJson : Json → Decoded (Option Calendar.Date)
  | .null => .ok none
  | .string s =>
    if Text.isAllBlank s then .ok none
    else
      match Calendar.Date.ofText? s with
      | some date => .ok (some date)
      | none => .error (.notADate s)
  | _ => .error (.mismatch "date")

/-- Decodes a step of the work. -/
def Status.ofJson : Json → Decoded Status :=
  Json.toNamed Status.all Status.label

/-- Decodes an entry of the history. -/
def HistoryEntry.ofJson (j : Json) : Decoded HistoryEntry := do
  let fields ← j.fields
  let status ← Json.required "status" Status.ofJson fields
  let completed ← Json.defaulted "completed" dateOfJson none fields
  return ⟨status, completed⟩

/-- Decodes a batch. -/
def ofJson (j : Json) : Decoded Batch := do
  let fields ← j.fields
  let purpose ← Json.defaulted "type" (Json.toNamed Purpose.all Purpose.label) .content fields
  let status ← Json.required "status" Status.ofJson fields
  let started ← Json.defaulted "started" dateOfJson none fields
  let history ← Json.defaulted "history" (Json.toList HistoryEntry.ofJson) [] fields
  return ⟨purpose, status, started, history⟩

/-- Decodes a registry. -/
def Registry.ofJson (j : Json) : Decoded Registry := do
  let batches ← (← j.fields).mapM fun (name, batch) => return (name, ← Batch.ofJson batch)
  return Table.ofList batches

/-! ## Encoding -/

/-- Encodes a date. -/
def dateToJson (date : Option Calendar.Date) : Json :=
  Json.textOrNull (date.map Calendar.Date.toText)

/-- Encodes an entry of the history. -/
def HistoryEntry.toJson (e : HistoryEntry) : Json :=
  .object [("status", .string e.status.label), ("completed", dateToJson e.completed)]

/-- Encodes a batch. -/
def toJson (b : Batch) : Json :=
  .object [("type", .string b.purpose.label), ("status", .string b.status.label),
    ("started", dateToJson b.started), ("history", .array (b.history.map HistoryEntry.toJson))]

/-- Encodes a registry. -/
def Registry.toJson (r : Registry) : Json :=
  .object (r.entries.map fun (name, batch) => (name, batch.toJson))

end Interview.Batch

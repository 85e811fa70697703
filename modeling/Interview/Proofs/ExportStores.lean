import Interview.Proofs.Decoding
import Interview.Proofs.ExportRows

/-!
# Stores of an export

The rows of an export are taken one after the other. An export whose records can all be read as
rows gives a store if every row can be taken, and the store holds for each path the fact of its last
row (`reflects_ofList`). Otherwise the first row that cannot be taken decides the error
(`foldlM_takeRecord_of_error`).
-/

namespace Interview

namespace Export

variable {header record : Csv.Record} {records : List Csv.Record} {row : Row} {rs : List Row}
  {store : Store} {bytes : List UInt8}

/-- The rows of an export, the records after the header. -/
def rows (bytes : List UInt8) : Except Error (List Row) :=
  match Csv.records bytes with
  | [] => .ok []
  | header :: records => records.mapM (readRow header)

/-- A fact without a value is not complete, and items of a collection are trimmed texts. -/
structure IsSound (fact : Fact) : Prop where
  unknown : fact.hasValue = false → fact.complete = false
  valued : fact.complete = true → fact.hasValue = true
  trimmed : ∀ items, fact.value = some (.collection items) →
    ∀ item ∈ items, item ≠ "" ∧ Text.IsTrimmed item

theorem Row.States.isSound {fact : Fact} (h : row.States fact) : IsSound fact := by
  cases h with
  | unknown => exact ⟨fun _ => rfl, nofun, nofun⟩
  | known written writes flag =>
    refine ⟨nofun, fun _ => rfl, fun items hitems => ?_⟩
    cases writes with
    | collection named lists =>
      obtain rfl := FactValue.collection.inj (Option.some.inj hitems)
      exact lists.isTrimmed
    | boolean | text | number | itemRef => cases hitems

/-- A store holds the facts that some rows state: for each of their paths that of the last row, and
no others. -/
structure Reflects (store : Store) (rs : List Row) : Prop where
  paths : ∀ path, (store.get? path).isSome = true ↔ ∃ row ∈ rs, row.path = path
  lastRow : ∀ path fact, store.get? path = some fact ↔ ∃ before row after,
    rs = before ++ row :: after ∧ row.path = path ∧ (∀ later ∈ after, later.path ≠ path) ∧
      row.States fact
  sound : ∀ path fact, store.get? path = some fact → IsSound fact

/-- Some rows are refused for the first of them that cannot be taken. The header has number one. -/
inductive FirstRefused : List Row → Error → Prop where
  | intro {before after : List Row} {row : Row} {cause : RowError}
      (accepted : ∀ r ∈ before, r.IsAcceptable) (refused : row.IsRefusedFor cause) :
      FirstRefused (before ++ row :: after) (.row (before.length + 2) cause)

/-! ## One row -/

theorem takeRecord_eq (h : readRow header record = .ok row) (i : Nat) :
    takeRecord header store (record, i) =
      match row.fact with
      | .ok (path, fact) => .ok (store.insert path fact)
      | .error cause => .error (.row (i + 2) cause) := by
  simp only [takeRecord, h]
  rfl

/-! ## All rows -/

/-- If all rows are taken, their facts are put in one after the other. -/
theorem foldlM_takeRecord_of_ok {entries : List (String × Fact)}
    (hread : records.mapM (readRow header) = .ok rs) (hfacts : rs.mapM Row.fact = .ok entries)
    (i : Nat) : (records.zipIdx i).foldlM (takeRecord header) store =
      .ok (entries.foldl (fun t e => t.insert e.1 e.2) store) := by
  induction records generalizing rs entries i store with
  | nil =>
    obtain rfl : [] = rs := Except.ok.inj hread
    obtain rfl : [] = entries := Except.ok.inj hfacts
    rfl
  | cons record records ih =>
    rw [List.mapM_cons, bind_eq_ok] at hread
    obtain ⟨row, hrow, hread⟩ := hread
    obtain ⟨rest, hrest, hread⟩ := bind_eq_ok.mp hread
    obtain rfl := pure_eq_ok.mp hread
    rw [List.mapM_cons, bind_eq_ok] at hfacts
    obtain ⟨⟨path, fact⟩, hfact, hfacts⟩ := hfacts
    obtain ⟨others, hothers, hfacts⟩ := bind_eq_ok.mp hfacts
    obtain rfl := pure_eq_ok.mp hfacts
    rw [List.zipIdx_cons, List.foldlM_cons, takeRecord_eq hrow, hfact]
    exact ih hrest hothers (i + 1)

/-- The first row that is not taken decides the error. -/
theorem foldlM_takeRecord_of_error {before after : List Row} {cause : RowError}
    (hread : records.mapM (readRow header) = .ok (before ++ row :: after))
    (hbefore : ∀ r ∈ before, r.IsAcceptable) (hrow : row.IsRefusedFor cause) (i : Nat) :
    (records.zipIdx i).foldlM (takeRecord header) store =
      .error (.row (i + before.length + 2) cause) := by
  induction records generalizing before i store with
  | nil => cases before <;> cases hread
  | cons record records ih =>
    rw [List.mapM_cons, bind_eq_ok] at hread
    obtain ⟨first, hfirst, hread⟩ := hread
    obtain ⟨rest, hrest, hread⟩ := bind_eq_ok.mp hread
    have hrows := pure_eq_ok.mp hread
    rw [List.zipIdx_cons, List.foldlM_cons, takeRecord_eq hfirst]
    cases before with
    | nil =>
      obtain ⟨rfl, rfl⟩ := List.cons.inj hrows
      rw [hrow.fact_eq]
      rfl
    | cons earlier before =>
      obtain ⟨rfl, rfl⟩ := List.cons.inj hrows
      obtain ⟨hearlier, hbefore⟩ := List.forall_mem_cons.mp hbefore
      obtain ⟨fact, hstates⟩ := hearlier.exists_states
      rw [Row.fact_of_states hearlier hstates]
      have hlength : i + 1 + before.length + 2 = i + (earlier :: before).length + 2 := by
        rw [List.length_cons]
        omega
      rw [← hlength]
      exact ih hrest hbefore (i + 1)

/-- Some row is the first that cannot be taken, unless all can. -/
theorem all_acceptable_or_firstRefused (rs : List Row) :
    (∀ row ∈ rs, row.IsAcceptable) ∨ ∃ e, FirstRefused rs e := by
  induction rs with
  | nil => exact .inl nofun
  | cons row rs ih =>
    rcases row.acceptable_or_refused with hrow | ⟨cause, hcause⟩
    · rcases ih with hall | ⟨e, hfirst⟩
      · exact .inl (List.forall_mem_cons.mpr ⟨hrow, hall⟩)
      · cases hfirst with
        | intro accepted refused =>
          exact .inr ⟨_, .intro (List.forall_mem_cons.mpr ⟨hrow, accepted⟩) refused⟩
    · have hfirst : FirstRefused ([] ++ row :: rs) (.row 2 cause) := .intro nofun hcause
      exact .inr ⟨_, hfirst⟩

/-- What has been taken could be read as rows. -/
theorem exists_rows_of_foldlM {i : Nat} {store' : Store}
    (h : (records.zipIdx i).foldlM (takeRecord header) store = .ok store') :
    ∃ rs, records.mapM (readRow header) = .ok rs := by
  rw [exists_mapM_eq_ok]
  induction records generalizing i store with
  | nil => exact nofun
  | cons record records ih =>
    rw [List.zipIdx_cons, List.foldlM_cons, bind_eq_ok] at h
    obtain ⟨next, htake, hrest⟩ := h
    obtain ⟨row, hrow, -⟩ := bind_eq_ok.mp htake
    exact List.forall_mem_cons.mpr ⟨⟨row, hrow⟩, ih hrest⟩

theorem exists_mapM_fact : (∃ entries, rs.mapM Row.fact = .ok entries) ↔
    ∀ row ∈ rs, row.IsAcceptable := by
  rw [exists_mapM_eq_ok]
  refine forall₂_congr fun row _ => ⟨?_, fun h => ?_⟩
  · rintro ⟨entry, h⟩
    exact (Row.fact_eq_ok.mp h).2.1
  · obtain ⟨fact, hstates⟩ := h.exists_states
    exact ⟨_, Row.fact_of_states h hstates⟩

/-! ## Exports -/

/-- The rows of an export come from its records, one by one. -/
theorem exists_records (h : rows bytes = .ok rs) : ∃ (header : Csv.Record)
    (records : List Csv.Record), records.mapM (readRow header) = .ok rs ∧
      load bytes = records.zipIdx.foldlM (takeRecord header) .empty := by
  cases hrecords : Csv.records bytes with
  | nil =>
    simp only [rows, hrecords] at h
    exact ⟨[], [], h, by simp only [load, hrecords]; rfl⟩
  | cons header records =>
    simp only [rows, hrecords] at h
    exact ⟨header, records, h, by simp only [load, hrecords]⟩

/-- If all rows of an export are taken, the store is the table of their facts. -/
theorem load_of_ok {entries : List (String × Fact)} (h : rows bytes = .ok rs)
    (hfacts : rs.mapM Row.fact = .ok entries) : load bytes = .ok (Table.ofList entries) := by
  obtain ⟨header, records, hread, hload⟩ := exists_records h
  rw [hload, foldlM_takeRecord_of_ok hread hfacts 0]
  rfl

theorem FirstRefused.load_eq {e : Error} (hrefused : FirstRefused rs e) (h : rows bytes = .ok rs) :
    load bytes = .error e := by
  obtain ⟨header, records, hread, hload⟩ := exists_records h
  cases hrefused with
  | intro accepted refused =>
    rw [hload, foldlM_takeRecord_of_error hread accepted refused 0, Nat.zero_add]

theorem load_decided (rs : List Row) :
    (∃ store entries, rs.mapM Row.fact = .ok entries ∧ store = Table.ofList entries) ∨
      ∃ e, FirstRefused rs e := by
  rcases all_acceptable_or_firstRefused rs with hall | hfirst
  · obtain ⟨entries, hfacts⟩ := exists_mapM_fact.mpr hall
    exact .inl ⟨_, entries, hfacts, rfl⟩
  · exact .inr hfirst

theorem load_eq_ok (h : rows bytes = .ok rs) : load bytes = .ok store ↔
    ∃ entries, rs.mapM Row.fact = .ok entries ∧ store = Table.ofList entries :=
  eq_ok_iff_of_total (fun _ ⟨_, hfacts, heq⟩ => heq ▸ load_of_ok h hfacts)
    (fun _ hrefused => hrefused.load_eq h) (load_decided rs)

theorem load_eq_error (h : rows bytes = .ok rs) {e : Error} :
    load bytes = .error e ↔ FirstRefused rs e :=
  eq_error_iff_of_total (fun _ ⟨_, hfacts, heq⟩ => heq ▸ load_of_ok h hfacts)
    (fun _ hrefused => hrefused.load_eq h) (load_decided rs)

/-- The rows of an export that gives a store could all be read. -/
theorem exists_rows_of_load (h : load bytes = .ok store) : ∃ rs, rows bytes = .ok rs := by
  cases hrecords : Csv.records bytes with
  | nil => exact ⟨[], by simp only [rows, hrecords]⟩
  | cons header records =>
    simp only [load, hrecords] at h
    simp only [rows, hrecords]
    exact exists_rows_of_foldlM h

/-- The table of the facts of some rows reflects them. -/
theorem reflects_ofList {entries : List (String × Fact)} (hfacts : rs.mapM Row.fact = .ok entries) :
    Reflects (Table.ofList entries) rs := by
  have hpath (row : Row) (entry : String × Fact) (h : row.fact = .ok entry) :
      entry.1 = row.path := (Row.fact_eq_ok.mp h).1.symm
  have hlast (path : String) (fact : Fact) : (Table.ofList entries).get? path = some fact ↔
      ∃ before row after, rs = before ++ row :: after ∧ row.path = path ∧
        (∀ later ∈ after, later.path ≠ path) ∧ row.States fact := by
    rw [get?_ofList_of_mapM hpath hfacts]
    refine exists₃_congr fun before row after => and_congr_right fun hrs => ?_
    have haccept : row.IsAcceptable :=
      exists_mapM_fact.mp ⟨entries, hfacts⟩ row (by simp [hrs])
    rw [Row.fact_eq_ok, Row.Gives]
    simp only [List.mem_map, not_exists, not_and, haccept, true_and]
    constructor
    · rintro ⟨hafter, hrow, hstates⟩
      exact ⟨hrow, hafter, hstates⟩
    · rintro ⟨hrow, hafter, hstates⟩
      exact ⟨hafter, hrow, hstates⟩
  refine ⟨fun path => ?_, hlast, fun path fact hget => ?_⟩
  · rw [isSome_get?_ofList_of_mapM hpath hfacts, List.mem_map]
  · obtain ⟨before, row, after, -, -, -, hstates⟩ := (hlast path fact).mp hget
    exact hstates.isSound

theorem exists_load_iff (h : rows bytes = .ok rs) :
    (∃ store, load bytes = .ok store) ↔ ∀ row ∈ rs, row.IsAcceptable := by
  rw [← exists_mapM_fact]
  simp only [load_eq_ok h]
  constructor
  · rintro ⟨-, entries, hfacts, -⟩
    exact ⟨entries, hfacts⟩
  · rintro ⟨entries, hfacts⟩
    exact ⟨_, entries, hfacts, rfl⟩

/-- **An export is taken as a whole or not at all.** It gives a store iff every row can be taken,
and the store reflects the rows. Otherwise the error is that of the first row that cannot be taken,
numbered by its position and two. -/
theorem load_takes_all_or_nothing (h : rows bytes = .ok rs) :
    ((∃ store, load bytes = .ok store) ↔ ∀ row ∈ rs, row.IsAcceptable) ∧
    (∀ store, load bytes = .ok store → Reflects store rs) ∧
    (∀ e, load bytes = .error e ↔ FirstRefused rs e) := by
  refine ⟨exists_load_iff h, fun store hstore => ?_, fun e => load_eq_error h⟩
  obtain ⟨entries, hfacts, rfl⟩ := (load_eq_ok h).mp hstore
  exact reflects_ofList hfacts

end Export

namespace Household

open Export

/-- An export in which a later row replaces an earlier one. -/
def factExport : List UInt8 :=
  Text.Utf8.encode
    "path,kind,value,complete\n/jobs,text,old,\n/estimate,text,soon,No\n/jobs,collection,a; b ;,\n"

/-- The rows of the export. -/
def factRows : List Row :=
  [⟨"/jobs", "text", some "old", none⟩, ⟨"/estimate", "text", some "soon", some "No"⟩,
    ⟨"/jobs", "collection", some "a; b ;", none⟩]

theorem rows_factExport : rows factExport = .ok factRows := by decide +kernel

theorem writesValue_text (raw : String) : WritesValue "text" raw (.text raw) :=
  .text (by rw [Names, Text.lower_eq]; decide)

theorem writesValue_items : WritesValue "collection" "a; b ;" (.collection ["a", "b"]) :=
  .collection (by rw [Names, Text.lower_eq]; decide) (Text.lists_iff.mpr (by decide))

theorem writesBool_no : WritesBool "No" false := by
  rw [WritesBool, Text.lower_eq]
  decide

theorem isAcceptable_factRows : ∀ row ∈ factRows, row.IsAcceptable := by
  simp only [factRows, List.forall_mem_cons]
  exact ⟨⟨rfl, ⟨true, .blank rfl⟩, fun raw _ => ⟨_, writesValue_text raw⟩⟩,
    ⟨rfl, ⟨false, .written rfl writesBool_no⟩, fun raw _ => ⟨_, writesValue_text raw⟩⟩,
    ⟨rfl, ⟨true, .blank rfl⟩, fun raw hraw => ⟨_, Option.some.inj hraw ▸ writesValue_items⟩⟩, nofun⟩

/-- An export with a flag that is no truth value. -/
def refusedExport : List UInt8 :=
  Text.Utf8.encode "complete,path,kind\n,/jobs,text\nmaybe,/estimate,text\n,estimate,text\n"

/-- The rows of the refused export. -/
def refusedRows : List Row :=
  [⟨"/jobs", "text", none, none⟩, ⟨"/estimate", "text", none, some "maybe"⟩,
    ⟨"estimate", "text", none, none⟩]

end Household

namespace Export

open Household in
/-- The last row decides about the jobs, and the estimate is a placeholder. A flag that is no truth
value refuses the other export, even though there is no value beside it. -/
theorem load_takes_all_or_nothing_household :
    rows factExport = .ok factRows ∧
    (∃ store, load factExport = .ok store ∧
      store.get? "/jobs" = some ⟨true, some (.collection ["a", "b"])⟩ ∧
      store.get? "/estimate" = some ⟨false, some (.text "soon")⟩) ∧
    rows refusedExport = .ok refusedRows ∧
    load refusedExport = .error (.row 3 (.badFlag "maybe" "/estimate")) := by
  have hrefused : rows refusedExport = .ok refusedRows := by decide +kernel
  have hmaybe (b : Bool) : ¬ WritesBool "maybe" b := by
    rw [WritesBool, Text.lower_eq]
    cases b <;> decide
  have hfirst : ∀ row ∈ refusedRows.take 1, row.IsAcceptable := by
    intro row hrow
    obtain rfl := List.mem_singleton.mp hrow
    exact ⟨rfl, ⟨true, .blank rfl⟩, by simp⟩
  obtain ⟨hstore, hreflects, -⟩ := load_takes_all_or_nothing rows_factExport
  obtain ⟨-, -, herror⟩ := load_takes_all_or_nothing hrefused
  obtain ⟨store, hload⟩ := hstore.mpr isAcceptable_factRows
  have hlast := (hreflects store hload).lastRow
  refine ⟨rows_factExport, ⟨store, hload, ?_, ?_⟩, hrefused, ?_⟩
  · exact (hlast _ _).mpr ⟨factRows.take 2, _, [], rfl, rfl, by simp,
      .known rfl writesValue_items (.blank rfl)⟩
  · exact (hlast _ _).mpr ⟨factRows.take 1, _, factRows.drop 2, rfl, rfl, by decide,
      .known rfl (writesValue_text _) (.written rfl writesBool_no)⟩
  · rw [herror]
    show FirstRefused (refusedRows.take 1 ++ refusedRows[1] :: refusedRows.drop 2) _
    exact .intro hfirst (.badFlag rfl rfl hmaybe)

end Export

end Interview

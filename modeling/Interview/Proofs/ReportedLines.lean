import Interview.Proofs.ExportStores
import Interview.Proofs.RecordLines

/-!
# Lines that errors report

An export that is refused for one of its rows is refused with a number, which is the position of the
row's record, the header having number one. This is the line on which the record starts if every
record has a line of its own and there are no others. An empty line in front of the record, the
header included, and a quoted field in front of it that goes on over a line end make the reported
number smaller than the line, by one each (`reported_line`).
-/

namespace Interview

namespace Export

variable {header record : Csv.Record} {records : List Csv.Record} {row : Row} {store : Store}
  {bytes : List UInt8} {line i : Nat} {cause : RowError}

/-! ## Refused records -/

/-- A record is read as a row that can be taken. -/
def IsTaken (header record : Csv.Record) : Prop :=
  ∃ row, readRow header record = .ok row ∧ row.IsAcceptable

/-- A record is read as a row that cannot be taken, for a reason. -/
def IsRefused (header record : Csv.Record) (cause : RowError) : Prop :=
  ∃ row, readRow header record = .ok row ∧ row.IsRefusedFor cause

theorem columns_eq_error {e : Error} (h : columns header = .error e) : e = .columns := by
  have hposition {name : String} {names : List String}
      (h : Columns.position name names = .error e) : e = .columns := by
    unfold Columns.position at h
    split at h
    · cases h
    · exact (Except.error.inj h).symm
  unfold columns at h
  split at h
  · next names _ =>
    rw [Columns.ofHeader, bind_eq_error] at h
    obtain hpath | ⟨path, -, h⟩ := h
    · exact hposition hpath
    obtain hkind | ⟨kind, -, h⟩ := bind_eq_error.mp h
    · exact hposition hkind
    obtain hvalue | ⟨value, -, h⟩ := bind_eq_error.mp h
    · exact hposition hvalue
    obtain hcomplete | ⟨complete, -, h⟩ := bind_eq_error.mp h
    · exact hposition hcomplete
    cases path <;> cases kind <;> cases h <;> rfl
  · unfold Columns.inOrder at h
    split at h
    · exact (Except.error.inj h).symm
    · cases h

/-- Reading a record as a row does not refuse the row. -/
theorem readRow_ne_row : readRow header record ≠ .error (.row line cause) := by
  intro h
  unfold readRow at h
  split at h
  · cases h
  · split at h
    · cases h
    · cases hcolumns : columns header with
      | error e =>
        rw [hcolumns] at h
        obtain rfl := Except.error.inj h
        cases columns_eq_error hcolumns
      | ok c =>
        rw [hcolumns] at h
        cases h

theorem takeRecord_of_error {e : Error} (h : readRow header record = .error e) (k : Nat) :
    takeRecord header store (record, k) = .error e := by
  simp only [takeRecord, h]
  rfl

/-- Taking a record refuses it for what is wrong with its row, under the number of the record. -/
theorem takeRecord_eq_row_error {k : Nat} :
    takeRecord header store (record, k) = .error (.row line cause) ↔
      line = k + 2 ∧ IsRefused header record cause := by
  constructor
  · intro h
    cases hread : readRow header record with
    | error e =>
      rw [takeRecord_of_error hread] at h
      obtain rfl := Except.error.inj h
      exact absurd hread readRow_ne_row
    | ok row =>
      rw [takeRecord_eq hread] at h
      cases hfact : row.fact with
      | ok entry =>
        rw [hfact] at h
        cases h
      | error cause' =>
        rw [hfact] at h
        obtain ⟨rfl, rfl⟩ := Error.row.inj (Except.error.inj h)
        exact ⟨rfl, row, hread, Row.fact_eq_error.mp hfact⟩
  · rintro ⟨rfl, row, hread, hrefused⟩
    rw [takeRecord_eq hread, hrefused.fact_eq]

theorem exists_takeRecord_eq_ok {k : Nat} :
    (∃ store', takeRecord header store (record, k) = .ok store') ↔ IsTaken header record := by
  constructor
  · rintro ⟨store', h⟩
    cases hread : readRow header record with
    | error e =>
      rw [takeRecord_of_error hread] at h
      cases h
    | ok row =>
      rw [takeRecord_eq hread] at h
      cases hfact : row.fact with
      | ok entry => exact ⟨row, hread, (Row.fact_eq_ok.mp hfact).2.1⟩
      | error cause =>
        rw [hfact] at h
        cases h
  · rintro ⟨row, hread, haccept⟩
    obtain ⟨fact, hstates⟩ := haccept.exists_states
    exact ⟨_, by rw [takeRecord_eq hread, Row.fact_of_states haccept hstates]⟩

/-- Some records are refused for the first that is not taken, under its number. -/
theorem foldlM_takeRecord_eq_row_error :
    (records.zipIdx i).foldlM (takeRecord header) store = .error (.row line cause) ↔
      ∃ before record after, records = before ++ record :: after ∧
        (∀ r ∈ before, IsTaken header r) ∧ IsRefused header record cause ∧
        line = i + before.length + 2 := by
  induction records generalizing i store with
  | nil =>
    refine iff_of_false (fun h => by cases h) ?_
    rintro ⟨before, record, after, h, -⟩
    simp at h
  | cons first records ih =>
    rw [List.zipIdx_cons, List.foldlM_cons, bind_eq_error, takeRecord_eq_row_error]
    constructor
    · rintro (⟨rfl, hrefused⟩ | ⟨store', htake, hrest⟩)
      · exact ⟨[], first, records, rfl, List.forall_mem_nil _, hrefused, rfl⟩
      · obtain ⟨before, record, after, rfl, htaken, hrefused, rfl⟩ := ih.mp hrest
        have hfirst := exists_takeRecord_eq_ok.mp ⟨store', htake⟩
        exact ⟨first :: before, record, after, rfl, List.forall_mem_cons.mpr ⟨hfirst, htaken⟩,
          hrefused, by rw [List.length_cons]; omega⟩
    · rintro ⟨before, record, after, heq, htaken, hrefused, rfl⟩
      cases before with
      | nil =>
        obtain ⟨rfl, rfl⟩ := List.cons.inj heq
        exact .inl ⟨rfl, hrefused⟩
      | cons earlier before =>
        obtain ⟨rfl, rfl⟩ := List.cons.inj heq
        obtain ⟨hearlier, hbefore⟩ := List.forall_mem_cons.mp htaken
        obtain ⟨store', htake⟩ := exists_takeRecord_eq_ok.mpr hearlier
        exact .inr ⟨store', htake, ih.mpr ⟨before, record, after, rfl, hbefore, hrefused,
          by rw [List.length_cons]; omega⟩⟩

/-! ## Refused exports -/

/-- Behind the header, the record with a given position is the first that is not taken, and it is
refused for a reason. -/
inductive RefusedAt (bytes : List UInt8) : Nat → RowError → Prop where
  | intro {header record : Csv.Record} {before after : List Csv.Record} {cause : RowError}
      (records : Csv.records bytes = header :: (before ++ record :: after))
      (taken : ∀ r ∈ before, IsTaken header r) (refused : IsRefused header record cause) :
      RefusedAt bytes (before.length + 1) cause

theorem RefusedAt.lt_length {k : Nat} (h : RefusedAt bytes k cause) :
    k < (Csv.records bytes).length := by
  cases h with
  | intro records _ _ =>
    rw [records]
    simp

/-- An export is refused for a row iff it has a record that is refused, and the number is that of the
record. -/
theorem load_eq_row_error : load bytes = .error (.row line cause) ↔
    ∃ k, RefusedAt bytes k cause ∧ line = k + 1 := by
  cases hrecords : Csv.records bytes with
  | nil =>
    simp only [load, hrecords]
    refine iff_of_false (fun h => by cases h) ?_
    rintro ⟨k, hk, -⟩
    have hlt := hk.lt_length
    rw [hrecords] at hlt
    exact absurd hlt (Nat.not_lt_zero k)
  | cons header records =>
    simp only [load, hrecords]
    rw [foldlM_takeRecord_eq_row_error]
    constructor
    · rintro ⟨before, record, after, rfl, htaken, hrefused, rfl⟩
      exact ⟨_, .intro hrecords htaken hrefused, by omega⟩
    · rintro ⟨_, ⟨heq, htaken, hrefused⟩, rfl⟩
      obtain ⟨rfl, rfl⟩ := List.cons.inj (hrecords.symm.trans heq)
      exact ⟨_, _, _, rfl, htaken, hrefused, by omega⟩

/-- **The line that an error reports.** An export that is refused for a row is refused for the first
record behind the header that is not taken, and the error reports the position of the record. The
line on which this record starts has that number if there is neither an empty line nor a quoted line
end in front, and otherwise one that is larger by the number of them. Offsets do not count a mark in
front of the text. -/
theorem reported_line (h : load bytes = .error (.row line cause)) :
    ∃ k start, RefusedAt bytes k cause ∧ line = k + 1 ∧
      (Csv.starts (Csv.dropMark bytes))[k]? = some start ∧
      (Csv.records bytes)[k]? = (Csv.recordsOf ((Csv.dropMark bytes).drop start)).head? ∧
      Csv.lineNumber (Csv.dropMark bytes) start = line +
        Csv.blankLines (Csv.dropMark bytes) start +
        Csv.quotedLineEnds (Csv.dropMark bytes) start := by
  obtain ⟨k, hk, rfl⟩ := load_eq_row_error.mp h
  have hlt : k < (Csv.starts (Csv.dropMark bytes)).length := by
    rw [Csv.length_starts]
    exact hk.lt_length
  have hstart := List.getElem?_eq_getElem hlt
  exact ⟨k, _, hk, rfl, hstart, Csv.getElem?_recordsOf hstart, Csv.lineNumber_start hstart⟩

end Export

namespace Household

open Export

/-- An export with an empty line behind the header, a remark of two lines and then a path that is not
absolute. -/
def brokenExport : List UInt8 :=
  Text.Utf8.encode
    "path,kind,value,note\n\n/jobs,text,,\"two\nlines\"\nestimate,text,,\n"

/-- A record of some fields. -/
def fields (names : List String) : Csv.Record :=
  names.map Text.Utf8.encode

theorem records_brokenExport : Csv.records brokenExport =
    [fields ["path", "kind", "value", "note"], fields ["/jobs", "text", "", "two\nlines"],
      fields ["estimate", "text", "", ""]] := by decide +kernel

theorem load_brokenExport :
    load brokenExport = .error (.row 3 (.relativePath "estimate")) := by
  have htaken : IsTaken (fields ["path", "kind", "value", "note"])
      (fields ["/jobs", "text", "", "two\nlines"]) :=
    ⟨⟨"/jobs", "text", none, none⟩, by decide +kernel, rfl, ⟨true, .blank rfl⟩,
      fun raw hraw => by cases hraw⟩
  have hrefused : IsRefused (fields ["path", "kind", "value", "note"])
      (fields ["estimate", "text", "", ""]) (.relativePath "estimate") :=
    ⟨⟨"estimate", "text", none, none⟩, by decide +kernel, .relativePath (by decide)⟩
  have hall : ∀ r ∈ [fields ["/jobs", "text", "", "two\nlines"]],
      IsTaken (fields ["path", "kind", "value", "note"]) r :=
    List.forall_mem_singleton.mpr htaken
  exact load_eq_row_error.mpr ⟨2, .intro records_brokenExport hall hrefused, rfl⟩

theorem starts_brokenExport : Csv.starts (Csv.dropMark brokenExport) = [0, 22, 46] := by
  decide +kernel

end Household

namespace Export

open Household

/-- The path that is not absolute stands on the fifth line, and the error reports the third. -/
theorem reported_line_household :
    load brokenExport = .error (.row 3 (.relativePath "estimate")) ∧
    ∃ start, (Csv.starts (Csv.dropMark brokenExport))[2]? = some start ∧
      Csv.blankLines (Csv.dropMark brokenExport) start = 1 ∧
      Csv.quotedLineEnds (Csv.dropMark brokenExport) start = 1 ∧
      Csv.lineNumber (Csv.dropMark brokenExport) start = 5 := by
  obtain ⟨k, start, -, hk, hstart, -, hline⟩ := reported_line load_brokenExport
  obtain rfl : 2 = k := by omega
  obtain rfl : 46 = start := by
    rw [starts_brokenExport] at hstart
    exact Option.some.inj hstart
  have hblank : Csv.blankLines (Csv.dropMark brokenExport) 46 = 1 := by decide +kernel
  have hquoted : Csv.quotedLineEnds (Csv.dropMark brokenExport) 46 = 1 := by decide +kernel
  exact ⟨load_brokenExport, _, hstart, hblank, hquoted, by rw [hline, hblank, hquoted]⟩

/-- Not every error reports the line on which the refused record starts. -/
theorem not_every_reported_line_right :
    ¬ ∀ (bytes : List UInt8) (line : Nat) (cause : RowError) (k start : Nat),
      load bytes = .error (.row line cause) → RefusedAt bytes k cause →
      (Csv.starts (Csv.dropMark bytes))[k]? = some start →
      Csv.lineNumber (Csv.dropMark bytes) start = line := by
  intro hall
  obtain ⟨k, hrefused, hk⟩ := load_eq_row_error.mp load_brokenExport
  obtain rfl : 2 = k := by omega
  have hstart : (Csv.starts (Csv.dropMark brokenExport))[2]? = some 46 := by
    rw [starts_brokenExport]
    rfl
  have hline := hall _ _ _ _ _ load_brokenExport hrefused hstart
  exact absurd hline (by decide +kernel)

end Export

end Interview

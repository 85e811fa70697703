import Interview.Csv.Record
import Mathlib.Data.List.Basic
import Mathlib.Data.List.Nodup
import Mathlib.Data.List.Range

/-!
# Lines on which records start

A line ends with a line feed, a carriage return or both. Not every line end is the end of a record:
a line without anything on it is skipped, and a quoted field may go on over several lines. Counted
from the start of a file, the line of a record is therefore the number of the record, and one more
for every line end of these two kinds in front of it (`lineNumber_start`).
-/

namespace Interview.Csv

variable {text : List UInt8} {b : UInt8} {w : Walk} {i k : Nat}

/-- The records of a text that has no mark in front. -/
def recordsOf (text : List UInt8) : List Record :=
  (text.foldl Walk.step Walk.start).finish

/-! ## Places and lines -/

/-- The walk over a text in front of the byte at an offset. -/
def walkAt (text : List UInt8) (i : Nat) : Walk :=
  (text.take i).foldl Walk.step Walk.start

/-- Whether a line end begins with the byte at an offset. A line feed right behind a carriage return
belongs to the line end that the return begins. -/
def beginsLineEnd (text : List UInt8) (i : Nat) : Bool :=
  text[i]?.any endsRecord &&
    !(text[i]? == some lineFeed && text[i - 1]? == some carriageReturn)

/-- The number of the line that the byte at an offset stands on, the first line being number 1. -/
def lineNumber (text : List UInt8) (i : Nat) : Nat :=
  (List.range i).countP (beginsLineEnd text) + 1

/-- The number of lines in front of an offset that have nothing on them. -/
def blankLines (text : List UInt8) (i : Nat) : Nat :=
  (List.range i).countP fun j => beginsLineEnd text j && (walkAt text j).place == .recordStart

/-- The number of line ends in quoted fields in front of an offset. -/
def quotedLineEnds (text : List UInt8) (i : Nat) : Nat :=
  (List.range i).countP fun j => beginsLineEnd text j && (walkAt text j).place == .quoted

/-- Whether a record starts with the byte at an offset. -/
def isStart (text : List UInt8) (i : Nat) : Bool :=
  (walkAt text i).place == .recordStart && text[i]?.any (!endsRecord ·)

/-- The offsets at which records start. -/
def starts (text : List UInt8) : List Nat :=
  (List.range text.length).filter (isStart text)

/-- Whether a line end ends the record at hand. -/
def Place.endsWithLine : Place → Bool
  | .fieldStart | .plain | .quoteInQuoted => true
  | .recordStart | .quoted => false

theorem walkAt_succ (h : text[i]? = some b) : walkAt text (i + 1) = (walkAt text i).step b := by
  rw [walkAt, List.take_add_one, h, List.foldl_append]
  rfl

/-! ## One step -/

theorem endsRecord_quote : endsRecord quote = false := by decide

theorem endsRecord_comma : endsRecord comma = false := by decide

theorem step_lineEnd (h : endsRecord b = true) : w.step b =
    match w.place with
    | .recordStart => w
    | .quoted => w.take .quoted b
    | .fieldStart | .plain | .quoteInQuoted => w.endRecord := by
  have hquote : (b == quote) = false := by
    rw [beq_eq_false_iff_ne]
    rintro rfl
    exact absurd (h.symm.trans endsRecord_quote) (by decide)
  have hcomma : (b == comma) = false := by
    rw [beq_eq_false_iff_ne]
    rintro rfl
    exact absurd (h.symm.trans endsRecord_comma) (by decide)
  unfold Walk.step Walk.takeUnquoted
  cases w.place <;> simp [h, hquote, hcomma]

/-- Any other byte is taken within a record. -/
theorem step_of_not_lineEnd (h : endsRecord b = false) :
    (w.step b).place ≠ .recordStart ∧ (w.step b).done = w.done := by
  have hunquoted : (w.takeUnquoted b).place ≠ .recordStart ∧ (w.takeUnquoted b).done = w.done := by
    unfold Walk.takeUnquoted
    rw [h]
    split <;> simp [Walk.endField, Walk.take]
  unfold Walk.step
  cases w.place with
  | recordStart =>
    simp only [h, Bool.false_eq_true, if_false]
    split
    · simp
    · exact hunquoted
  | fieldStart =>
    simp only
    split
    · simp
    · exact hunquoted
  | plain => exact hunquoted
  | quoted =>
    simp only
    split <;> simp [Walk.take]
  | quoteInQuoted =>
    simp only
    split
    · simp [Walk.take]
    · exact hunquoted

/-- Behind a carriage return, a line feed does not end a record. -/
theorem endsWithLine_after_return (h : text[i]? = some carriageReturn) :
    (walkAt text (i + 1)).place.endsWithLine = false := by
  rw [walkAt_succ h, step_lineEnd (by decide)]
  cases hplace : (walkAt text i).place with
  | recordStart => simp only [hplace, Place.endsWithLine]
  | quoted => rfl
  | fieldStart | plain | quoteInQuoted => rfl

/-- What ends the record at hand begins a line end. -/
theorem beginsLineEnd_of_endsWithLine (h : text[i]? = some b) (hend : endsRecord b = true)
    (hplace : (walkAt text i).place.endsWithLine = true) : beginsLineEnd text i = true := by
  have hreturn : text[i - 1]? ≠ some carriageReturn := by
    intro hreturn
    cases i with
    | zero =>
      -- a text that starts with a return has no record at hand there
      exact absurd hplace Bool.false_ne_true
    | succ i => exact absurd (hplace.symm.trans (endsWithLine_after_return hreturn)) (by decide)
  simp [beginsLineEnd, h, hend, hreturn]

/-! ## Counting -/

/-- As many records have been read as line ends have ended one. -/
theorem length_done_walkAt (hi : i ≤ text.length) : (walkAt text i).done.length =
    (List.range i).countP fun j =>
      beginsLineEnd text j && (walkAt text j).place.endsWithLine := by
  induction i with
  | zero => rfl
  | succ i ih =>
    have hb : text[i]? = some text[i] := List.getElem?_eq_getElem hi
    rw [List.range_succ, List.countP_append, List.countP_singleton, ← ih (Nat.le_of_lt hi),
      walkAt_succ hb]
    cases hend : endsRecord text[i] with
    | false =>
      rw [(step_of_not_lineEnd hend).2, beginsLineEnd, hb]
      simp [hend]
    | true =>
      rw [step_lineEnd hend]
      have hbegins := beginsLineEnd_of_endsWithLine hb hend
      cases hplace : (walkAt text i).place with
      | recordStart => simp [Place.endsWithLine]
      | quoted => simp [Place.endsWithLine, Walk.take]
      | fieldStart | plain | quoteInQuoted =>
        rw [hplace] at hbegins
        simp [Place.endsWithLine, Walk.endRecord, hbegins rfl]

/-- As many records have been started as have been read, and one more within a record. -/
theorem countP_isStart (hi : i ≤ text.length) : (List.range i).countP (isStart text) =
    (walkAt text i).done.length + if (walkAt text i).place = .recordStart then 0 else 1 := by
  induction i with
  | zero => rfl
  | succ i ih =>
    have hb : text[i]? = some text[i] := List.getElem?_eq_getElem hi
    rw [List.range_succ, List.countP_append, List.countP_singleton, ih (Nat.le_of_lt hi),
      walkAt_succ hb, isStart, hb, Option.any_some]
    cases hend : endsRecord text[i] with
    | false =>
      obtain ⟨hplace, hdone⟩ := step_of_not_lineEnd (w := walkAt text i) hend
      rw [if_neg hplace, hdone]
      cases (walkAt text i).place <;> simp
    | true =>
      rw [step_lineEnd hend]
      cases hplace : (walkAt text i).place with
      | recordStart => simp [hplace]
      | quoted => simp [Walk.take]
      | fieldStart | plain | quoteInQuoted => simp [Walk.endRecord]

/-- A line end ends a record or an empty line, or is quoted. -/
theorem countP_beginsLineEnd (text : List UInt8) (i : Nat) :
    (List.range i).countP (beginsLineEnd text) =
      ((List.range i).countP fun j =>
        beginsLineEnd text j && (walkAt text j).place.endsWithLine) +
      blankLines text i + quotedLineEnds text i := by
  unfold blankLines quotedLineEnds
  induction i with
  | zero => rfl
  | succ i ih =>
    simp only [List.range_succ, List.countP_append, List.countP_singleton, ih]
    cases beginsLineEnd text i with
    | false => simp
    | true => cases (walkAt text i).place <;> simp [Place.endsWithLine] <;> omega

/-! ## Starts -/

theorem mem_starts : i ∈ starts text ↔ i < text.length ∧ isStart text i = true := by
  rw [starts, List.mem_filter, List.mem_range]

theorem starts_getElem? (h : i ∈ starts text) :
    (starts text)[(List.range i).countP (isStart text)]? = some i := by
  obtain ⟨hi, hstart⟩ := mem_starts.mp h
  obtain ⟨m, hm⟩ := Nat.exists_eq_add_of_lt hi
  have hrange : List.range text.length =
      List.range i ++ i :: (List.range m).map (i + 1 + ·) := by
    rw [hm, Nat.add_right_comm, List.range_add, List.range_succ, List.append_assoc,
      List.singleton_append]
  rw [starts, hrange, List.filter_append, List.filter_cons_of_pos hstart,
    List.countP_eq_length_filter]
  simp

/-- Between a start and the starts in front of it stand as many records. -/
theorem length_done_start (h : (starts text)[k]? = some i) :
    (walkAt text i).place = .recordStart ∧ (walkAt text i).done.length = k := by
  have hmem := List.mem_of_getElem? h
  obtain ⟨hi, hstart⟩ := mem_starts.mp hmem
  have hplace : (walkAt text i).place = .recordStart := by
    simpa using (Bool.and_eq_true_iff.mp hstart).1
  have hcount := countP_isStart (Nat.le_of_lt hi)
  rw [if_pos hplace, Nat.add_zero] at hcount
  have hnodup : (starts text).Nodup := List.nodup_range.filter _
  -- the number of starts in front of it is its position
  have hk := starts_getElem? hmem
  rw [← h] at hk
  have hlt : k < (starts text).length := (List.getElem?_eq_some_iff.mp h).1
  exact ⟨hplace, hcount.symm.trans ((List.getElem?_inj hlt hnodup).mp hk.symm).symm⟩

/-! ## Reading on from a start -/

/-- The walk with records in front of those that it has read. -/
def Walk.behind (w : Walk) (done : List Record) : Walk :=
  { w with done := w.done ++ done }

theorem step_behind (w : Walk) (done : List Record) (b : UInt8) :
    (w.behind done).step b = (w.step b).behind done := by
  have hunquoted : (w.behind done).takeUnquoted b = (w.takeUnquoted b).behind done := by
    unfold Walk.takeUnquoted
    split
    · rfl
    · split <;> rfl
  have hplace : (w.behind done).place = w.place := rfl
  unfold Walk.step
  rw [hplace, hunquoted]
  cases w.place with
  | recordStart =>
    simp only
    split
    · rfl
    · split <;> rfl
  | fieldStart | quoted | quoteInQuoted =>
    simp only
    split <;> rfl
  | plain => rfl

theorem foldl_step_behind (w : Walk) (done : List Record) (text : List UInt8) :
    text.foldl Walk.step (w.behind done) = (text.foldl Walk.step w).behind done := by
  induction text generalizing w with
  | nil => rfl
  | cons b text ih => rw [List.foldl_cons, List.foldl_cons, step_behind, ih]

theorem finish_behind (w : Walk) (done : List Record) :
    (w.behind done).finish = done.reverse ++ w.finish := by
  have hplace : (w.behind done).place = w.place := rfl
  unfold Walk.finish
  rw [hplace]
  cases w.place <;> simp [Walk.behind, Walk.endRecord]

/-- Between two records, nothing of the next one has been read. -/
theorem walkAt_eq_behind (hi : i ≤ text.length) (hplace : (walkAt text i).place = .recordStart) :
    walkAt text i = Walk.start.behind (walkAt text i).done := by
  induction i with
  | zero => rfl
  | succ i ih =>
    have hb : text[i]? = some text[i] := List.getElem?_eq_getElem hi
    rw [walkAt_succ hb] at hplace ⊢
    cases hend : endsRecord text[i] with
    | false => exact absurd hplace (step_of_not_lineEnd hend).1
    | true =>
      rw [step_lineEnd hend] at hplace ⊢
      cases hat : (walkAt text i).place with
      | recordStart => exact ih (Nat.le_of_lt hi) hat
      | quoted => rw [hat] at hplace; cases hplace
      | fieldStart | plain | quoteInQuoted => rfl

/-- The record with a given position is the first one that is read from its start on. -/
theorem getElem?_recordsOf (h : (starts text)[k]? = some i) :
    (recordsOf text)[k]? = (recordsOf (text.drop i)).head? := by
  have hi := (mem_starts.mp (List.mem_of_getElem? h)).1
  obtain ⟨hplace, hdone⟩ := length_done_start h
  have hsplit : recordsOf text = (walkAt text i).done.reverse ++ recordsOf (text.drop i) := by
    rw [recordsOf, recordsOf, ← finish_behind, ← foldl_step_behind,
      ← walkAt_eq_behind (Nat.le_of_lt hi) hplace, walkAt, ← List.foldl_append,
      List.take_append_drop]
  rw [hsplit, List.getElem?_append_right (by rw [List.length_reverse, hdone]), List.length_reverse,
    hdone, Nat.sub_self, List.head?_eq_getElem?]

/-- There are as many starts as records. -/
theorem length_starts (text : List UInt8) : (starts text).length = (recordsOf text).length := by
  rw [starts, ← List.countP_eq_length_filter, countP_isStart le_rfl, recordsOf]
  have hwalk : walkAt text text.length = text.foldl Walk.step Walk.start := by
    rw [walkAt, List.take_length]
  rw [hwalk]
  unfold Walk.finish
  cases (text.foldl Walk.step Walk.start).place <;> simp [Walk.endRecord]

/-- **The line of a record.** The record with a given position starts on the line whose number is
that position and one, and one more for every empty line and every quoted line end in front. -/
theorem lineNumber_start (h : (starts text)[k]? = some i) :
    lineNumber text i = k + 1 + blankLines text i + quotedLineEnds text i := by
  have hi := (mem_starts.mp (List.mem_of_getElem? h)).1
  obtain ⟨-, hdone⟩ := length_done_start h
  rw [lineNumber, countP_beginsLineEnd, ← length_done_walkAt (Nat.le_of_lt hi), hdone]
  omega

end Interview.Csv

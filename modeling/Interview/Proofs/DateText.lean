import Interview.Calendar.Date
import Mathlib.Algebra.Group.Nat.Defs
import Mathlib.Data.List.TakeWhile

/-!
# Dates as texts

`Date.IsWritten` says what the text of a date looks like: the year, the month and the day in
decimal, with hyphens between them. Month and day have two digits. A year from 0 to 9999 has four;
any other has a sign, and as many digits as it needs, but at least four. Whatever looks like this is
read back as the date (`Date.ofText?_eq_some`), and that is how dates are written
(`Date.exists_isWritten`).
-/

namespace Interview

/-! ## Numbers of a given width -/

namespace Numeral

variable {width n : Nat}

theorem toList_padded : (padded width n).toList =
    List.replicate (width - (Nat.toDigits 10 n).length) '0' ++ Nat.toDigits 10 n := by
  simp [padded]

theorem isDigit_of_mem_padded {c : Char} (hc : c ∈ (padded width n).toList) :
    c.isDigit = true := by
  rw [toList_padded] at hc
  rcases List.mem_append.mp hc with hc | hc
  · rw [List.eq_of_mem_replicate hc]
    decide
  · exact Nat.isDigit_of_mem_toDigits (by decide) (by decide) hc

theorem digitsValue_padded : digitsValue (padded width n).toList = n := by
  have hvalue (cs : List Char) : digitsValue cs = Nat.ofDigitChars 10 cs 0 := by
    rw [Nat.ofDigitChars_eq_foldl]
    simp only [digitsValue, digitValue, Nat.mul_comm]
  rw [hvalue, toList_padded, Nat.ofDigitChars_append, Nat.ofDigitChars_replicate_zero,
    Nat.mul_zero, Nat.ofDigitChars_toDigits (by decide) (by decide)]

theorem length_padded :
    (padded width n).toList.length = max width (Nat.toDigits 10 n).length := by
  rw [toList_padded, List.length_append, List.length_replicate]
  omega

theorem length_padded_of_lt (hwidth : 0 < width) (hn : n < 10 ^ width) :
    (padded width n).toList.length = width := by
  rw [length_padded]
  exact max_eq_left ((Nat.length_toDigits_le_iff (by decide) hwidth).mpr hn)

/-- A number takes more digits than its width only if it needs them. -/
theorem le_of_lt_length_padded (hwidth : 0 < width)
    (h : width < (padded width n).toList.length) :
    10 ^ ((padded width n).toList.length - 1) ≤ n := by
  have hlength : (padded width n).toList.length = (Nat.toDigits 10 n).length := by
    rw [length_padded] at h ⊢
    omega
  rw [hlength] at h ⊢
  by_contra hlt
  have hle : (Nat.toDigits 10 n).length ≤ (Nat.toDigits 10 n).length - 1 :=
    (Nat.length_toDigits_le_iff (by decide) (by omega)).mpr (by omega)
  omega

end Numeral

/-! ## Texts without blanks -/

namespace Text

theorem isBlank_of_isDigit {c : Char} (h : c.isDigit = true) : isBlank c = false := by
  simp only [Char.isDigit, Bool.and_eq_true, decide_eq_true_eq] at h
  have hrange : 48 ≤ c.toNat ∧ c.toNat ≤ 57 := h
  simp only [isBlank, blankRanges, List.any_cons, List.any_nil, Bool.or_false,
    Bool.or_eq_false_iff, Bool.and_eq_false_iff, decide_eq_false_iff_not]
  omega

/-- Nothing is left out in front of a text without blanks. -/
theorem dropBlanks_eq {cs : List Char} (h : ∀ c ∈ cs, isBlank c = false) :
    dropBlanks cs = cs := by
  cases cs with
  | nil => rfl
  | cons c cs => exact List.dropWhile_cons_of_neg (by simp [h c List.mem_cons_self])

theorem trimChars_eq {cs : List Char} (h : ∀ c ∈ cs, isBlank c = false) :
    trimChars cs = cs := by
  unfold trimChars
  rw [dropBlanks_eq h, dropBlanks_eq fun c hc => h c (List.mem_reverse.mp hc),
    List.reverse_reverse]

end Text

namespace Calendar.Date

open Numeral

/-! ## The form of a date -/

/-- The parts of the text of a date. -/
structure IsWritten (d : Date) (sign year month day : List Char) : Prop where
  digits : ∀ c ∈ year ++ month ++ day, c.isDigit = true
  year_value : digitsValue year = d.year.natAbs
  month_value : digitsValue month = d.month
  day_value : digitsValue day = d.day
  month_length : month.length = 2
  day_length : day.length = 2
  /-- There are at least four digits, and no more than are needed. -/
  year_length : year.length = 4 ∨ 4 < year.length ∧ 10 ^ (year.length - 1) ≤ d.year.natAbs
  /-- Years of four digits stand without a sign. -/
  sign_inside : 0 ≤ d.year → d.year ≤ 9999 → sign = []
  sign_before : d.year < 0 → sign = ['-']
  sign_past : 9999 < d.year → sign = ['+']

/-- What a date looks like. -/
def written (sign year month day : List Char) : List Char :=
  sign ++ year ++ '-' :: month ++ '-' :: day

theorem daysInMonth_le (year : Int) (month : Nat) : daysInMonth year month ≤ 31 := by
  unfold daysInMonth
  split <;> (try split) <;> omega

theorem month_lt (d : Date) : d.month < 100 := by
  obtain ⟨-, -, hday, hle⟩ := d.isDate
  by_contra hmonth
  have hnone : daysInMonth d.year d.month = 0 := by
    unfold daysInMonth
    split <;> omega
  omega

theorem day_lt (d : Date) : d.day < 100 := by
  have hle := d.isDate.2.2.2
  have hmost := daysInMonth_le d.year d.month
  omega

/-- **How dates are written.** -/
theorem exists_isWritten (d : Date) : ∃ sign year month day,
    d.toText.toList = written sign year month day ∧ d.IsWritten sign year month day := by
  have hlength : (padded 4 d.year.natAbs).toList.length = 4 ∨
      4 < (padded 4 d.year.natAbs).toList.length ∧
        10 ^ ((padded 4 d.year.natAbs).toList.length - 1) ≤ d.year.natAbs := by
    by_cases hlt : 4 < (padded 4 d.year.natAbs).toList.length
    · exact .inr ⟨hlt, le_of_lt_length_padded (by decide) hlt⟩
    · have hleast : 4 ≤ (padded 4 d.year.natAbs).toList.length := by
        rw [length_padded]
        exact le_max_left _ _
      exact .inl (by omega)
  refine ⟨if 0 ≤ d.year ∧ d.year ≤ 9999 then [] else if d.year < 0 then ['-'] else ['+'],
    (padded 4 d.year.natAbs).toList, (padded 2 d.month).toList, (padded 2 d.day).toList, ?_, ?_⟩
  · unfold toText writeYear written
    split
    · next hyear =>
      have habs : d.year.toNat = d.year.natAbs := by omega
      simp [habs]
    · split <;> simp
  · refine ⟨fun c hc => ?_, digitsValue_padded, digitsValue_padded, digitsValue_padded,
      length_padded_of_lt (by decide) d.month_lt, length_padded_of_lt (by decide) d.day_lt,
      hlength, fun h h' => if_pos ⟨h, h'⟩, fun h => ?_, fun h => ?_⟩
    · simp only [List.mem_append] at hc
      rcases hc with (hc | hc) | hc <;> exact isDigit_of_mem_padded hc
    · rw [if_neg (by omega), if_pos h]
    · rw [if_neg (by omega), if_neg (by omega)]

/-! ## Reading -/

/-- A text that does not go on with a digit. -/
def StopsDigits (cs : List Char) : Prop :=
  ∀ c, cs.head? = some c → c.isDigit = false

theorem stopsDigits_nil : StopsDigits [] :=
  fun _ hc => nomatch hc

theorem stopsDigits_hyphen (cs : List Char) : StopsDigits ('-' :: cs) := by
  intro c hc
  rw [← Option.some.inj hc]
  decide

theorem readNumber?_append {width : Nat} {digits rest : List Char} (hne : digits ≠ [])
    (hdigits : ∀ c ∈ digits, c.isDigit = true) (hlength : digits.length ≤ width)
    (hrest : StopsDigits rest) :
    readNumber? width (digits ++ rest) = some (digitsValue digits, rest) := by
  have htake : ((digits ++ rest).take width).takeWhile Char.isDigit = digits := by
    rw [List.take_append, List.take_of_length_le hlength,
      List.takeWhile_append_of_pos hdigits]
    have hnone : (rest.take (width - digits.length)).takeWhile Char.isDigit = [] := by
      cases rest with
      | nil => simp
      | cons c rest =>
        cases width - digits.length with
        | zero => rfl
        | succ k => simp [hrest c rfl]
    rw [hnone, List.append_nil]
  simp [readNumber?, htake, hne]

/-- A year without a sign is read as one of at most four digits. -/
theorem readYear?_unsigned {c : Char} (hc : c.isDigit = true) (cs : List Char) :
    readYear? (c :: cs) = (readNumber? 4 (c :: cs)).map fun p => ((p.1 : Int), p.2) := by
  unfold readYear?
  split
  · next h =>
    rw [(List.cons.inj h).1] at hc
    cases hc
  · next h =>
    rw [(List.cons.inj h).1] at hc
    cases hc
  · rfl

theorem readYear?_append {d : Date} {sign year month day : List Char}
    (h : d.IsWritten sign year month day) {rest : List Char} (hrest : StopsDigits rest) :
    readYear? (sign ++ (year ++ rest)) = some (d.year, rest) := by
  have hdigits : ∀ c ∈ year, c.isDigit = true := fun c hc => h.digits c (by simp [hc])
  have hne : year ≠ [] := by
    rintro rfl
    have hlength := h.year_length
    simp at hlength
  have hwidth : year.length ≤ (year ++ rest).length := by simp
  have hsigned := readNumber?_append hne hdigits hwidth hrest
  rcases Int.lt_or_le d.year 0 with hbefore | hsince
  · have hvalue : -(d.year.natAbs : Int) = d.year := by omega
    rw [h.sign_before hbefore]
    show (readNumber? (year ++ rest).length (year ++ rest)).map _ = _
    rw [hsigned, h.year_value]
    exact congrArg (fun y => some (y, rest)) hvalue
  · have hvalue : (d.year.natAbs : Int) = d.year := by omega
    rcases Int.lt_or_le 9999 d.year with hpast | hfour
    · rw [h.sign_past hpast]
      show (readNumber? (year ++ rest).length (year ++ rest)).map _ = _
      rw [hsigned, h.year_value]
      exact congrArg (fun y => some (y, rest)) hvalue
    · have hlength : year.length ≤ 4 := by
        rcases h.year_length with hlength | ⟨hlength, hvalue⟩
        · omega
        · have hpower : 10 ^ 4 ≤ 10 ^ (year.length - 1) :=
            Nat.pow_le_pow_right (by decide) (by omega)
          omega
      have hunsigned := readNumber?_append hne hdigits hlength hrest
      obtain ⟨c, cs, rfl⟩ := List.exists_cons_of_ne_nil hne
      rw [h.sign_inside hsince hfour, List.nil_append, List.cons_append,
        readYear?_unsigned (hdigits c List.mem_cons_self), ← List.cons_append, hunsigned,
        h.year_value]
      exact congrArg (fun y => some (y, rest)) hvalue

/-- There are no blanks in the text of a date. -/
theorem IsWritten.isBlank_of_mem {d : Date} {sign year month day : List Char}
    (h : d.IsWritten sign year month day) :
    ∀ c ∈ written sign year month day, Text.isBlank c = false := by
  have hsign : ∀ c ∈ sign, c = '-' ∨ c = '+' := by
    intro c hc
    rcases Int.lt_or_le d.year 0 with hbefore | hsince
    · rw [h.sign_before hbefore] at hc
      exact .inl (List.mem_singleton.mp hc)
    · rcases Int.lt_or_le 9999 d.year with hpast | hfour
      · rw [h.sign_past hpast] at hc
        exact .inr (List.mem_singleton.mp hc)
      · rw [h.sign_inside hsince hfour] at hc
        cases hc
  have hdigits : ∀ c ∈ year ++ month ++ day, Text.isBlank c = false := fun c hc =>
    Text.isBlank_of_isDigit (h.digits c hc)
  have hhyphen : Text.isBlank '-' = false := by decide
  intro c hc
  simp only [written, List.mem_append, List.mem_cons] at hc hdigits
  rcases hc with ((hc | hc) | rfl | hc) | rfl | hc
  · rcases hsign c hc with rfl | rfl <;> decide
  · exact hdigits c (.inl (.inl hc))
  · exact hhyphen
  · exact hdigits c (.inl (.inr hc))
  · exact hhyphen
  · exact hdigits c (.inr hc)

/-- **A text that looks like a date is read as it.** -/
theorem ofText?_eq_some {d : Date} {s : String} {sign year month day : List Char}
    (hs : s.toList = written sign year month day) (h : d.IsWritten sign year month day) :
    ofText? s = some d := by
  have hmonth : ∀ c ∈ month, c.isDigit = true := fun c hc => h.digits c (by simp [hc])
  have hday : ∀ c ∈ day, c.isDigit = true := fun c hc => h.digits c (by simp [hc])
  have hne {cs : List Char} (hlength : cs.length = 2) : cs ≠ [] := by
    rintro rfl
    cases hlength
  have hafter {cs rest : List Char} (hlength : cs.length = 2)
      (hcs : ∀ c ∈ cs, c.isDigit = true) :
      afterHyphen? ('-' :: (cs ++ rest)) = some (cs ++ rest) := by
    obtain ⟨c, cs, rfl⟩ := List.exists_cons_of_ne_nil (hne hlength)
    have hc := Text.isBlank_of_isDigit (hcs c List.mem_cons_self)
    simp [afterHyphen?, Text.dropBlanks, hc]
  -- the three numbers are read one after the other
  have hreadYear := readYear?_append h (stopsDigits_hyphen (month ++ '-' :: (day ++ [])))
  have hreadMonth := readNumber?_append (hne h.month_length) hmonth h.month_length.le
    (stopsDigits_hyphen (day ++ []))
  have hreadDay := readNumber?_append (hne h.day_length) hday h.day_length.le stopsDigits_nil
  have hparts : written sign year month day =
      sign ++ (year ++ '-' :: (month ++ '-' :: (day ++ []))) := by simp [written]
  unfold ofText? ofChars?
  rw [hs, Text.trimChars_eq h.isBlank_of_mem, Text.dropBlanks_eq h.isBlank_of_mem, hparts,
    hreadYear]
  simp only [Option.bind_eq_bind, Option.bind_some, hafter h.month_length hmonth, hreadMonth,
    hafter h.day_length hday, hreadDay, if_true, h.month_value, h.day_value]
  exact dif_pos d.isDate

/-- The text of a date is read as the date. -/
theorem ofText?_toText (d : Date) : ofText? d.toText = some d := by
  obtain ⟨sign, year, month, day, htext, hwritten⟩ := d.exists_isWritten
  exact ofText?_eq_some htext hwritten

/-- The text of a date is no blank one. -/
theorem isAllBlank_toText (d : Date) : Text.isAllBlank d.toText = false := by
  obtain ⟨sign, year, month, day, htext, hwritten⟩ := d.exists_isWritten
  have hhyphen : '-' ∈ written sign year month day := by simp [written]
  rw [Text.isAllBlank, htext]
  exact List.all_eq_false.mpr ⟨'-', hhyphen, by decide⟩

end Calendar.Date

end Interview

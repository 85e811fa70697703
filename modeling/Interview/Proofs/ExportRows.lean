import Interview.Fact.Document
import Interview.Fact.Export
import Interview.Proofs.Building
import Mathlib.Data.List.Basic
import Mathlib.Data.List.TakeWhile

/-!
# Rows of an export

What a row of an export has to be like, and what fact it states then. The texts of truth values and
of values of each kind are described without reading them: a list of items, for one, is a text that
its pieces give when separators are put between them. `Row.fact_eq_ok` and `Row.fact_eq_error` say
that a row is taken, or refused for a reason, exactly as described.
-/

namespace Interview

namespace Text

/-- The characters of a text in lower case. -/
theorem lower_eq (s : String) : lower s = String.ofList (s.toList.map Char.toLower) := by
  rw [lower, ← String.toList_inj, String.toList_map, String.toList_ofList]

/-! ## Separated lists -/

/-- A text neither starts nor ends with a blank. -/
def IsTrimmed (s : String) : Prop :=
  ∀ c, s.toList.head? = some c ∨ s.toList.getLast? = some c → isBlank c = false

/-- A text lists some entries: it consists of pieces with separators between them, and the entries
are the pieces without the blanks at their ends. A piece of nothing but blanks gives no entry. -/
def Lists (separator : Char) (s : String) (entries : List String) : Prop :=
  ∃ pieces : List (List Char), pieces ≠ [] ∧ [separator].intercalate pieces = s.toList ∧
    (∀ piece ∈ pieces, separator ∉ piece) ∧
    entries = (pieces.filter (·.any (!isBlank ·))).map (String.ofList ∘ trimChars)

variable {separator : Char} {cs : List Char} {s : String} {entries : List String}

theorem splitChars_eq_splitOn (separator : Char) (cs : List Char) :
    splitChars separator cs = cs.splitOn separator := by
  induction cs with
  | nil => rfl
  | cons c rest ih =>
    rw [splitChars, ih]
    unfold List.splitOn
    rw [List.splitOnP_cons_eq_if_modifyHead]
    by_cases hc : c = separator
    · simp [hc]
    · obtain ⟨piece, pieces, heq⟩ :=
        List.exists_cons_of_ne_nil (List.splitOnP_ne_nil (· == separator) rest)
      rw [if_neg hc, if_neg (by simpa using hc), heq]
      rfl

theorem not_mem_of_mem_splitChars {piece : List Char} (h : piece ∈ splitChars separator cs) :
    separator ∉ piece := by
  induction cs generalizing piece with
  | nil =>
    obtain rfl := List.mem_singleton.mp h
    exact List.not_mem_nil
  | cons c rest ih =>
    rw [splitChars] at h
    split at h
    · rcases List.mem_cons.mp h with rfl | h
      · exact List.not_mem_nil
      · exact ih h
    · next hc =>
      split at h
      · obtain rfl := List.mem_singleton.mp h
        simpa using Ne.symm hc
      · next first pieces heq =>
        rw [heq] at ih
        rcases List.mem_cons.mp h with rfl | h
        · exact List.not_mem_cons_of_ne_of_not_mem (Ne.symm hc) (ih List.mem_cons_self)
        · exact ih (List.mem_cons_of_mem first h)

/-- The first character of what is left without the blanks in front is not blank. -/
theorem isBlank_of_head?_dropBlanks {c : Char} (h : (dropBlanks cs).head? = some c) :
    isBlank c = false := by
  have hhead := List.head?_dropWhile_not isBlank cs
  rw [← dropBlanks, h] at hhead
  exact hhead

theorem head?_trimChars {c : Char} (h : (trimChars cs).head? = some c) : isBlank c = false := by
  have hsuffix : dropBlanks (dropBlanks cs).reverse <:+ (dropBlanks cs).reverse :=
    List.dropWhile_suffix _
  obtain ⟨rest, hrest⟩ : trimChars cs <+: dropBlanks cs := by
    simpa [trimChars] using List.reverse_prefix.mpr hsuffix
  have hhead : (dropBlanks cs).head? = some c := by
    rw [← hrest, List.head?_append, h]
    rfl
  exact isBlank_of_head?_dropBlanks hhead

theorem getLast?_trimChars {c : Char} (h : (trimChars cs).getLast? = some c) :
    isBlank c = false := by
  rw [trimChars, List.getLast?_reverse] at h
  exact isBlank_of_head?_dropBlanks h

theorem isTrimmed_trimChars (cs : List Char) : IsTrimmed (String.ofList (trimChars cs)) := by
  intro c h
  rw [String.toList_ofList] at h
  rcases h with h | h
  · exact head?_trimChars h
  · exact getLast?_trimChars h

/-- Trimming leaves nothing iff there were nothing but blanks. -/
theorem trimChars_eq_nil : trimChars cs = [] ↔ ∀ c ∈ cs, isBlank c = true := by
  have hdrop (ds : List Char) : dropBlanks ds = [] ↔ ∀ c ∈ ds, isBlank c = true :=
    List.dropWhile_eq_nil_iff
  rw [trimChars, List.reverse_eq_nil_iff, hdrop]
  constructor
  · intro h
    rw [← hdrop]
    -- the first character that is left would not be blank
    cases hcs : dropBlanks cs with
    | nil => rfl
    | cons c rest =>
      have hhead : (dropBlanks cs).head? = some c := by rw [hcs]; rfl
      have hc := isBlank_of_head?_dropBlanks hhead
      rw [h c (by simp [hcs])] at hc
      cases hc
  · intro h
    rw [(hdrop cs).mpr h]
    simp

/-- The entries of a list are those of its pieces. -/
theorem entries_eq (separator : Char) (s : String) : Text.entries separator s =
    ((splitChars separator s.toList).filter (·.any (!isBlank ·))).map
      (String.ofList ∘ trimChars) := by
  have hnonempty (piece : List Char) :
      decide (String.ofList (trimChars piece) ≠ "") = piece.any (!isBlank ·) := by
    rw [Bool.eq_iff_iff, decide_eq_true_iff, List.any_eq_true, ne_eq, String.ofList_eq_empty_iff,
      trimChars_eq_nil]
    simp
  have htrim : trim ∘ String.ofList = String.ofList ∘ trimChars := by
    funext piece
    simp [trim]
  rw [Text.entries, split, List.map_map, htrim, List.filter_map]
  congr 1
  exact List.filter_congr fun piece _ => hnonempty piece

/-- A text lists its entries and no others. -/
theorem lists_iff : Lists separator s entries ↔ entries = Text.entries separator s := by
  rw [entries_eq]
  constructor
  · rintro ⟨pieces, hne, hs, hpieces, rfl⟩
    rw [← hs, splitChars_eq_splitOn, List.splitOn_intercalate separator hpieces hne]
  · intro h
    refine ⟨splitChars separator s.toList, ?_, ?_, fun piece => not_mem_of_mem_splitChars, h⟩
    · rw [splitChars_eq_splitOn]
      exact List.splitOn_ne_nil separator _
    · rw [splitChars_eq_splitOn]
      exact List.intercalate_splitOn separator

/-- Entries are trimmed, and none is empty. -/
theorem Lists.isTrimmed (h : Lists separator s entries) :
    ∀ entry ∈ entries, entry ≠ "" ∧ IsTrimmed entry := by
  obtain ⟨pieces, -, -, -, rfl⟩ := h
  intro entry hentry
  obtain ⟨piece, hpiece, rfl⟩ := List.mem_map.mp hentry
  obtain ⟨c, hc, hblank⟩ := List.any_eq_true.mp (List.mem_filter.mp hpiece).2
  refine ⟨fun hempty => ?_, isTrimmed_trimChars piece⟩
  rw [trimChars_eq_nil.mp (String.ofList_eq_empty_iff.mp hempty) c hc] at hblank
  cases hblank

end Text

namespace Export

variable {kind raw : String} {row : Row}

/-! ## Values -/

/-- The words for a truth value. -/
def words : Bool → List String
  | true => ["true", "yes", "1"]
  | false => ["false", "no", "0"]

/-- A text is a word for a truth value, in any letter case and with blanks around it. -/
def WritesBool (raw : String) (b : Bool) : Prop :=
  Text.lower (Text.trim raw) ∈ words b

/-- The names of a kind of value. -/
def kindNames : FactValue.Kind → List String
  | .boolean => ["boolean", "bool"]
  | .text => ["text", "string"]
  | .number => ["number", "dollar"]
  | .collection => ["collection"]
  | .itemRef => ["item", "item_ref"]

/-- A text names a kind, in any letter case. -/
def Names (kind : String) (k : FactValue.Kind) : Prop :=
  Text.lower kind ∈ kindNames k

/-- A number without the commas that group its digits. -/
def withoutCommas (raw : String) : String :=
  String.ofList (raw.toList.filter (· ≠ ','))

/-- A text stands for a value under a kind. -/
inductive WritesValue (kind raw : String) : FactValue → Prop where
  | boolean {b : Bool} (named : Names kind .boolean) (writes : WritesBool raw b) :
      WritesValue kind raw (.boolean b)
  | text (named : Names kind .text) : WritesValue kind raw (.text raw)
  | number {x : Float} (named : Names kind .number)
      (reads : Numeral.float? (withoutCommas raw) = some x) : WritesValue kind raw (.number x)
  | collection {items : List String} (named : Names kind .collection)
      (lists : Text.Lists ';' raw items) : WritesValue kind raw (.collection items)
  | itemRef (named : Names kind .itemRef) : WritesValue kind raw (.itemRef raw)

/-- A text stands for no value under a kind, for a reason. -/
inductive RefusesValue (kind raw : String) : ValueError → Prop where
  | boolean (named : Names kind .boolean) (refused : ∀ b, ¬ WritesBool raw b) :
      RefusesValue kind raw (.notABoolean raw)
  | number (named : Names kind .number) (refused : Numeral.float? (withoutCommas raw) = none) :
      RefusesValue kind raw (.notANumber raw)
  | kind (unknown : ∀ k, ¬ Names kind k) : RefusesValue kind raw (.unknownKind (Text.lower kind))

/-! ## Facts -/

namespace Row

/-- The flag of a row, where a blank one stands for `true`. -/
inductive HasFlag (row : Row) : Bool → Prop where
  | blank (blank : row.complete = none) : HasFlag row true
  | written {flag : String} {b : Bool} (written : row.complete = some flag)
      (writes : WritesBool flag b) : HasFlag row b

/-- A row states a fact about its path. -/
inductive States (row : Row) : Fact → Prop where
  | unknown (blank : row.value = none) : States row .unknown
  | known {raw : String} {v : FactValue} {b : Bool} (written : row.value = some raw)
      (writes : WritesValue row.kind raw v) (flag : row.HasFlag b) : States row ⟨b, some v⟩

/-- A row can be taken. -/
structure IsAcceptable (row : Row) : Prop where
  absolute : row.path.toList.head? = some '/'
  /-- The flag is blank or a truth value, even if there is no value that it could be about. -/
  flag : ∃ b, row.HasFlag b
  /-- The value is blank or stands for one under a known kind. -/
  value : ∀ raw, row.value = some raw → ∃ v, WritesValue row.kind raw v

/-- A row cannot be taken, for a reason. The path comes before the flag and the flag before the
value. -/
inductive IsRefusedFor (row : Row) : RowError → Prop where
  | relativePath (relative : row.path.toList.head? ≠ some '/') :
      IsRefusedFor row (.relativePath row.path)
  | badFlag {flag : String} (absolute : row.path.toList.head? = some '/')
      (written : row.complete = some flag) (refused : ∀ b, ¬ WritesBool flag b) :
      IsRefusedFor row (.badFlag flag row.path)
  | badValue {raw : String} {cause : ValueError} (absolute : row.path.toList.head? = some '/')
      (flag : ∃ b, row.HasFlag b) (written : row.value = some raw)
      (refused : RefusesValue row.kind raw cause) : IsRefusedFor row (.badValue cause row.path)

end Row

/-! ## Reading values -/

theorem bool?_eq_some {b : Bool} : bool? raw = some b ↔ WritesBool raw b := by
  have hdisjoint (word : String) (htrue : word ∈ words true) : word ∉ words false := by
    revert word
    decide
  have hread : bool? raw = if Text.lower (Text.trim raw) ∈ words true then some true
      else if Text.lower (Text.trim raw) ∈ words false then some false else none := by
    simp [bool?, words]
  rw [hread, WritesBool]
  split
  · next htrue =>
    cases b with
    | true => simpa using htrue
    | false => simpa using hdisjoint _ htrue
  · next htrue =>
    split
    · next hfalse =>
      cases b with
      | true => simpa using htrue
      | false => simpa using hfalse
    · next hfalse =>
      cases b with
      | true => simpa using htrue
      | false => simpa using hfalse

theorem bool?_eq_none : bool? raw = none ↔ ∀ b, ¬ WritesBool raw b := by
  simp only [← bool?_eq_some, Option.eq_none_iff_forall_ne_some, ne_eq]

/-- The value that a text stands for under a kind that is known. -/
def valueOf (k : FactValue.Kind) (raw : String) : Except ValueError FactValue :=
  match k with
  | .boolean =>
    match bool? raw with
    | some b => .ok (.boolean b)
    | none => .error (.notABoolean raw)
  | .text => .ok (.text raw)
  | .number =>
    match Numeral.float? (withoutCommas raw) with
    | some x => .ok (.number x)
    | none => .error (.notANumber raw)
  | .collection => .ok (.collection (Text.entries ';' raw))
  | .itemRef => .ok (.itemRef raw)

theorem Names.value_eq {k : FactValue.Kind} (h : Names kind k) : value kind raw = valueOf k raw := by
  cases k with
  | boolean | text | number | itemRef =>
    rcases List.mem_pair.mp h with h | h
    · simp only [value, h]
      rfl
    · simp only [value, h]
      rfl
  | collection =>
    simp only [value, List.mem_singleton.mp h]
    rfl

theorem value_of_unknown (h : ∀ k, ¬ Names kind k) :
    value kind raw = .error (.unknownKind (Text.lower kind)) := by
  have hboolean : ¬ (Text.lower kind = "boolean" ∨ Text.lower kind = "bool") := by
    simpa [Names, kindNames] using h .boolean
  have htext : ¬ (Text.lower kind = "text" ∨ Text.lower kind = "string") := by
    simpa [Names, kindNames] using h .text
  have hnumber : ¬ (Text.lower kind = "number" ∨ Text.lower kind = "dollar") := by
    simpa [Names, kindNames] using h .number
  have hcollection : ¬ Text.lower kind = "collection" := by
    simpa [Names, kindNames] using h .collection
  have hitem : ¬ (Text.lower kind = "item" ∨ Text.lower kind = "item_ref") := by
    simpa [Names, kindNames] using h .itemRef
  simp only [value, if_neg hboolean, if_neg htext, if_neg hnumber, if_neg hcollection,
    if_neg hitem]

theorem WritesValue.value_eq {v : FactValue} (h : WritesValue kind raw v) :
    value kind raw = .ok v := by
  cases h with
  | boolean named writes => rw [named.value_eq, valueOf, bool?_eq_some.mpr writes]
  | text named => rw [named.value_eq, valueOf]
  | number named reads => rw [named.value_eq, valueOf, reads]
  | collection named lists => rw [named.value_eq, valueOf, Text.lists_iff.mp lists]
  | itemRef named => rw [named.value_eq, valueOf]

theorem RefusesValue.value_eq {cause : ValueError} (h : RefusesValue kind raw cause) :
    value kind raw = .error cause := by
  cases h with
  | boolean named refused => rw [named.value_eq, valueOf, bool?_eq_none.mpr refused]
  | number named refused => rw [named.value_eq, valueOf, refused]
  | kind unknown => exact value_of_unknown unknown

/-- A text stands for a value or is refused. -/
theorem writes_or_refuses (kind raw : String) :
    (∃ v, WritesValue kind raw v) ∨ ∃ cause, RefusesValue kind raw cause := by
  by_cases hkind : ∃ k, Names kind k
  · obtain ⟨k, named⟩ := hkind
    cases k with
    | boolean =>
      by_cases hbool : ∃ b, WritesBool raw b
      · exact .inl (hbool.imp' _ fun b => .boolean named)
      · exact .inr ⟨_, .boolean named (not_exists.mp hbool)⟩
    | text => exact .inl ⟨_, .text named⟩
    | number =>
      cases hread : Numeral.float? (withoutCommas raw) with
      | some x => exact .inl ⟨_, .number named hread⟩
      | none => exact .inr ⟨_, .number named hread⟩
    | collection => exact .inl ⟨_, .collection named (Text.lists_iff.mpr rfl)⟩
    | itemRef => exact .inl ⟨_, .itemRef named⟩
  · exact .inr ⟨_, .kind (not_exists.mp hkind)⟩

/-! ## Taking rows -/

namespace Row

theorem HasFlag.flag_eq {b : Bool} (h : row.HasFlag b) : row.flag = .ok b := by
  cases h with
  | blank blank => rw [flag, blank]
  | written written writes => simp only [flag, written, bool?_eq_some.mpr writes]

theorem flag_of_refused {flag : String} (written : row.complete = some flag)
    (refused : ∀ b, ¬ WritesBool flag b) : row.flag = .error (.badFlag flag row.path) := by
  simp only [Row.flag, written, bool?_eq_none.mpr refused]

theorem IsAcceptable.exists_states (h : row.IsAcceptable) : ∃ fact, row.States fact := by
  obtain ⟨b, hb⟩ := h.flag
  cases hvalue : row.value with
  | none => exact ⟨_, .unknown hvalue⟩
  | some raw =>
    obtain ⟨v, hv⟩ := h.value raw hvalue
    exact ⟨_, .known hvalue hv hb⟩

/-- A row can be taken, or there is a reason to refuse it. -/
theorem acceptable_or_refused (row : Row) :
    row.IsAcceptable ∨ ∃ cause, row.IsRefusedFor cause := by
  by_cases habsolute : row.path.toList.head? = some '/'
  case neg => exact .inr ⟨_, .relativePath habsolute⟩
  by_cases hflag : ∃ b, row.HasFlag b
  case neg =>
    rw [not_exists] at hflag
    cases hcomplete : row.complete with
    | none => exact absurd (.blank hcomplete) (hflag true)
    | some flag =>
      have hrefused (b : Bool) : ¬ WritesBool flag b := fun hb => hflag b (.written hcomplete hb)
      exact .inr ⟨_, .badFlag habsolute hcomplete hrefused⟩
  by_cases hvalue : ∀ raw, row.value = some raw → ∃ v, WritesValue row.kind raw v
  case pos => exact .inl ⟨habsolute, hflag, hvalue⟩
  simp only [not_forall] at hvalue
  obtain ⟨raw, hraw, hrefused⟩ := hvalue
  obtain ⟨cause, hcause⟩ := (writes_or_refuses row.kind raw).resolve_left hrefused
  exact .inr ⟨_, .badValue habsolute hflag hraw hcause⟩

/-- An absolute path and a good flag leave the value to decide. -/
theorem fact_of_flag {b : Bool} (habsolute : row.path.toList.head? = some '/')
    (hflag : row.HasFlag b) : row.fact =
      match row.value with
      | none => .ok (row.path, .unknown)
      | some raw =>
        match Export.value row.kind raw with
        | .ok v => .ok (row.path, ⟨b, some v⟩)
        | .error cause => .error (.badValue cause row.path) := by
  simp only [fact, habsolute, hflag.flag_eq]
  rfl

theorem fact_of_states {fact : Fact} (h : row.IsAcceptable) (hstates : row.States fact) :
    row.fact = .ok (row.path, fact) := by
  cases hstates with
  | unknown blank =>
    obtain ⟨b, hb⟩ := h.flag
    simp only [fact_of_flag h.absolute hb, blank]
  | known written writes hflag =>
    simp only [fact_of_flag h.absolute hflag, written, writes.value_eq]

theorem IsRefusedFor.fact_eq {cause : RowError} (h : row.IsRefusedFor cause) :
    row.fact = .error cause := by
  cases h with
  | relativePath relative =>
    rw [fact, if_pos relative]
    rfl
  | badFlag absolute written refused =>
    simp only [fact, absolute, flag_of_refused written refused]
    rfl
  | badValue absolute flag written refused =>
    obtain ⟨b, hb⟩ := flag
    simp only [fact_of_flag absolute hb, written, refused.value_eq]

/-- An entry is what a row that can be taken states. -/
def Gives (row : Row) (entry : String × Fact) : Prop :=
  row.path = entry.1 ∧ row.IsAcceptable ∧ row.States entry.2

theorem Gives.fact_eq {entry : String × Fact} (h : row.Gives entry) : row.fact = .ok entry := by
  obtain ⟨hpath, haccept, hstates⟩ := h
  rw [fact_of_states haccept hstates, hpath]

theorem gives_or_refused (row : Row) :
    (∃ entry, row.Gives entry) ∨ ∃ cause, row.IsRefusedFor cause := by
  rcases acceptable_or_refused row with haccept | hrefused
  · obtain ⟨fact, hstates⟩ := haccept.exists_states
    exact .inl ⟨(row.path, fact), rfl, haccept, hstates⟩
  · exact .inr hrefused

/-- **A row is taken iff it can be**, and then the fact that it states stands under its path. -/
theorem fact_eq_ok {entry : String × Fact} : row.fact = .ok entry ↔ row.Gives entry :=
  eq_ok_iff_of_total (fun _ => Gives.fact_eq) (fun _ => IsRefusedFor.fact_eq)
    (gives_or_refused row)

/-- **A row is refused for the first reason there is.** -/
theorem fact_eq_error {cause : RowError} : row.fact = .error cause ↔ row.IsRefusedFor cause :=
  eq_error_iff_of_total (fun _ => Gives.fact_eq) (fun _ => IsRefusedFor.fact_eq)
    (gives_or_refused row)

end Row

end Export

end Interview

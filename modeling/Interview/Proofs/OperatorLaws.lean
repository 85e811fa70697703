import Interview.Condition.Basic
import Interview.Proofs.ExportStores

/-!
# Operators that ask for two things

`isTrueAndComplete` and `isFalseAndComplete` ask for a truth value and for completeness at once;
`isTrueOrIncomplete` and `isFalseOrIncomplete` ask for either a truth value or incompleteness. One
expects each to hold iff its two parts do, or one of them does. About `true` this is so for every
fact. About `false` it is so unless the fact is complete without a value
(`Operator.agree_false_iff`): such a fact is neither true nor false, but once it is complete the
operators for `false` ask for no more than that it is not true.

No export leads to such a fact. A document of facts does, wherever it is written: the field
`complete` says `true`, and the field `value` is absent or `null`.
-/

namespace Interview

variable {fact : Fact} {store : Store} {path concrete : String} {item : Option String}

/-! ## One fact -/

namespace Operator

/-- Two operators for a truth value follow from the plain one: the first holds iff the plain one and
`isComplete` hold, the second iff the plain one or `isIncomplete` holds. -/
structure Agree (holds : Operator → Prop) (plain andComplete orIncomplete : Operator) : Prop where
  both : holds andComplete ↔ holds plain ∧ holds .isComplete
  either : holds orIncomplete ↔ holds .isIncomplete ∨ holds plain

/-- The operators for `true` agree on every fact. -/
theorem agree_true (fact : Fact) :
    Agree (apply · fact = true) .isTrue .isTrueAndComplete .isTrueOrIncomplete := by
  obtain ⟨complete, value⟩ := fact
  cases complete with
  | true => cases value <;> constructor <;> simp [apply, Fact.hasValue, Fact.isTruthy]
  | false => constructor <;> simp [apply]

/-- The operators for `false` agree on a fact unless it is complete without a value. -/
theorem agree_false_iff (fact : Fact) :
    Agree (apply · fact = true) .isFalse .isFalseAndComplete .isFalseOrIncomplete ↔
      fact ≠ ⟨true, none⟩ := by
  obtain ⟨complete, value⟩ := fact
  cases complete with
  | false =>
    refine iff_of_true ⟨?_, ?_⟩ (by simp)
    · simp [apply]
    · simp [apply]
  | true =>
    cases value with
    | none =>
      refine iff_of_false (fun h => ?_) (by simp)
      simpa [apply, Fact.hasValue, Fact.isTruthy] using h.both
    | some v =>
      refine iff_of_true ⟨?_, ?_⟩ (by simp)
      · simp [apply, Fact.hasValue]
      · simp [apply, Fact.hasValue]

end Operator

/-! ## Conditions -/

/-- The condition with an operator on the fact at a path holds, in the context of an item. -/
def Store.Meets (store : Store) (ctx : Context) (path : String) (item : Option String)
    (op : Operator) : Prop :=
  ((Condition.fact path op).holds ctx item).run store.facts = true

theorem Store.meets_eq (ctx : Context) (h : Path.resolve path item = some concrete) :
    store.Meets ctx path item = fun op => op.apply (store.facts concrete) = true := by
  funext op
  simp [Meets, Condition.holds, Condition.factHolds, h]

theorem Store.facts_eq_bareComplete_iff : store.facts path = ⟨true, none⟩ ↔
    store.get? path = some ⟨true, none⟩ := by
  unfold Store.facts
  cases store.get? path <;> simp [Fact.unknown]

/-- The operators for `true` agree about every fact. -/
theorem Store.agree_true (ctx : Context) (h : Path.resolve path item = some concrete) :
    Operator.Agree (store.Meets ctx path item) .isTrue .isTrueAndComplete .isTrueOrIncomplete := by
  rw [Store.meets_eq ctx h]
  exact Operator.agree_true _

/-- The operators for `false` agree about a fact unless it is complete without a value. -/
theorem Store.agree_false_iff (ctx : Context) (h : Path.resolve path item = some concrete) :
    Operator.Agree (store.Meets ctx path item) .isFalse .isFalseAndComplete .isFalseOrIncomplete ↔
      store.get? concrete ≠ some ⟨true, none⟩ := by
  rw [Store.meets_eq ctx h, Operator.agree_false_iff, ne_eq, Store.facts_eq_bareComplete_iff]

/-- What is complete without a value counts as false for the operators that ask for two things, and
only for them. -/
theorem Store.meets_bareComplete (ctx : Context) (h : Path.resolve path item = some concrete)
    (hbare : store.get? concrete = some ⟨true, none⟩) :
    store.Meets ctx path item .isFalseAndComplete ∧
    store.Meets ctx path item .isFalseOrIncomplete ∧
    ¬ store.Meets ctx path item .isFalse ∧ ¬ store.Meets ctx path item .isIncomplete := by
  rw [Store.meets_eq ctx h, Store.facts_eq_bareComplete_iff.mpr hbare]
  decide

/-! ## Documents of facts -/

namespace Json

/-- A document has a value under a path, the last one if there are several. -/
def HasLast (document : Json) (path : String) (written : Json) : Prop :=
  ∃ before after, document = .object (before ++ (path, written) :: after) ∧
    path ∉ after.map Prod.fst

/-- A fact is written as complete, and without a value. -/
def IsBareComplete (written : Json) : Prop :=
  ∃ fields, written = .object fields ∧ ("complete", .bool true) ∈ fields ∧
    ∀ j, ("value", j) ∈ fields → j = .null

end Json

namespace Fact

/-- Decodes an entry of a document of facts. -/
def entryOfJson (field : String × Json) : Json.Decoded (String × Fact) := do
  return (field.1, ← Fact.ofJson field.2)

theorem entryOfJson_eq_ok {field : String × Json} {entry : String × Fact} :
    entryOfJson field = .ok entry ↔ entry.1 = field.1 ∧ Fact.ofJson field.2 = .ok entry.2 := by
  rw [entryOfJson, bind_eq_ok]
  constructor
  · rintro ⟨fact, hfact, h⟩
    obtain rfl := pure_eq_ok.mp h
    exact ⟨rfl, hfact⟩
  · rintro ⟨hpath, hfact⟩
    exact ⟨entry.2, hfact, pure_eq_ok.mpr (Prod.ext hpath rfl)⟩

/-- A fact is decoded as complete and without a value iff it is written so. -/
theorem eq_bareComplete_iff {j : Json} (h : Fact.ofJson j = .ok fact) :
    fact = ⟨true, none⟩ ↔ j.IsBareComplete := by
  obtain ⟨fields, hfields, hread⟩ := bind_eq_ok.mp h
  obtain rfl := Json.fields_eq_ok.mp hfields
  obtain ⟨complete, hcomplete, hread⟩ := bind_eq_ok.mp hread
  obtain ⟨value, hvalue, hread⟩ := bind_eq_ok.mp hread
  obtain rfl := pure_eq_ok.mp hread
  obtain ⟨flag, hflag, hbool⟩ := Json.written_of_required hcomplete
  obtain rfl := Json.toBool_eq_ok.mp hbool
  have htrue : complete = true ↔ ("complete", .bool true) ∈ fields := by
    rw [hflag]
    simp [eq_comm]
  have hnone : value = none ↔ ∀ j, ("value", j) ∈ fields → j = .null := by
    rcases Json.written_of_optional hvalue with ⟨rfl, habsent⟩ | ⟨v, hv, hoption⟩
    · exact iff_of_true rfl fun j hj => absurd hj (habsent j)
    · have hnull : Json.toOption FactValue.ofJson v = .ok none ↔ v = .null :=
        Json.toOption_eq_none
      simp only [hv, forall_eq]
      rw [← hnull, hoption, Except.ok.injEq]
  rw [Fact.mk.injEq, htrue, hnone]
  constructor
  · rintro ⟨hcomplete, hvalue⟩
    exact ⟨fields, rfl, hcomplete, hvalue⟩
  · rintro ⟨fields', heq, hcomplete, hvalue⟩
    obtain rfl := Json.object.inj heq
    exact ⟨hcomplete, hvalue⟩

end Fact

/-- A document of facts leads to a complete fact without a value where it has one. -/
theorem Store.get?_eq_bareComplete_iff {j : Json} (h : Store.ofJson j = .ok store) :
    store.get? path = some ⟨true, none⟩ ↔
      ∃ written, j.HasLast path written ∧ written.IsBareComplete := by
  obtain ⟨fields, hfields, hread⟩ := bind_eq_ok.mp h
  obtain rfl := Json.fields_eq_ok.mp hfields
  obtain ⟨entries, hentries, hread⟩ := bind_eq_ok.mp hread
  obtain rfl := pure_eq_ok.mp hread
  have hpath (field : String × Json) (entry : String × Fact)
      (hentry : Fact.entryOfJson field = .ok entry) : entry.1 = field.1 :=
    (Fact.entryOfJson_eq_ok.mp hentry).1
  constructor
  · intro hget
    obtain ⟨before, ⟨name, written⟩, after, rfl, hafter, hentry⟩ :=
      (get?_ofList_of_mapM hpath hentries).mp hget
    obtain ⟨hname, hfact⟩ := Fact.entryOfJson_eq_ok.mp hentry
    obtain rfl : path = name := hname
    exact ⟨written, ⟨before, after, rfl, hafter⟩, (Fact.eq_bareComplete_iff hfact).mp rfl⟩
  · rintro ⟨written, ⟨before, after, heq, hafter⟩, hbare⟩
    obtain ⟨fact, hentry, hget⟩ :=
      exists_get?_ofList_of_last hpath hentries (Json.object.inj heq) rfl hafter
    obtain ⟨-, hfact⟩ := Fact.entryOfJson_eq_ok.mp hentry
    obtain rfl := (Fact.eq_bareComplete_iff hfact).mpr hbare
    exact hget

/-! ## Loaded stores -/

/-- The facts of an export have a value if they are complete. -/
theorem Export.get?_ne_bareComplete {bytes : List UInt8} (h : Export.load bytes = .ok store) :
    store.get? path ≠ some ⟨true, none⟩ := by
  obtain ⟨rs, hrows⟩ := Export.exists_rows_of_load h
  obtain ⟨entries, hfacts, rfl⟩ := (Export.load_eq_ok hrows).mp h
  intro hget
  cases ((Export.reflects_ofList hfacts).sound path _ hget).valued rfl

/-- **Operators that ask for two things agree with those that ask for one**, under every store that
has been loaded and about every path that leads to a fact, with one exception: where a document of
facts has, for that path, a complete fact without a value, the operators for `false` that ask for
two things hold, although the fact is neither false nor incomplete. -/
theorem operators_agree (ctx : Context) (h : Path.resolve path item = some concrete) :
    (∀ bytes, Export.load bytes = .ok store →
      Operator.Agree (store.Meets ctx path item) .isTrue .isTrueAndComplete .isTrueOrIncomplete ∧
      Operator.Agree (store.Meets ctx path item) .isFalse .isFalseAndComplete
        .isFalseOrIncomplete) ∧
    (∀ j, Store.ofJson j = .ok store →
      Operator.Agree (store.Meets ctx path item) .isTrue .isTrueAndComplete .isTrueOrIncomplete ∧
      ((¬ ∃ written, j.HasLast concrete written ∧ written.IsBareComplete) →
        Operator.Agree (store.Meets ctx path item) .isFalse .isFalseAndComplete
          .isFalseOrIncomplete) ∧
      ((∃ written, j.HasLast concrete written ∧ written.IsBareComplete) →
        store.Meets ctx path item .isFalseAndComplete ∧
        store.Meets ctx path item .isFalseOrIncomplete ∧
        ¬ store.Meets ctx path item .isFalse ∧ ¬ store.Meets ctx path item .isIncomplete)) := by
  have htrue := store.agree_true ctx h
  refine ⟨fun bytes hload => ⟨htrue, ?_⟩, fun j hj => ⟨htrue, fun hnone => ?_, fun hbare => ?_⟩⟩
  · exact (store.agree_false_iff ctx h).mpr (Export.get?_ne_bareComplete hload)
  · exact (store.agree_false_iff ctx h).mpr (mt (Store.get?_eq_bareComplete_iff hj).mp hnone)
  · exact Store.meets_bareComplete ctx h ((Store.get?_eq_bareComplete_iff hj).mpr hbare)

namespace Household

/-- A document of facts in which something about ann is complete, but has no value. -/
def bareDocument : Json :=
  .object [("/people/#ann/isNew", .object [("complete", .bool true)])]

/-- The facts of the document. -/
def bareStore : Store :=
  Table.ofList [("/people/#ann/isNew", ⟨true, none⟩)]

end Household

open Household in
/-- The operators agree about the estimate of the export, but for `false` they do not about what is
complete without a value. -/
theorem operators_agree_household :
    (∃ store, Export.load factExport = .ok store ∧
      Operator.Agree (store.Meets default "/estimate" none) .isFalse .isFalseAndComplete
        .isFalseOrIncomplete) ∧
    Store.ofJson bareDocument = .ok bareStore ∧
    Operator.Agree (bareStore.Meets default "/people/*/isNew" (some "ann")) .isTrue
      .isTrueAndComplete .isTrueOrIncomplete ∧
    bareStore.Meets default "/people/*/isNew" (some "ann") .isFalseAndComplete ∧
    ¬ bareStore.Meets default "/people/*/isNew" (some "ann") .isFalse := by
  have hestimate : Path.resolve "/estimate" none = some "/estimate" := by decide
  have hann : Path.resolve "/people/*/isNew" (some "ann") = some "/people/#ann/isNew" := by
    decide
  obtain ⟨store, hload⟩ := (Export.exists_load_iff rows_factExport).mpr isAcceptable_factRows
  have hjson : Store.ofJson bareDocument = .ok bareStore := rfl
  have hbare : ∃ written, bareDocument.HasLast "/people/#ann/isNew" written ∧
      written.IsBareComplete :=
    ⟨_, ⟨[], [], rfl, by simp⟩, _, rfl, List.mem_cons_self, by simp⟩
  obtain ⟨htrue, -, hfalse⟩ := (operators_agree default hann).2 bareDocument hjson
  obtain ⟨hboth, -, hplain, -⟩ := hfalse hbare
  exact ⟨⟨store, hload, ((operators_agree default hestimate).1 _ hload).2⟩, hjson, htrue, hboth,
    hplain⟩

open Household in
/-- Not all operators agree under every store that a document of facts leads to: a fact that is
complete without a value is not false, but false and complete. -/
theorem not_every_operator_agrees :
    ¬ ∀ (ctx : Context) (j : Json) (store : Store) (path concrete : String) (item : Option String),
      Store.ofJson j = .ok store → Path.resolve path item = some concrete →
      Operator.Agree (store.Meets ctx path item) .isTrue .isTrueAndComplete .isTrueOrIncomplete ∧
      Operator.Agree (store.Meets ctx path item) .isFalse .isFalseAndComplete
        .isFalseOrIncomplete := by
  intro h
  have hpath : Path.resolve "/people/#ann/isNew" none = some "/people/#ann/isNew" := by decide
  obtain ⟨-, hfalse⟩ := h default bareDocument bareStore _ _ _ rfl hpath
  exact (bareStore.agree_false_iff default hpath).mp hfalse rfl

end Interview

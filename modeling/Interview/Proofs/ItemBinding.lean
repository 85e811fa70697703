import Interview.Condition.Basic

/-!
# Conditions and items

A condition that holds without an item holds for every item (`Condition.holds_of_none`). A path
without a place for an item leads to the same fact in either case, and a demand on a path with such
a place is false without an item; the demands that are negated or that may be met by missing facts
are all on paths of the first kind.
-/

namespace Interview

variable {ctx : Context} {facts : String → Fact} {path : String}

/-- A path that leads to a fact without an item leads to the same one for every item. -/
theorem Path.resolve_of_none {concrete : String} (h : Path.resolve path none = some concrete)
    (item : Option String) : Path.resolve path item = some concrete := by
  cases habstract : Path.isAbstract path with
  | true =>
    rw [Path.resolve, if_pos habstract] at h
    cases h
  | false =>
    rw [Path.resolve_of_not_isAbstract habstract] at h
    rw [Path.resolve_of_not_isAbstract habstract, h]

/-- What is found without an item is found for every item. -/
theorem Reading.any_lookup_of_none {p : Fact → Bool}
    (h : ((Reading.lookup path none).run facts).any p = true) (item : Option String) :
    ((Reading.lookup path item).run facts).any p = true := by
  rw [Reading.run_lookup] at h ⊢
  cases hnone : Path.resolve path none with
  | none =>
    rw [hnone] at h
    cases h
  | some concrete =>
    rw [hnone] at h
    rw [Path.resolve_of_none hnone item]
    exact h

/-- A path without a place for an item is looked up in the same way for every item. -/
theorem Reading.run_lookup_of_not_isAbstract (h : Path.isAbstract path = false)
    (item : Option String) :
    (Reading.lookup path item).run facts = (Reading.lookup path none).run facts := by
  rw [Reading.run_lookup, Reading.run_lookup, Path.resolve_of_not_isAbstract h,
    Path.resolve_of_not_isAbstract h]

namespace Condition

/-- **A condition that holds without an item holds for every item.** -/
theorem holds_of_none {c : Condition} (h : (c.holds ctx none).run facts = true)
    (item : Option String) : (c.holds ctx item).run facts = true := by
  cases c with
  | fact path op =>
    simp only [holds, factHolds, Reading.run_bind, Reading.run_pure] at h ⊢
    exact Reading.any_lookup_of_none h item
  | experimental => exact h
  | nothingBlocksSubmission =>
    simp only [holds, isFalse, Reading.run_allM, Reading.run_bind, Reading.run_pure,
      List.all_eq_true] at h ⊢
    intro path hpath
    exact Reading.any_lookup_of_none (h path hpath) item
  | signingPath op =>
    -- the demand is negated, but its path has no place for an item
    have hpath : Path.isAbstract olderSigningFact = false := by decide
    simp only [holds, factHolds, Reading.run_ite, Reading.run_bind, Reading.run_pure] at h ⊢
    rw [Reading.run_lookup_of_not_isAbstract hpath item]
    exact h
  | imported question op =>
    have hpath : Path.isAbstract resubmittingFact = false := by decide
    simp only [holds, Reading.run_bind, Reading.run_pure] at h ⊢
    rw [Reading.run_lookup_of_not_isAbstract hpath item]
    exact h

/-- Conditions that all hold without an item all hold for every item. -/
theorem allHold_of_none {conditions : List Condition}
    (h : (allHold ctx none conditions).run facts = true) (item : Option String) :
    (allHold ctx item conditions).run facts = true := by
  simp only [allHold, Reading.run_allM, List.all_eq_true] at h ⊢
  intro c hc
  exact holds_of_none (h c hc) item

/-! ## Conditions that look at no item -/

/-- A condition looks at no facts of an item. -/
def IsItemFree (ctx : Context) : Condition → Prop
  | fact path _ => Path.isAbstract path = false
  | nothingBlocksSubmission =>
    ∀ path ∈ ctx.settings.submissionBlockingFacts, Path.isAbstract path = false
  | experimental | signingPath _ | imported _ _ => True

/-- For such a condition, the item makes no difference. -/
theorem holds_of_isItemFree {c : Condition} (h : c.IsItemFree ctx) (item : Option String) :
    (c.holds ctx item).run facts = (c.holds ctx none).run facts := by
  cases c with
  | fact path op =>
    simp only [holds, factHolds, Reading.run_bind, Reading.run_pure]
    rw [Reading.run_lookup_of_not_isAbstract h item]
  | experimental => rfl
  | nothingBlocksSubmission =>
    simp only [holds, isFalse, Reading.run_allM, Reading.run_bind, Reading.run_pure]
    rw [Bool.eq_iff_iff, List.all_eq_true, List.all_eq_true]
    refine forall₂_congr fun path hpath => ?_
    rw [Reading.run_lookup_of_not_isAbstract (h path hpath) item]
  | signingPath op =>
    have hpath : Path.isAbstract olderSigningFact = false := by decide
    simp only [holds, factHolds, Reading.run_ite, Reading.run_bind, Reading.run_pure]
    rw [Reading.run_lookup_of_not_isAbstract hpath item]
  | imported question op =>
    have hpath : Path.isAbstract resubmittingFact = false := by decide
    simp only [holds, Reading.run_bind, Reading.run_pure]
    rw [Reading.run_lookup_of_not_isAbstract hpath item]

theorem allHold_of_isItemFree {conditions : List Condition}
    (h : ∀ c ∈ conditions, c.IsItemFree ctx) (item : Option String) :
    (allHold ctx item conditions).run facts = (allHold ctx none conditions).run facts := by
  simp only [allHold, Reading.run_allM]
  rw [Bool.eq_iff_iff, List.all_eq_true, List.all_eq_true]
  refine forall₂_congr fun c hc => ?_
  rw [holds_of_isItemFree (h c hc) item]

end Condition

end Interview

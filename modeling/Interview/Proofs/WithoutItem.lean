import Interview.Proofs.AlertLinks

/-!
# What holds without an item

The parts of an interview are looked at for an item, or without one where there is none to look at
them for. What is found to hold without an item holds for every item: a condition does, and so does
all that depends on conditions only by asking whether they all hold, such as whether a screen can be
shown, an alert is raised, or an assertion is made. An item can make more of this hold, but only
through a path with a place for it.
-/

namespace Interview

variable {ctx : Context} {facts : String → Fact}

/-! ## Screens -/

namespace Screen

variable {x : Screen} {kind : AlertKind} {key code : String} {paths : List String}

/-- A screen that can be shown without an item can be shown for every item. -/
theorem availableAt_of_none (h : x.availableAt ctx facts none = true) (item : String) :
    x.availableAt ctx facts (some item) = true := by
  simp only [availableAt, isAvailable, Reading.run_bind, Reading.run_ite] at h ⊢
  split at h
  · cases h
  · next hidle =>
    -- whether the loop has anything to go through does not depend on the item
    rw [if_neg hidle]
    exact Condition.allHold_of_none h (some item)

/-- An alert that holds without an item is raised for every item. -/
theorem mem_taxReturnAlerts_of_none {e : Element} (he : e ∈ x.content)
    (hcontent : e.content = .taxReturnAlert kind key paths)
    (hholds : (Condition.allHold ctx none e.conditions).run facts = true) (item : String) :
    x.alert (some item) (some item) kind key paths none ∈
      (x.taxReturnAlerts ctx (some item)).run facts := by
  have hraised : (raisedFor ctx (some item) (x.loopItems.run facts) e.conditions).run facts =
      some (some item) :=
    run_raisedFor_some.mpr ⟨Condition.allHold_of_none hholds (some item), rfl⟩
  exact mem_taxReturnAlerts.mpr ⟨e, he, kind, key, paths, hcontent, some item, hraised, rfl⟩

/-- So is an alert about a rejected return. -/
theorem mem_rejectionAlerts_of_none {sub : Submission} {e : Element} (he : e ∈ x.content)
    (hcontent : e.content = .rejectionAlert kind key code paths) (hcode : sub.hasCode code = true)
    (hholds : (Condition.allHold ctx none e.conditions).run facts = true) (item : String) :
    x.alert (some item) (some item) kind key paths (some code) ∈
      (x.rejectionAlerts ctx sub (some item)).run facts :=
  mem_rejectionAlerts.mpr ⟨e, he, kind, key, code, paths, hcontent, hcode,
    Condition.allHold_of_none hholds (some item), rfl⟩

end Screen

/-! ## Subcategories -/

/-- The assertions that are made without an item are made for every item, in the same order. -/
theorem Flow.activeAssertions_sublist (f : Flow) (s : Subcategory) (item : String) :
    ((f.activeAssertions ctx s none).run facts).Sublist
      ((f.activeAssertions ctx s (some item)).run facts) := by
  simp only [activeAssertions, Reading.run_filterM]
  refine List.monotone_filter_right _ fun assertion hholds => ?_
  exact Condition.allHold_of_none hholds (some item)

/-! ## All together -/

/-- **What holds without an item holds for every item**: a condition of any kind, all conditions of a
list, whether a screen can be shown, an alert of either kind, and an assertion. For a condition that
names no path with a place for an item, itself or through the settings, the item makes no difference
at all. -/
theorem holds_for_every_item (ctx : Context) (facts : String → Fact) (item : String) :
    (∀ c : Condition, (c.holds ctx none).run facts = true →
      (c.holds ctx (some item)).run facts = true) ∧
    (∀ cs, (Condition.allHold ctx none cs).run facts = true →
      (Condition.allHold ctx (some item) cs).run facts = true) ∧
    (∀ x : Screen, x.availableAt ctx facts none = true →
      x.availableAt ctx facts (some item) = true) ∧
    (∀ x : Screen, ∀ e ∈ x.content, ∀ kind key paths,
      e.content = .taxReturnAlert kind key paths →
      (Condition.allHold ctx none e.conditions).run facts = true →
      x.alert (some item) (some item) kind key paths none ∈
        (x.taxReturnAlerts ctx (some item)).run facts) ∧
    (∀ x : Screen, ∀ e ∈ x.content, ∀ kind key code paths,
      e.content = .rejectionAlert kind key code paths →
      (Condition.allHold ctx none e.conditions).run facts = true →
      ∀ sub : Submission, sub.hasCode code = true →
        x.alert (some item) (some item) kind key paths (some code) ∈
          (x.rejectionAlerts ctx sub (some item)).run facts) ∧
    (∀ (f : Flow) s, ((f.activeAssertions ctx s none).run facts).Sublist
      ((f.activeAssertions ctx s (some item)).run facts)) ∧
    ∀ c : Condition, c.IsItemFree ctx →
      (c.holds ctx (some item)).run facts = (c.holds ctx none).run facts := by
  refine ⟨fun c h => Condition.holds_of_none h (some item),
    fun cs h => Condition.allHold_of_none h (some item),
    fun x h => Screen.availableAt_of_none h item, ?_, ?_,
    fun f s => f.activeAssertions_sublist s item,
    fun c h => Condition.holds_of_isItemFree h (some item)⟩
  · intro x e he kind key paths hcontent hholds
    exact Screen.mem_taxReturnAlerts_of_none he hcontent hholds item
  · intro x e he kind key code paths hcontent hholds sub hcode
    exact Screen.mem_rejectionAlerts_of_none he hcontent hcode hholds item

namespace Household

/-- A deployment with electronic signing and a fact that blocks the submission. -/
def signing : Context :=
  ⟨.notLoaded, { Settings.default with
    electronicSigning := true, submissionBlockingFacts := ["/isBlocked"] }⟩

/-- The page of a pet, with a warning on it. -/
def petWarning : Screen :=
  { screen 6 with content := [⟨.taxReturnAlert .warning "pet" [], [.signingPath .isTrue], []⟩] }

end Household

open Household in
/-- Nobody signs on the older path, so the signing path is taken, the page of a pet is shown and its
warning is raised, without an item and for the cat. What blocks the submission is the same for the
cat. But whether somebody is new can only be told of an item. -/
theorem holds_for_every_item_household :
    let now := Household.facts ["/people/#bob/isNew"]
    ((Condition.signingPath .isTrue).holds signing none).run now = true ∧
    ((Condition.signingPath .isTrue).holds signing (some "cat")).run now = true ∧
    petWarning.availableAt signing now none = true ∧
    petWarning.availableAt signing now (some "cat") = true ∧
    petWarning.alert (some "cat") (some "cat") .warning "pet" [] none ∈
      (petWarning.taxReturnAlerts signing (some "cat")).run now ∧
    Condition.nothingBlocksSubmission.IsItemFree signing ∧
    (Condition.nothingBlocksSubmission.holds signing (some "cat")).run now =
      (Condition.nothingBlocksSubmission.holds signing none).run now ∧
    ((Condition.fact "/people/*/isNew" .isTrue).holds signing none).run now = false ∧
    ((Condition.fact "/people/*/isNew" .isTrue).holds signing (some "bob")).run now = true := by
  intro now
  obtain ⟨hcondition, -, hscreen, halert, -, -, hfree⟩ := holds_for_every_item signing now "cat"
  have hnone : ((Condition.signingPath .isTrue).holds signing none).run now = true := rfl
  have hshown : petWarning.availableAt signing now none = true := rfl
  have hitemFree : Condition.nothingBlocksSubmission.IsItemFree signing := by
    show ∀ path ∈ ["/isBlocked"], Path.isAbstract path = false
    decide
  exact ⟨hnone, hcondition _ hnone, hshown, hscreen _ hshown,
    halert petWarning _ List.mem_cons_self .warning "pet" [] rfl rfl, hitemFree,
    hfree _ hitemFree, rfl, rfl⟩

end Interview

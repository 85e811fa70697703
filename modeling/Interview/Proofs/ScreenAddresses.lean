import Interview.Proofs.Arrangement
import Interview.Proofs.QueryText
import Interview.Screen.Availability

/-!
# What addresses tell

The address of a screen tells for which item the screen is shown and whether for review, with two
exceptions (`address_tells_context`). A screen that is found at the summary of its topic has one
address for all items, and that address has no parameters: what the screen is shown for is lost,
although the summary itself could be given parameters like any other page. And as the mark of review
is a parameter like that of an item, a collection by the name of the mark has an item that is
mistaken for it.
-/

namespace Interview

namespace Route

variable {collection : String} {i j : Option String} {r q : Bool}

/-- Shown for the item `i`, a screen has the parameter that is the mark of review when it is shown
for the item `j`. The parameter of an item is the mark if the collection has its name, and the item
its value. -/
structure ReadsAsReview (collection : String) (i : Option String) (r : Bool) (j : Option String)
    (q : Bool) : Prop where
  collection : collection = "reviewMode"
  item : i = some "true" ∧ r = false
  review : j = none ∧ q = true

theorem ReadsAsReview.parameters_eq (h : ReadsAsReview collection i r j q) :
    parameters (some collection) i r = parameters (some collection) j q := by
  obtain ⟨rfl, ⟨rfl, rfl⟩, rfl, rfl⟩ := h
  rfl

theorem parameters_eq_nil_iff :
    parameters (some collection) i r = [] ↔ i = none ∧ r = false := by
  cases i <;> cases r <;> simp [parameters]

/-- A parameter for an item is the mark of review iff the item reads like it. -/
theorem parameters_some_eq_none {x : String} :
    parameters (some collection) (some x) r = parameters (some collection) none q ↔
      ReadsAsReview collection (some x) r none q := by
  refine ⟨fun h => ?_, ReadsAsReview.parameters_eq⟩
  have hone : collection = "reviewMode" ∧ x = "true" ∧ r = false ∧ q = true := by
    revert h
    cases r <;> cases q <;> simp [parameters]
  obtain ⟨hcollection, rfl, hr, hq⟩ := hone
  exact ⟨hcollection, ⟨rfl, hr⟩, rfl, hq⟩

/-- The parameters tell the item and whether there is a mark of review, but for an item that reads
like the mark. -/
theorem parameters_eq_iff :
    parameters (some collection) i r = parameters (some collection) j q ↔
      i = j ∧ r = q ∨ ReadsAsReview collection i r j q ∨ ReadsAsReview collection j q i r := by
  constructor
  · intro h
    cases i with
    | none =>
      cases j with
      | none =>
        refine .inl ⟨rfl, ?_⟩
        revert h
        cases r <;> cases q <;> simp [parameters]
      | some y => exact .inr (.inr (parameters_some_eq_none.mp h.symm))
    | some x =>
      cases j with
      | none => exact .inr (.inl (parameters_some_eq_none.mp h))
      | some y =>
        left
        revert h
        cases r <;> cases q <;> simp [parameters]
  · rintro (⟨rfl, rfl⟩ | h | h)
    · rfl
    · exact h.parameters_eq
    · exact h.parameters_eq.symm

end Route

namespace Screen

open Route

variable {s : Screen} {collection topicRoute : String} {i : Option String} {r : Bool}

/-- Whether the screen is found at the summary of its topic. -/
def IsAtSummary (s : Screen) : Prop :=
  s.overridesRoute = true ∧ s.topicRoute.isSome = true

/-- Where the screen is found, whatever it is shown for. -/
def pageRoute (s : Screen) : String :=
  match s.overridesRoute, s.topicRoute with
  | true, some topicRoute => "/data-view" ++ topicRoute
  | _, _ => s.fullRoute

theorem address_of_isAtSummary (h : s.IsAtSummary) (i : Option String) (r : Bool) :
    s.address i r = s.pageRoute := by
  obtain ⟨hoverrides, htopic⟩ := h
  obtain ⟨topicRoute, htopic⟩ := Option.isSome_iff_exists.mp htopic
  simp [address, pageRoute, hoverrides, htopic]

theorem address_of_not_isAtSummary (h : ¬ s.IsAtSummary) (i : Option String) (r : Bool) :
    s.address i r = withQuery s.pageRoute (parameters s.collection i r) := by
  cases hoverrides : s.overridesRoute with
  | false => simp [address, pageRoute, hoverrides]
  | true =>
    cases htopic : s.topicRoute with
    | none => simp [address, pageRoute, hoverrides, htopic]
    | some topicRoute => exact absurd ⟨hoverrides, by rw [htopic]; rfl⟩ h

/-- **What an address tells.** Shown for two items, with or without review, a screen of a collection
has one address iff the item and the review are the same, or it is found at the summary of its topic
both times, or the one item reads like the mark of review. An address has the parameters of what the
screen is shown for, unless the screen is found at a summary and there are any. -/
theorem address_tells_context (h : s.collection = some collection) :
    (∀ i r j q, s.address i r = s.address j q ↔ s.IsAtSummary ∨ i = j ∧ r = q ∨
      ReadsAsReview collection i r j q ∨ ReadsAsReview collection j q i r) ∧
    ∀ i r, s.address i r = withQuery s.pageRoute (parameters s.collection i r) ↔
      ¬ s.IsAtSummary ∨ i = none ∧ r = false := by
  by_cases hsummary : s.IsAtSummary
  · refine ⟨fun i r j q => ?_, fun i r => ?_⟩
    · simp [address_of_isAtSummary hsummary, hsummary]
    · rw [address_of_isAtSummary hsummary, eq_comm, withQuery_eq_self_iff, h,
        parameters_eq_nil_iff]
      simp [hsummary]
  · refine ⟨fun i r j q => ?_, fun i r => ?_⟩
    · rw [address_of_not_isAtSummary hsummary, address_of_not_isAtSummary hsummary, h,
        (withQuery_injective _).eq_iff, parameters_eq_iff]
      simp [hsummary]
    · exact iff_of_true (address_of_not_isAtSummary hsummary i r) (.inl hsummary)

end Screen

namespace Household

/-- People are asked for two names, of which the second is asked for at the summary of the names. -/
def surnameOutline : Outline :=
  ⟨.empty, [.category "you" [.subcategory ⟨"family", [], [], false, false, false, none⟩
    [.loop ⟨"people", some "/people", true, false, none, none, none⟩
      [.topic "names"
        [page "first" none true,
         .screen ⟨"last", none, some true, false, false, true,
          [⟨.heading "last", [], []⟩, ⟨.saveAndContinue, [], []⟩]⟩]]]]]⟩

/-- The flow of the outline. -/
def surnameFlow : Flow :=
  (Flow.build surnameOutline).toOption.getD (.empty .empty)

end Household

namespace Screen

open Route Household

/-- The address of the page for the first name tells Ann from Bob, that of the page for the last
name does not. -/
theorem address_tells_context_household :
    ∃ first last, surnameFlow.screens = [first, last] ∧
      first.address (some "ann") true ≠ first.address (some "bob") true ∧
      first.address none false = "/flow/you/family/first" ∧
      last.address (some "ann") true = last.address (some "bob") true ∧
      last.address (some "ann") true ≠
        withQuery last.pageRoute (parameters last.collection (some "ann") true) := by
  have hscreens : ∃ first last, surnameFlow.screens = [first, last] ∧
      first.collection = some "/people" ∧ ¬ first.IsAtSummary ∧
      first.pageRoute = "/flow/you/family/first" ∧
      last.collection = some "/people" ∧ last.IsAtSummary :=
    ⟨_, _, rfl, rfl, fun h => absurd h.1 (by decide), rfl, rfl, rfl, rfl⟩
  obtain ⟨first, last, heq, hfirst, hpage, hroute, hlast, hsummary⟩ := hscreens
  obtain ⟨htells, hparameters⟩ := address_tells_context hfirst
  obtain ⟨hmixes, hloses⟩ := address_tells_context hlast
  refine ⟨first, last, heq, ?_, ?_, (hmixes ..).mpr (.inl hsummary), ?_⟩
  · rw [ne_eq, htells]
    rintro (h | ⟨h, -⟩ | h | h)
    · exact hpage h
    · exact absurd h (by decide)
    · exact absurd h.collection (by decide)
    · exact absurd h.collection (by decide)
  · rw [(hparameters none false).mpr (.inr ⟨rfl, rfl⟩), hroute, hfirst]
    rfl
  · rw [ne_eq, hloses]
    rintro (h | ⟨h, -⟩)
    · exact h hsummary
    · cases h

/-- Not every address tells what its screen is shown for, and not every address has its parameters:
that of the page for the last name is the same for all people. -/
theorem not_every_address_tells_context :
    (¬ ∀ (o : Outline) (f : Flow), Flow.build o = .ok f → ∀ s ∈ f.screens, ∀ collection,
      s.collection = some collection → ∀ i r j q, (i, r) ≠ (j, q) →
        s.address i r ≠ s.address j q) ∧
    ¬ ∀ (o : Outline) (f : Flow), Flow.build o = .ok f → ∀ s ∈ f.screens, ∀ collection,
      s.collection = some collection → ∀ i r,
        s.address i r = withQuery s.pageRoute (parameters s.collection i r) := by
  have hbuild : Flow.build surnameOutline = .ok surnameFlow := rfl
  have hlast : ∃ last ∈ surnameFlow.screens, last.collection = some "/people" ∧
      last.pageRoute = "/data-view/flow/you/family/names" ∧ last.IsAtSummary :=
    ⟨_, .tail _ (.head _), rfl, rfl, rfl, rfl⟩
  obtain ⟨last, hmem, hcollection, hroute, hsummary⟩ := hlast
  constructor
  · intro hall
    refine hall _ _ hbuild last hmem _ hcollection (some "ann") false (some "bob") false
      (by decide) ?_
    rw [address_of_isAtSummary hsummary, address_of_isAtSummary hsummary]
  · intro hall
    have haddress := hall _ _ hbuild last hmem _ hcollection (some "ann") false
    rw [address_of_isAtSummary hsummary, eq_comm, withQuery_eq_self_iff, hcollection,
      parameters_eq_nil_iff] at haddress
    exact absurd haddress.1 (by decide)

end Screen

end Interview

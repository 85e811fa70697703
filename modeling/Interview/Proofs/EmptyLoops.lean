import Interview.Proofs.ResumePoints

/-!
# Loops without items

A loop that leads from item to item has nothing to go through if its collection is not known, not
complete, no collection at all, or empty. None of its screens can be shown then, whatever their
conditions are. The searches that pick a screen for the filer (the scan, the restart of a loop, the
resume points, the hub of a loop and the link of a row) take only screens that can be shown, one
`available_of_…` for each. So the filer does not come across the loop.
-/

namespace Interview

variable {f : Flow} {ctx : Context} {facts : String → Fact} {submission : Option Submission}

/-! ## Facts without items -/

/-- A fact that gives a loop no items to go through. -/
inductive Fact.LacksItems (fact : Fact) : Prop where
  | unknown (h : fact = .unknown)
  | incomplete (h : fact.complete = false)
  | noCollection (h : ∀ items, fact.value ≠ some (.collection items))
  | empty (h : fact.value = some (.collection []))

theorem Fact.items_eq_nil_iff {fact : Fact} : fact.items = [] ↔ fact.LacksItems := by
  obtain ⟨complete, value⟩ := fact
  constructor
  · intro h
    cases complete with
    | false => exact .incomplete rfl
    | true =>
      by_cases hcollection : ∃ items, value = some (.collection items)
      · obtain ⟨items, rfl⟩ := hcollection
        have hnil : items = [] := h
        exact .empty (by rw [hnil])
      · exact .noCollection fun items heq => hcollection ⟨items, heq⟩
  · intro h
    unfold Fact.items
    split
    · next items heq =>
      obtain ⟨rfl, rfl⟩ := Fact.mk.inj heq
      cases h with
      | unknown h => cases h
      | incomplete h => cases h
      | noCollection h => exact absurd rfl (h items)
      | empty h => exact FactValue.collection.inj (Option.some.inj h)
    · rfl

namespace Flow

/-! ## Searches -/

/-- A step leads to screens that can be shown. -/
theorem available_of_run_next (hf : f.Arranged) {s t : Screen} (hs : s ∈ f.screens)
    {item item' : Option String} {review : Bool}
    (h : (f.next ctx s item review).run facts = .ok ⟨.screen t, item'⟩) :
    t.availableAt ctx facts item' = true := by
  rcases run_next_eq_screen hf hs h with ⟨l, -, -, i', -, -, -, rfl, -, hfirst⟩ | ⟨xs, -, hscan⟩
  · exact List.find?_some hfirst
  · obtain ⟨-, -, -, -, hreached⟩ := run_scan_eq_some hscan
    exact (Bool.and_eq_true_iff.mp hreached).2

/-- A loop is summarised with a screen that can be shown for the item given with it. -/
theorem available_of_loopSummary {l : Loop} {p : ResumePoint}
    (h : ((f.loopSummary ctx l).run facts).resumeAt = some p) :
    p.screen.availableAt ctx facts p.item = true := by
  simp only [loopSummary, Reading.run_bind, Reading.run_pure] at h
  obtain ⟨⟨x, item⟩, hpoint, rfl⟩ := Option.map_eq_some_iff.mp h
  simp only [loopResumePoint, Reading.run_ite, Reading.run_bind, Reading.run_findSomeM?,
    Reading.run_pure] at hpoint
  split at hpoint
  · obtain ⟨item', -, hfirst⟩ := List.exists_of_findSome?_eq_some hpoint
    split at hfirst
    · cases hfirst
    · obtain ⟨y, hy, heq⟩ := Option.map_eq_some_iff.mp hfirst
      obtain ⟨rfl, rfl⟩ := Prod.mk.inj heq
      rw [run_firstScreen] at hy
      exact List.find?_some hy
  · cases hpoint

/-! ## The links of rows -/

/-- How the row of a subcategory comes by its link, and the screen that it links to, if any. -/
inductive LinksTo (f : Flow) (ctx : Context) (facts : String → Fact) (s : Subcategory) :
    Option String → Option Screen → Prop where
  | nowhere : LinksTo f ctx facts s none none
  /-- The summary of the subcategory. -/
  | summary : LinksTo f ctx facts s (some (Route.withQuery ("/data-view" ++ s.route)
      (Route.parameters s.collection (itemAt facts s) true))) none
  /-- The first screen that stands in for the summary and can be shown. -/
  | substitute {x : Screen} (hfirst : ((f.screensOf s).filter (·.actsAsDataView)).find?
      (·.availableAt ctx facts (itemAt facts s)) = some x) :
      LinksTo f ctx facts s (some (x.address (itemAt facts s) true)) (some x)
  /-- The first screen that can be shown. -/
  | first {x : Screen}
      (hfirst : (f.screensOf s).find? (·.availableAt ctx facts (itemAt facts s)) = some x) :
      LinksTo f ctx facts s (some (x.address (itemAt facts s) false)) (some x)

theorem exists_linksTo_rowAddress (s : Subcategory) (showSummary : Bool) :
    ∃ target, f.LinksTo ctx facts s
      ((f.rowAddress ctx s (itemAt facts s) showSummary).run facts) target := by
  unfold rowAddress
  rw [Reading.run_ite]
  split
  · simp only [summaryAddress, Reading.run_bind, Reading.run_findM?, run_isAvailable,
      Reading.run_pure]
    cases hfirst : ((f.screensOf s).filter (·.actsAsDataView)).find?
        (·.availableAt ctx facts (itemAt facts s)) with
    | none => exact ⟨none, .summary⟩
    | some x => exact ⟨some x, .substitute hfirst⟩
  · simp only [Reading.run_bind, Reading.run_findM?, run_isAvailable, Reading.run_pure]
    cases hfirst : (f.screensOf s).find? (·.availableAt ctx facts (itemAt facts s)) with
    | none => exact ⟨none, .nowhere⟩
    | some x => exact ⟨some x, .first hfirst⟩

theorem exists_linksTo_displayedRow (s : Subcategory) (state : ChecklistState) :
    ∃ target, f.LinksTo ctx facts s
      ((f.displayedRow ctx submission s (itemAt facts s) state).run facts).1.address target := by
  rw [(f.links_and_alerts_displayedRow ctx facts submission s state).1]
  split
  · exact exists_linksTo_rowAddress s _
  · exact ⟨none, .nowhere⟩

/-- A row links to a screen that can be shown for the item of its subcategory. -/
theorem LinksTo.available {s : Subcategory} {address : Option String} {x : Screen}
    (h : f.LinksTo ctx facts s address (some x)) :
    x.availableAt ctx facts (itemAt facts s) = true := by
  cases h with
  | substitute hfirst | first hfirst => exact List.find?_some hfirst

/-! ## The loop -/

/-- The filer does not come across a loop. -/
structure IsInvisible (f : Flow) (ctx : Context) (facts : String → Fact) (l : Loop) : Prop where
  /-- No step leads to it, from any screen, for any item, in review or not. -/
  next : ∀ s ∈ f.screens, ∀ item review a, (f.next ctx s item review).run facts = .ok a →
    ∀ x, a.screen? = some x → x ∉ f.screensOfLoop l
  /-- No subcategory is gone on with in it. -/
  resumeAt : ∀ s ∈ f.subcategories, ∀ p, ((f.progress ctx s).run facts).resumeAt = some p →
    p.screen ∉ f.screensOfLoop l
  /-- No loop is gone on with in it. -/
  loops : ∀ s ∈ f.subcategories, ∀ summary ∈ ((f.progress ctx s).run facts).loops,
    ∀ p, summary.resumeAt = some p → p.screen ∉ f.screensOfLoop l
  /-- No row of the checklist links to it. -/
  rows : ∀ submission, ∀ c ∈ (f.checklist ctx submission).run facts, ∀ row ∈ c.rows,
    ∃ s, f.subcategory? row.subcategoryRoute = some s ∧
      (∃ target, f.LinksTo ctx facts s row.address target) ∧
      ∀ x, f.LinksTo ctx facts s row.address (some x) → x ∉ f.screensOfLoop l

/-- **A loop without items is invisible**, if it is one that leads from item to item. -/
theorem isInvisible_of_lacksItems {o : Outline} (hbuild : build o = .ok f) {l : Loop}
    (hl : l ∈ f.loops) (hauto : l.autoIterates = true)
    (hlacks : (facts l.collection).LacksItems) : f.IsInvisible ctx facts l := by
  have hf := arranged_of_build hbuild
  -- what can be shown is no screen of the loop
  have hidden : ∀ x item, x.availableAt ctx facts item = true → x ∉ f.screensOfLoop l := by
    intro x item havail hx
    rw [availableAt_eq_false_of_items_nil ((hf.isAutoIterating_of_mem hl hx).trans hauto)
      (hf.of_mem_screensOfLoop hl hx).2.1 (Fact.items_eq_nil_iff.mpr hlacks)] at havail
    cases havail
  refine ⟨?_, ?_, ?_, ?_⟩
  · rintro s hs item review ⟨destination, item'⟩ hnext x hx
    cases destination with
    | screen t =>
      obtain rfl := Option.some.inj hx
      exact hidden t item' (available_of_run_next hf hs hnext)
    | checklist | dataView _ _ | loopDataView _ => cases hx
  · intro s _ p hp
    simp only [progress, Reading.run_bind, Reading.run_pure] at hp
    exact hidden _ _ (available_of_resumePoint hp)
  · intro s _ summary hsummary p hp
    simp only [progress, Reading.run_bind, Reading.run_mapM, Reading.run_pure] at hsummary
    obtain ⟨l', -, rfl⟩ := List.mem_map.mp hsummary
    exact hidden _ _ (available_of_loopSummary hp)
  · intro submission c hc row hrow
    obtain ⟨s, hs, state, rfl⟩ := exists_displayedRow_of_mem hc hrow
    have hmark := (f.run_displayedRow ctx facts submission s state).1
    have hroute := (ChecklistMark.mk.inj hmark).1
    refine ⟨s, ?_, exists_linksTo_displayedRow s state, fun x hx => hidden x _ hx.available⟩
    exact hroute ▸ hf.subcategory?_eq_some hs

/-- As long as the people are not complete, the household is not asked for them, and the first step
leads past them to the work. -/
theorem isInvisible_household :
    let facts := fun path => if path = "/people" then ⟨false, some (.collection ["ann", "bob"])⟩
      else Household.facts ["/people/#ann/isNew", "/people/#bob/isNew"] path
    (facts "/people").LacksItems ∧
    (Household.flow.next default (Household.screen 0) none false).run facts =
      .ok ⟨.screen (Household.screen 3), none⟩ ∧
    Household.flow.IsInvisible default facts Household.people := by
  intro facts
  have hlacks : (facts "/people").LacksItems := .incomplete rfl
  exact ⟨hlacks, rfl,
    isInvisible_of_lacksItems Household.build_outline (by decide) rfl hlacks⟩

end Flow

end Interview

import Interview.Proofs.HeldBackRows
import Interview.Proofs.ItemBinding
import Interview.Proofs.ResumePoints

/-!
# Which unfinished items hold back a section

A section that locks on unfinished items is held back, once it has been started, by an unfinished
item of an open loop. An item is unfinished as the facts stand about it, but a loop is open if one
of its screens can be shown for the item *of the section*. For every row that is reached with all
rows before it complete, `Flow.DecidesRow` says what follows: the section is held back by such a
loop, whatever its conditions for being complete are, and by nothing else.

The two items make no difference to a screen whose conditions look at no item
(`availableAt_of_isItemFree`). But a loop whose screens can only be shown for its own items is not
open in this sense. Its unfinished items hold back nothing, although the section is gone on with at
one of them.
-/

namespace Interview

variable {f : Flow} {ctx : Context} {facts : String → Fact} {submission : Option Submission}
  {s : Subcategory} {state : ChecklistState}

/-- Whether a screen can be shown does not depend on the item if its conditions look at none. -/
theorem availableAt_of_isItemFree {x : Screen} (h : ∀ c ∈ x.conditions, c.IsItemFree ctx)
    (item item' : Option String) :
    x.availableAt ctx facts item = x.availableAt ctx facts item' := by
  simp only [Screen.availableAt, Screen.isAvailable, Reading.run_bind, Reading.run_ite]
  rw [Condition.allHold_of_isItemFree h item, Condition.allHold_of_isItemFree h item']

namespace Flow

/-- A loop of a subcategory has a screen that can be shown for the item of the subcategory, and an
unfinished item. -/
def IsHeldBack (f : Flow) (ctx : Context) (facts : String → Fact) (s : Subcategory) : Prop :=
  ∃ l ∈ f.loopsOf s,
    (∃ x ∈ f.screensOfLoop l, x.availableAt ctx facts (itemAt facts s) = true) ∧
    ∃ m ∈ (facts l.collection).items, l.IsUnfinishedFor ctx facts m

/-- The marks on a row that is reached with all rows before it complete, if its subcategory locks on
unfinished items and has been started. -/
structure DecidesRow (f : Flow) (ctx : Context) (facts : String → Fact) (s : Subcategory)
    (row : ChecklistRow) : Prop where
  flag : row.hasUnfinishedItem = true ↔ f.IsHeldBack ctx facts s
  held : f.IsHeldBack ctx facts s → row.isComplete = false
  /-- Otherwise the conditions decide, for a subcategory that can be reached. -/
  released : ¬ f.IsHeldBack ctx facts s → (row.isComplete = true ↔
    f.isReachable ctx facts s = false ∨
      s.completeIf ≠ [] ∧ (Condition.allHold ctx (itemAt facts s) s.completeIf).run facts = true)
  /-- If a screen can be shown for an unfinished item, and its conditions look at no item, the
  section is held back. -/
  itemFree : ∀ l ∈ f.loopsOf s, ∀ m ∈ (facts l.collection).items,
    l.IsUnfinishedFor ctx facts m → ∀ x ∈ f.screensOfLoop l,
      x.availableAt ctx facts (some m) = true → (∀ c ∈ x.conditions, c.IsItemFree ctx) →
      row.isComplete = false

theorem isUnfinishedAt_iff : f.isUnfinishedAt ctx facts s = true ↔ f.IsHeldBack ctx facts s := by
  rw [isUnfinishedAt, List.any_eq_true]
  refine exists_congr fun l => and_congr_right fun _ => ?_
  rw [Bool.and_eq_true_iff, run_isOpen, Loop.run_hasUnfinishedItem]

/-! ## One row -/

theorem decidesRow_displayedRow (hf : f.Arranged) (hlocks : s.locksOnUnfinishedItems = true)
    (hstarted : f.startedAt ctx facts s = true) (hall : state.allComplete = true) :
    f.DecidesRow ctx facts s
      ((f.displayedRow ctx submission s (itemAt facts s) state).run facts).1 := by
  obtain ⟨hmark, -⟩ := f.run_displayedRow ctx facts submission s state
  obtain ⟨-, hitems⟩ := f.progress_displayedRow ctx facts submission s state
  generalize ((f.displayedRow ctx submission s (itemAt facts s) state).run facts).1 = row
    at hmark hitems ⊢
  obtain ⟨-, hcomplete, -⟩ := ChecklistMark.mk.inj hmark
  change row.isComplete = _ at hcomplete
  rw [hall, Bool.true_and] at hcomplete hitems
  rw [hstarted, Bool.true_and] at hitems
  have held : f.IsHeldBack ctx facts s → row.isComplete = false := by
    intro hheld
    -- what holds the section back can be opened, so the row is not released
    have hunfinished := isUnfinishedAt_iff.mpr hheld
    rw [hcomplete, isSettled_eq_false]
    refine ⟨isReachable_of_isUnfinishedAt hf hunfinished, ?_⟩
    simp [isDone, hlocks, hstarted, hunfinished]
  refine ⟨?_, held, fun hfree => ?_, fun l hl m hm hunfinished x hx havail hconditions => ?_⟩
  · rw [hitems]
    exact isUnfinishedAt_iff
  · have hfinished : f.isUnfinishedAt ctx facts s = false :=
      Bool.eq_false_iff.mpr fun h => hfree (isUnfinishedAt_iff.mp h)
    rw [hcomplete, isSettled_eq_true, or_comm]
    simp [isDone, hfinished]
  · refine held ⟨l, hl, ⟨x, hx, ?_⟩, m, hm, hunfinished⟩
    rw [availableAt_of_isItemFree hconditions _ (some m)]
    exact havail

/-! ## The checklist -/

/-- A row after complete ones is complete or next. -/
theorem isComplete_or_isNext_of_marks {before later : List ChecklistRow} {row : ChecklistRow}
    {xs : List Subcategory}
    (h : (before ++ row :: later).map (·.mark) = f.marks ctx facts true xs)
    (hbefore : ∀ r ∈ before, r.isComplete = true) : (row.isComplete || row.isNext) = true := by
  induction before generalizing xs with
  | nil =>
    cases xs with
    | nil => cases h
    | cons s xs =>
      obtain ⟨hrow, -⟩ := List.cons.inj h
      obtain ⟨-, hcomplete, hnext⟩ := ChecklistMark.mk.inj hrow
      change row.isComplete = _ at hcomplete
      change row.isNext = _ at hnext
      rw [hcomplete, hnext]
      cases f.isSettled ctx facts s <;> rfl
  | cons first before ih =>
    cases xs with
    | nil => cases h
    | cons s xs =>
      obtain ⟨hfirst, hrest⟩ := List.cons.inj h
      obtain ⟨hcomplete, hbefore⟩ := List.forall_mem_cons.mp hbefore
      have hsettled : (true && f.isSettled ctx facts s) = true :=
        (ChecklistMark.mk.inj hfirst).2.1.symm.trans hcomplete
      rw [hsettled] at hrest
      exact ih hrest hbefore

/-- **An unfinished item of an open loop holds back its section**, and nothing else does, for every
row that is reached with all rows before it complete: in every step of the fold, and so in the
checklist. -/
theorem unfinished_item_of_open_loop_locks {o : Outline} (hbuild : build o = .ok f)
    (submission : Option Submission) :
    (∀ s ∈ f.subcategories, s.locksOnUnfinishedItems = true → f.startedAt ctx facts s = true →
      ∀ state row after, state.allComplete = true →
      (f.checklistRow ctx submission state s).run facts = (some row, after) →
      f.DecidesRow ctx facts s row) ∧
    ∀ before row later,
      ((f.checklist ctx submission).run facts).flatMap (·.rows) = before ++ row :: later →
      (∀ r ∈ before, r.isComplete = true) →
      ∃ s, f.subcategory? row.subcategoryRoute = some s ∧
        (s.locksOnUnfinishedItems = true → f.startedAt ctx facts s = true →
          f.DecidesRow ctx facts s row) := by
  have hf := arranged_of_build hbuild
  constructor
  · intro s _ hlocks hstarted state row after hall hrow
    rw [run_checklistRow] at hrow
    split at hrow
    · obtain ⟨hfirst, -⟩ := Prod.mk.inj hrow
      obtain rfl := Option.some.inj hfirst
      exact decidesRow_displayedRow hf hlocks hstarted hall
    · cases hrow
  · intro before row later hrows hbefore
    have hmem : row ∈ ((f.checklist ctx submission).run facts).flatMap (·.rows) :=
      hrows ▸ List.mem_append_right before List.mem_cons_self
    obtain ⟨c, hc, hrow⟩ := List.mem_flatMap.mp hmem
    obtain ⟨s, hs, state, rfl⟩ := exists_displayedRow_of_mem hc hrow
    obtain ⟨hroute, hcomplete, hnext⟩ :=
      ChecklistMark.mk.inj (f.run_displayedRow ctx facts submission s state).1
    have hmarks := (f.isMarkedByCategory_checklistCategories ctx facts submission .initial
      (f.displayedCategories ctx.settings)).marks
    change (((f.checklist ctx submission).run facts).flatMap (·.rows)).map (·.mark) = _ at hmarks
    rw [hrows] at hmarks
    refine ⟨s, hroute ▸ hf.subcategory?_eq_some hs, fun hlocks hstarted => ?_⟩
    refine decidesRow_displayedRow hf hlocks hstarted ?_
    -- only in a state with everything complete a row is complete or next
    have hopen := isComplete_or_isNext_of_marks hmarks hbefore
    rw [hcomplete, hnext] at hopen
    cases hall : state.allComplete with
    | true => rfl
    | false => simp [hall] at hopen

open Household in
/-- The job by night is unfinished, so the jobs are not complete although they are said to be
done. -/
theorem unfinished_item_locks_household : build jobsOutline = .ok jobsFlow ∧
    ∃ s jobs sign, ((jobsFlow.checklist default none).run jobsFacts).flatMap (·.rows) =
        [] ++ jobs :: [sign] ∧
      jobsFlow.subcategory? jobs.subcategoryRoute = some s ∧
      s.locksOnUnfinishedItems = true ∧ jobsFlow.startedAt default jobsFacts s = true ∧
      (Condition.allHold default (itemAt jobsFacts s) s.completeIf).run jobsFacts = true ∧
      jobsFlow.IsHeldBack default jobsFacts s ∧ jobs.isComplete = false := by
  have hbuild : build jobsOutline = .ok jobsFlow := rfl
  have hrows : ∀ before row later,
      ((jobsFlow.checklist default none).run jobsFacts).flatMap (·.rows) = before ++ row :: later →
      _ := (unfinished_item_of_open_loop_locks hbuild none).2
  obtain ⟨s, hs, hdecides⟩ := hrows [] _ _ rfl (List.forall_mem_nil _)
  obtain rfl := Option.some.inj hs
  have hrow := hdecides rfl rfl
  have hheld := hrow.flag.mp rfl
  exact ⟨hbuild, _, _, _, rfl, rfl, rfl, rfl, rfl, hheld, hrow.held hheld⟩

end Flow

namespace Household

/-- The jobs, where only new ones are asked about, and the section for signing. -/
def newJobsOutline : Outline :=
  ⟨.empty, [.category "income"
    [.subcategory ⟨"jobs", [.fact "/jobsDone" .isTrue], [], false, false, true, none⟩
      [.topic "employers"
        [.loop ⟨"jobs", some "/jobs", false, false, some (.fact "/jobs/*/isDone" .isTrue), none,
            none⟩
          [.gate (.fact "/jobs/*/isNew" .isTrue) [question "employer" "/jobs/*/employer"]]]],
     .subcategory ⟨"sign", [], [], false, false, false, none⟩ [page "sign" none true]]]⟩

/-- The flow of the outline. -/
def newJobsFlow : Flow :=
  (Flow.build newJobsOutline).toOption.getD (.empty .empty)

/-- The list of the jobs is said to be done, but only the job by day is. The other one is new. -/
def newJobsFacts : String → Fact :=
  Household.facts ["/jobsDone", "/jobs/#day/isDone", "/jobs/#night/isNew"]

end Household

namespace Flow

open Household in
/-- The job by night is unfinished, its employer can be asked for, and the jobs are gone on with
there. Yet they are complete. -/
theorem not_every_unfinished_item_locks : build newJobsOutline = .ok newJobsFlow ∧
    ∃ s l x jobs sign, s ∈ newJobsFlow.subcategories ∧ s.locksOnUnfinishedItems = true ∧
      newJobsFlow.startedAt default newJobsFacts s = true ∧ l ∈ newJobsFlow.loopsOf s ∧
      "night" ∈ (newJobsFacts l.collection).items ∧
      l.IsUnfinishedFor default newJobsFacts "night" ∧ x ∈ newJobsFlow.screensOfLoop l ∧
      x.availableAt default newJobsFacts (some "night") = true ∧
      ((newJobsFlow.progress default s).run newJobsFacts).resumeAt = some ⟨x, some "night"⟩ ∧
      ((newJobsFlow.checklist default none).run newJobsFacts).flatMap (·.rows) =
        [] ++ jobs :: [sign] ∧
      jobs.subcategoryRoute = s.route ∧ jobs.isComplete = true := by
  refine ⟨rfl, _, _, _, _, _, List.mem_cons_self, rfl, rfl, List.mem_cons_self, ?_, ⟨_, rfl, rfl⟩,
    List.mem_cons_self, rfl, rfl, rfl, rfl, rfl⟩
  exact List.mem_cons_of_mem _ List.mem_cons_self

end Flow

end Interview

import Interview.Proofs.ChecklistForm

/-!
# Sections that are held back

A section may be held back by an unfinished item of one of its loops, even if its conditions for
being complete hold. It must be possible to open it then, or the filer could not finish the item.
The row of the section would be released if it led nowhere, since a row that is next is taken back
when it has no address. That does not happen: an item only counts if its loop is open, the open loop
has a screen to show, and the screens of a loop are among those that the row looks for its address
(`Flow.isReachable_of_isUnfinishedAt`).

Every row is linked as its marks say (`ChecklistRow.IsLinked`), whatever the fold carries into it,
and after a row that is next all others are locked (`Flow.isLocked_of_mem_remainingRows`).
-/

namespace Interview

variable {f : Flow} {ctx : Context} {facts : String → Fact} {submission : Option Submission}
  {s : Subcategory} {state : ChecklistState}

/-! ## Rows -/

/-- The marks on a row and its address agree: a row that is next leads somewhere, a locked one does
not, and only a row that is next is started but not complete. -/
structure ChecklistRow.IsLinked (r : ChecklistRow) : Prop where
  next : r.isNext = true → r.address.isSome = true
  locked : r.isLocked = true → r.address = none
  started : r.isStartedButNotComplete = true → r.isNext = true

/-- A row can be opened to go on with what has been started. -/
structure ChecklistRow.CanBeGoneOnWith (r : ChecklistRow) : Prop where
  next : r.isNext = true
  started : r.isStartedButNotComplete = true
  incomplete : r.isComplete = false
  address : r.address.isSome = true

theorem ChecklistRow.isLocked_iff {r : ChecklistRow} :
    r.isLocked = true ↔ r.isComplete = false ∧ r.isNext = false := by
  simp [isLocked]

namespace Flow

/-! ## Open loops -/

/-- A loop is open if it has a screen to show. -/
theorem run_isOpen {l : Loop} {item : Option String} : (f.isOpen ctx l item).run facts = true ↔
    ∃ x ∈ f.screensOfLoop l, x.availableAt ctx facts item = true := by
  simp [isOpen, firstScreen]

/-- **A subcategory with an unfinished item can be reached**, at a screen of the loop of the item. -/
theorem isReachable_of_isUnfinishedAt (hf : f.Arranged) (h : f.isUnfinishedAt ctx facts s = true) :
    f.isReachable ctx facts s = true := by
  obtain ⟨l, hl, hboth⟩ := List.any_eq_true.mp h
  obtain ⟨x, hx, havail⟩ := run_isOpen.mp (Bool.and_eq_true_iff.mp hboth).1
  have hscreen : x ∈ f.screensOf s := (hf.mem_screensOf_iff (mem_loopsOf.mp hl).1 hx).mpr hl
  have hany : (f.screensOf s).any (·.availableAt ctx facts (itemAt facts s)) = true :=
    List.any_eq_true.mpr ⟨x, hscreen, havail⟩
  rw [isReachable, hany, Bool.or_true]

/-! ## One row -/

variable (f ctx facts submission) in
/-- What a row says of the start of its subcategory and of unfinished items. -/
theorem progress_displayedRow (s : Subcategory) (state : ChecklistState) :
    let row := ((f.displayedRow ctx submission s (itemAt facts s) state).run facts).1
    row.isStartedButNotComplete = (row.isNext && f.startedAt ctx facts s) ∧
    row.hasUnfinishedItem =
      (state.allComplete && (f.startedAt ctx facts s && f.isUnfinishedAt ctx facts s)) := by
  unfold displayedRow
  simp only [Reading.run_bind, run_standing]
  cases state.allComplete with
  | false => cases state.categoryActive <;> simp
  | true => cases f.isDone ctx facts s <;> simp

variable (f ctx facts submission) in
/-- **Every row is linked as its marks say**, whatever is carried into it. -/
theorem isLinked_displayedRow (s : Subcategory) (state : ChecklistState) :
    ((f.displayedRow ctx submission s (itemAt facts s) state).run facts).1.IsLinked := by
  obtain ⟨hmark, -⟩ := f.run_displayedRow ctx facts submission s state
  obtain ⟨haddress, -⟩ := f.links_and_alerts_displayedRow ctx facts submission s state
  obtain ⟨hstarted, -⟩ := f.progress_displayedRow ctx facts submission s state
  generalize ((f.displayedRow ctx submission s (itemAt facts s) state).run facts).1 = row
    at hmark haddress hstarted ⊢
  obtain ⟨-, hcomplete, hnext⟩ := ChecklistMark.mk.inj hmark
  refine ⟨fun h => ?_, fun h => ?_, fun h => ?_⟩
  · -- the row is next because it can be reached, and that is where it leads
    rw [hnext, Bool.and_eq_true_iff, Bool.not_eq_true', isSettled_eq_false] at h
    obtain ⟨hall, hreachable, hdone⟩ := h
    rw [haddress, if_pos hall, hdone, Bool.false_or, isSome_run_rowAddress]
    exact hreachable
  · obtain ⟨hnot, hlast⟩ := ChecklistRow.isLocked_iff.mp h
    have hall : state.allComplete = false := by
      rw [hcomplete] at hnot
      rw [hnext] at hlast
      cases hsettled : f.isSettled ctx facts s <;> simp_all
    rw [haddress, hall, if_neg Bool.false_ne_true]
  · rw [hstarted] at h
    exact (Bool.and_eq_true_iff.mp h).1

/-- **A row that is held back can be gone on with**, and it completes nothing for those after it. -/
theorem canBeGoneOnWith_displayedRow (hf : f.Arranged) (hlocks : s.locksOnUnfinishedItems = true)
    (hunfinished : ((f.displayedRow ctx submission s (itemAt facts s) state).run
      facts).1.hasUnfinishedItem = true) :
    ((f.displayedRow ctx submission s (itemAt facts s) state).run facts).1.CanBeGoneOnWith ∧
    ((f.displayedRow ctx submission s (itemAt facts s) state).run facts).2.allComplete = false := by
  obtain ⟨hmark, hafter⟩ := f.run_displayedRow ctx facts submission s state
  obtain ⟨hstarted, hitems⟩ := f.progress_displayedRow ctx facts submission s state
  have hlinked := f.isLinked_displayedRow ctx facts submission s state
  generalize (f.displayedRow ctx submission s (itemAt facts s) state).run facts = out
    at hunfinished hmark hafter hstarted hitems hlinked ⊢
  obtain ⟨-, hcomplete, hnext⟩ := ChecklistMark.mk.inj hmark
  rw [hitems, Bool.and_eq_true_iff, Bool.and_eq_true_iff] at hunfinished
  obtain ⟨hall, hstart, hopen⟩ := hunfinished
  have hsettled : f.isSettled ctx facts s = false := by
    rw [isSettled_eq_false]
    exact ⟨isReachable_of_isUnfinishedAt hf hopen, by simp [isDone, hlocks, hstart, hopen]⟩
  rw [hall, hsettled] at hcomplete hnext hafter
  refine ⟨⟨hnext, ?_, hcomplete, hlinked.next hnext⟩, ?_⟩
  · rw [hstarted, hstart, Bool.and_true]
    exact hnext
  · rw [hafter]
    rfl

/-! ## The rows after it -/

/-- The rows that come after a state of the fold: those of the other subcategories of a category, and
those of the categories after it. -/
def remainingRows (f : Flow) (ctx : Context) (facts : String → Fact)
    (submission : Option Submission) (state : ChecklistState) (xs : List Subcategory)
    (categories : List (Category × Nat)) : List ChecklistRow :=
  let out := (f.checklistRows ctx submission state xs).run facts
  out.1 ++ ((f.checklistCategories ctx submission out.2 categories).run facts).flatMap (·.rows)

/-- Rows whose marks follow an incomplete one are locked. -/
theorem isLocked_of_map_mark {rows : List ChecklistRow} {xs : List Subcategory}
    (h : rows.map (·.mark) = f.marks ctx facts false xs) : ∀ r ∈ rows, r.isLocked = true :=
  fun r hr => ChecklistRow.isLocked_iff.mpr
    (isLocked_of_mem_marks r.mark (h ▸ List.mem_map_of_mem hr))

/-- **After an incomplete row all rows are locked.** -/
theorem isLocked_of_mem_remainingRows (hall : state.allComplete = false) (xs : List Subcategory)
    (categories : List (Category × Nat)) :
    ∀ r ∈ f.remainingRows ctx facts submission state xs categories, r.isLocked = true := by
  have hmarked := f.isMarked_checklistRows ctx facts submission state xs
  unfold remainingRows
  generalize (f.checklistRows ctx submission state xs).run facts = out at hmarked ⊢
  have hcategories :=
    (f.isMarkedByCategory_checklistCategories ctx facts submission out.2 categories).marks
  have hrows := hmarked.marks
  rw [hmarked.allComplete, hall, Bool.false_and] at hcategories
  rw [hall] at hrows
  intro r hr
  rcases List.mem_append.mp hr with hr | hr
  · exact isLocked_of_map_mark hrows r hr
  · exact isLocked_of_map_mark hcategories r hr

/-- After a row that is next all rows are locked. -/
theorem isLocked_of_later {before later : List ChecklistRow} {row : ChecklistRow} {settled : Bool}
    {xs : List Subcategory}
    (h : (before ++ row :: later).map (·.mark) = f.marks ctx facts settled xs)
    (hnext : row.isNext = true) : ∀ r ∈ later, r.isLocked = true := by
  induction before generalizing settled xs with
  | nil =>
    cases xs with
    | nil => cases h
    | cons s xs =>
      obtain ⟨hrow, hlater⟩ := List.cons.inj h
      -- the row is next as it is not settled, and from here on nothing is
      have hsettled : (settled && f.isSettled ctx facts s) = false := by
        have hnext' : (settled && !f.isSettled ctx facts s) = true :=
          (ChecklistMark.mk.inj hrow).2.2.symm.trans hnext
        rw [Bool.and_eq_true_iff, Bool.not_eq_true'] at hnext'
        rw [hnext'.2, Bool.and_false]
      rw [hsettled] at hlater
      exact isLocked_of_map_mark hlater
  | cons first before ih =>
    cases xs with
    | nil => cases h
    | cons s xs => exact ih (List.cons.inj h).2

/-! ## The checklist -/

/-- **A section that is held back by an unfinished item can be opened**, and the sections after it
cannot: in every step of the fold, whatever is carried into it, and so in the checklist. All rows are
linked as their marks say. -/
theorem heldBack_canBeGoneOnWith {o : Outline} (hbuild : build o = .ok f)
    (submission : Option Submission) :
    (∀ s ∈ f.subcategories, ∀ state row after,
      (f.checklistRow ctx submission state s).run facts = (some row, after) →
      row.IsLinked ∧
      (s.locksOnUnfinishedItems = true → row.hasUnfinishedItem = true →
        row.CanBeGoneOnWith ∧ ∀ xs categories,
          ∀ r ∈ f.remainingRows ctx facts submission after xs categories, r.isLocked = true)) ∧
    ∀ before row later,
      ((f.checklist ctx submission).run facts).flatMap (·.rows) = before ++ row :: later →
      row.IsLinked ∧ ∃ s, f.subcategory? row.subcategoryRoute = some s ∧
        (s.locksOnUnfinishedItems = true → row.hasUnfinishedItem = true →
          row.CanBeGoneOnWith ∧ ∀ r ∈ later, r.isLocked = true) := by
  have hf := arranged_of_build hbuild
  constructor
  · intro s _ state row after hrow
    rw [run_checklistRow] at hrow
    split at hrow
    · obtain ⟨hfirst, rfl⟩ := Prod.mk.inj hrow
      obtain rfl := Option.some.inj hfirst
      refine ⟨isLinked_displayedRow .., fun hlocks hunfinished => ?_⟩
      obtain ⟨hopen, hall⟩ := canBeGoneOnWith_displayedRow hf hlocks hunfinished
      exact ⟨hopen, isLocked_of_mem_remainingRows hall⟩
    · cases hrow
  · intro before row later hrows
    have hmem : row ∈ ((f.checklist ctx submission).run facts).flatMap (·.rows) :=
      hrows ▸ List.mem_append_right before List.mem_cons_self
    obtain ⟨c, hc, hrow⟩ := List.mem_flatMap.mp hmem
    obtain ⟨s, hs, state, rfl⟩ := exists_displayedRow_of_mem hc hrow
    have hroute := (ChecklistMark.mk.inj (f.run_displayedRow ctx facts submission s state).1).1
    have hmarks := (f.isMarkedByCategory_checklistCategories ctx facts submission .initial
      (f.displayedCategories ctx.settings)).marks
    change (((f.checklist ctx submission).run facts).flatMap (·.rows)).map (·.mark) = _ at hmarks
    rw [hrows] at hmarks
    refine ⟨isLinked_displayedRow .., s, hroute ▸ hf.subcategory?_eq_some hs, ?_⟩
    intro hlocks hunfinished
    have hopen := (canBeGoneOnWith_displayedRow hf hlocks hunfinished).1
    exact ⟨hopen, isLocked_of_later hmarks hopen.next⟩

end Flow

namespace Household

/-- The jobs, and the section for signing, which an unfinished job holds back. -/
def jobsOutline : Outline :=
  ⟨.empty, [.category "income"
    [.subcategory ⟨"jobs", [.fact "/jobsDone" .isTrue], [], false, false, true, none⟩
      [page "list" none true,
       .loop ⟨"jobs", some "/jobs", false, false, some (.fact "/jobs/*/isDone" .isTrue), none, none⟩
         [page "employer" none true]],
     .subcategory ⟨"sign", [], [], false, false, false, none⟩ [page "sign" none true]]]⟩

/-- The flow of the outline. -/
def jobsFlow : Flow :=
  (Flow.build jobsOutline).toOption.getD (.empty .empty)

/-- The list of the jobs is said to be done, but only the job by day is. -/
def jobsFacts : String → Fact :=
  Household.facts ["/jobsDone", "/jobs/#day/isDone"]

end Household

namespace Flow

open Household in
/-- The job by night is unfinished: the jobs lead to their summary, and signing is locked. -/
theorem heldBack_household : build jobsOutline = .ok jobsFlow ∧
    ∃ jobs sign, ((jobsFlow.checklist default none).run jobsFacts).flatMap (·.rows) =
        [] ++ jobs :: [sign] ∧
      jobs.CanBeGoneOnWith ∧ jobs.address = some "/data-view/flow/income/jobs?reviewMode=true" ∧
      sign.isLocked = true ∧ sign.IsLinked := by
  have hbuild : build jobsOutline = .ok jobsFlow := rfl
  have hrows : ∀ before row later,
      ((jobsFlow.checklist default none).run jobsFacts).flatMap (·.rows) = before ++ row :: later →
      _ := (heldBack_canBeGoneOnWith hbuild none).2
  obtain ⟨hlinked, s, hs, hheld⟩ := hrows [] _ _ rfl
  obtain ⟨hjobs, hsign⟩ := hheld (by cases hs; rfl) rfl
  refine ⟨hbuild, _, _, rfl, hjobs, rfl, hsign _ List.mem_cons_self, ?_⟩
  exact (hrows [_] _ _ rfl).1

end Flow

end Interview

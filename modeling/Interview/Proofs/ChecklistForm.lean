import Interview.Checklist.Basic
import Interview.Proofs.Routing

/-!
# The form of the checklist

The fold that computes the checklist carries flags from row to row, gives out a row as the next one
before it knows whether the row leads anywhere, and takes that back if it does not. What comes out
can be said without it. A subcategory is *settled* if it is done, or if nothing of it can be
reached. A row is complete if all subcategories up to its own are settled, and it is next if its own
is the first that is not.
-/

namespace Interview

universe u

variable {f : Flow} {ctx : Context} {facts : String → Fact} {submission : Option Submission}

/-! ## Sorted lists -/

section

variable {α : Type u}

/-- Filters join if what the second lets through comes after what the first does. -/
theorem filter_append_filter {p q : α → Bool} {xs : List α}
    (hdisjoint : ∀ x ∈ xs, p x = true → q x = false)
    (horder : xs.Pairwise fun x y => q x = true → p y = false) :
    xs.filter p ++ xs.filter q = xs.filter fun x => p x || q x := by
  induction xs with
  | nil => rfl
  | cons x xs ih =>
    obtain ⟨hx, hxs⟩ := List.pairwise_cons.mp horder
    have hrest := ih (fun y hy => hdisjoint y (List.mem_cons_of_mem x hy)) hxs
    cases hp : p x with
    | true => simp [hp, hdisjoint x List.mem_cons_self hp, hrest]
    | false =>
      cases hq : q x with
      | false => simp [hp, hq, hrest]
      | true =>
        -- nothing that the first filter lets through is left
        have hnone : xs.filter p = [] := List.filter_eq_nil_iff.mpr fun y hy => by simp [hx y hy hq]
        rw [hnone, List.nil_append] at hrest
        simp [hp, hq, hnone, hrest]

/-- A list that is sorted by a key is what its parts with each key make up. -/
theorem flatMap_filter_eq {key : α → Nat} {xs : List α} {ks : List Nat}
    (hxs : xs.Pairwise (key · ≤ key ·)) (hks : ks.Pairwise (· < ·)) :
    (ks.flatMap fun k => xs.filter (key · = k)) = xs.filter (key · ∈ ks) := by
  induction ks with
  | nil => simp
  | cons k ks ih =>
    obtain ⟨hk, hks⟩ := List.pairwise_cons.mp hks
    rw [List.flatMap_cons, ih hks, filter_append_filter]
    · simp
    · intro x _ hx
      have hxk : key x = k := by simpa using hx
      simpa using fun hmem => Nat.ne_of_gt (hk _ hmem) hxk
    · refine hxs.imp fun {x y} hle hx => ?_
      have hlt : k < key x := hk _ (by simpa using hx)
      simpa using fun hy : key y = k => by omega

end

namespace Flow

/-! ## Subcategories in front of fixed facts -/

section

variable (f : Flow) (ctx : Context) (facts : String → Fact) (s : Subcategory)

/-- The item that a subcategory is shown for. -/
def itemAt : Option String :=
  (contextItem s).run facts

/-- Whether the conditions for displaying a subcategory hold. -/
def isShown : Bool :=
  (Condition.allHold ctx (itemAt facts s) s.displayOnlyIf).run facts

/-- Whether a subcategory has a row on the checklist. -/
def isDisplayed : Bool :=
  !ctx.settings.excludes s.categoryRoute && isShown ctx facts s

/-- Whether a subcategory has been started. -/
def startedAt : Bool :=
  (f.isStarted ctx s (itemAt facts s)).run facts

/-- Whether a loop of a subcategory has a screen to show and an unfinished item. -/
def isUnfinishedAt : Bool :=
  (f.loopsOf s).any fun l =>
    (f.isOpen ctx l (itemAt facts s)).run facts && (l.hasUnfinishedItem ctx).run facts

/-- Whether a subcategory is done: there are conditions for that and they hold, and it is not locked
by an unfinished item. -/
def isDone : Bool :=
  s.completeIf ≠ [] && (Condition.allHold ctx (itemAt facts s) s.completeIf).run facts &&
    !(s.locksOnUnfinishedItems && (f.startedAt ctx facts s && f.isUnfinishedAt ctx facts s))

/-- Whether a subcategory can be reached: at its summary, once it has been started, or at a
screen. -/
def isReachable : Bool :=
  (s.hasDataView && f.startedAt ctx facts s) ||
    (f.screensOf s).any (·.availableAt ctx facts (itemAt facts s))

/-- Whether a subcategory does not hold up those after it. -/
def isSettled : Bool :=
  f.isDone ctx facts s || !f.isReachable ctx facts s

end

/-! ## One row -/

theorem run_standing (s : Subcategory) (allComplete : Bool) :
    (f.standing ctx s (itemAt facts s) allComplete).run facts =
      ⟨f.startedAt ctx facts s,
        allComplete && (f.startedAt ctx facts s && f.isUnfinishedAt ctx facts s),
        allComplete && f.isDone ctx facts s⟩ := by
  have hunfinished : (f.hasOpenUnfinishedItem ctx s (itemAt facts s)).run facts =
      f.isUnfinishedAt ctx facts s := by
    unfold hasOpenUnfinishedItem isUnfinishedAt
    rw [Reading.run_anyM]
    congr 1
    funext l
    cases h : (f.isOpen ctx l (itemAt facts s)).run facts <;> simp [h]
  have hmeets : (meetsCompletion ctx s (itemAt facts s)).run facts =
      (decide (s.completeIf ≠ []) &&
        (Condition.allHold ctx (itemAt facts s) s.completeIf).run facts) := by
    unfold meetsCompletion
    rw [Reading.run_ite]
    split
    · next h => simp [h]
    · next h => simp [h]
  unfold standing isDone
  cases allComplete with
  | false =>
    -- neither the conditions nor the loops are looked at any more
    simp [startedAt]
  | true =>
    simp only [startedAt, Reading.run_bind, if_true, Bool.true_and]
    cases (f.isStarted ctx s (itemAt facts s)).run facts with
    | false =>
      simp only [Bool.false_eq_true, if_false, Reading.run_bind, Reading.run_pure, hmeets,
        Bool.false_and, Bool.and_false, Bool.not_false, Bool.and_true]
    | true =>
      simp only [if_true, Reading.run_bind, Reading.run_pure, hmeets, hunfinished, Bool.true_and]

/-- A row leads somewhere if it has a summary to be shown or a screen. -/
theorem isSome_run_rowAddress (s : Subcategory) (showSummary : Bool) :
    ((f.rowAddress ctx s (itemAt facts s) showSummary).run facts).isSome =
      ((s.hasDataView && showSummary) ||
        (f.screensOf s).any (·.availableAt ctx facts (itemAt facts s))) := by
  unfold rowAddress
  cases hsummary : s.hasDataView && showSummary with
  | true => simp
  | false =>
    simp only [Bool.false_eq_true, if_false, Reading.run_bind, Reading.run_findM?,
      run_isAvailable, Reading.run_pure, Option.isSome_map, Bool.false_or]
    rw [List.isSome_find?]

end Flow

/-- The marks on a row: the subcategory it is about, and whether it is complete or next. -/
structure ChecklistMark where
  subcategoryRoute : String
  isComplete : Bool
  isNext : Bool
deriving DecidableEq

/-- The marks on a row. -/
def ChecklistRow.mark (r : ChecklistRow) : ChecklistMark :=
  ⟨r.subcategoryRoute, r.isComplete, r.isNext⟩

namespace Flow

variable (f ctx facts submission) in
/-- A row is complete if it is settled like all before, and next if it is the first that is not. -/
theorem run_displayedRow (s : Subcategory) (state : ChecklistState) :
    ((f.displayedRow ctx submission s (itemAt facts s) state).run facts).1.mark =
      ⟨s.route, state.allComplete && f.isSettled ctx facts s,
        state.allComplete && !f.isSettled ctx facts s⟩ ∧
    ((f.displayedRow ctx submission s (itemAt facts s) state).run facts).2 =
      ⟨state.allComplete && f.isSettled ctx facts s,
        state.categoryActive || state.allComplete⟩ := by
  unfold displayedRow ChecklistRow.mark
  simp only [Reading.run_bind, run_standing]
  cases state.allComplete with
  | false => cases state.categoryActive <;> simp
  | true =>
    cases hdone : f.isDone ctx facts s with
    | true => simp [isSettled, hdone]
    | false =>
      -- the row is next, unless it leads nowhere
      have hsome : ((f.rowAddress ctx s (itemAt facts s) (f.startedAt ctx facts s)).run
          facts).isSome = f.isReachable ctx facts s :=
        isSome_run_rowAddress s (f.startedAt ctx facts s)
      have hnone : ((f.rowAddress ctx s (itemAt facts s) (f.startedAt ctx facts s)).run
          facts).isNone = !f.isReachable ctx facts s := by
        rw [← Option.not_isSome, hsome]
      simp [isSettled, hdone, hsome, hnone]

variable (f ctx facts submission) in
/-- A row leads somewhere if all rows before are complete, it has alerts if its category has become
active with it or a row before, and it has those about a rejected return in any case. -/
theorem links_and_alerts_displayedRow (s : Subcategory) (state : ChecklistState) :
    let row := ((f.displayedRow ctx submission s (itemAt facts s) state).run facts).1
    row.address =
      (if state.allComplete then
        (f.rowAddress ctx s (itemAt facts s)
          (f.isDone ctx facts s || f.startedAt ctx facts s)).run facts
      else none) ∧
    row.alerts =
      (if state.categoryActive || state.allComplete then
        (f.rowAlerts ctx s (itemAt facts s)).run facts
      else .empty) ∧
    row.rejectionAlerts = (f.rowRejectionAlerts ctx submission s (itemAt facts s)).run facts := by
  unfold displayedRow
  simp only [Reading.run_bind, run_standing]
  cases state.allComplete with
  | false => cases state.categoryActive <;> simp
  | true => cases f.isDone ctx facts s <;> simp

/-! ## All rows -/

/-- The marks on the rows of some subcategories, when all before are settled or not. -/
def marks (f : Flow) (ctx : Context) (facts : String → Fact) :
    Bool → List Subcategory → List ChecklistMark
  | _, [] => []
  | settled, s :: rest =>
    ⟨s.route, settled && f.isSettled ctx facts s, settled && !f.isSettled ctx facts s⟩ ::
      f.marks ctx facts (settled && f.isSettled ctx facts s) rest

theorem marks_append (settled : Bool) (xs ys : List Subcategory) :
    f.marks ctx facts settled (xs ++ ys) = f.marks ctx facts settled xs ++
      f.marks ctx facts (settled && xs.all (f.isSettled ctx facts)) ys := by
  induction xs generalizing settled with
  | nil => simp [marks]
  | cons s xs ih => rw [List.cons_append, marks, marks, ih, List.all_cons, Bool.and_assoc,
      List.cons_append]

/-- Each row is marked by the rows before it and itself. -/
theorem getElem?_marks (settled : Bool) (xs : List Subcategory) (j : Nat) :
    (f.marks ctx facts settled xs)[j]? = xs[j]?.map fun s =>
      ⟨s.route, settled && (xs.take (j + 1)).all (f.isSettled ctx facts),
        settled && (xs.take j).all (f.isSettled ctx facts) && !f.isSettled ctx facts s⟩ := by
  induction xs generalizing settled j with
  | nil => rfl
  | cons s xs ih =>
    cases j with
    | zero => simp [marks]
    | succ j =>
      rw [marks, List.getElem?_cons_succ, List.getElem?_cons_succ, ih]
      simp [Bool.and_assoc]

/-- The rows of displayed subcategories, and what is carried on from them, agree with the marks. -/
structure IsMarked (f : Flow) (ctx : Context) (facts : String → Fact) (state : ChecklistState)
    (xs : List Subcategory) (out : List ChecklistRow × ChecklistState) : Prop where
  marks : out.1.map (·.mark) = f.marks ctx facts state.allComplete xs
  allComplete : out.2.allComplete = (state.allComplete && xs.all (f.isSettled ctx facts))
  categoryActive : out.2.categoryActive =
    (state.categoryActive || out.1.any fun r => r.isComplete || r.isNext)

theorem run_checklistRow (state : ChecklistState) (s : Subcategory) :
    (f.checklistRow ctx submission state s).run facts =
      if isShown ctx facts s then
        (some ((f.displayedRow ctx submission s (itemAt facts s) state).run facts).1,
          ((f.displayedRow ctx submission s (itemAt facts s) state).run facts).2)
      else (none, state) := by
  unfold checklistRow isShown itemAt
  simp only [Reading.run_bind]
  split <;> simp

theorem run_checklistRows_cons (state : ChecklistState) (s : Subcategory) (xs : List Subcategory) :
    (f.checklistRows ctx submission state (s :: xs)).run facts =
      let first := (f.checklistRow ctx submission state s).run facts
      let rest := (f.checklistRows ctx submission first.2 xs).run facts
      (first.1.toList ++ rest.1, rest.2) := by
  simp [checklistRows]

variable (f ctx facts submission) in
/-- The rows of some subcategories are those of the displayed ones, marked one after the other. -/
theorem isMarked_checklistRows (state : ChecklistState) (xs : List Subcategory) :
    f.IsMarked ctx facts state (xs.filter (isShown ctx facts))
      ((f.checklistRows ctx submission state xs).run facts) := by
  induction xs generalizing state with
  | nil => exact ⟨rfl, by simp [checklistRows], by simp [checklistRows]⟩
  | cons s xs ih =>
    rw [run_checklistRows_cons, run_checklistRow]
    cases hshown : isShown ctx facts s with
    | false => simpa [hshown] using ih state
    | true =>
      have hrow := f.run_displayedRow ctx facts submission s state
      rw [List.filter_cons_of_pos hshown, if_pos rfl]
      generalize (f.displayedRow ctx submission s (itemAt facts s) state).run facts = out at hrow ⊢
      obtain ⟨row, after⟩ := out
      obtain ⟨hmark, rfl⟩ := hrow
      -- the rows that follow start from what this one carries on
      obtain ⟨hmarks, hall, hactive⟩ := ih ⟨state.allComplete && f.isSettled ctx facts s,
        state.categoryActive || state.allComplete⟩
      refine ⟨?_, ?_, ?_⟩
      · rw [Flow.marks, ← hmark, ← hmarks]
        rfl
      · rw [hall, List.all_cons, Bool.and_assoc]
      · obtain ⟨hcomplete, hnext⟩ := (ChecklistMark.mk.inj hmark).2
        change row.isComplete = _ at hcomplete
        change row.isNext = _ at hnext
        -- the category becomes active with a row that is complete or next
        have hopen : (row.isComplete || row.isNext) = state.allComplete := by
          rw [hcomplete, hnext]
          cases state.allComplete <;> simp
        rw [hactive]
        simp [hopen, Bool.or_assoc]

/-! ## All categories -/

/-- The categories have the rows of their displayed subcategories, marked one after the other, and
are active if one of them is complete or next. -/
structure IsMarkedByCategory (f : Flow) (ctx : Context) (facts : String → Fact)
    (state : ChecklistState) (categories : List (Category × Nat)) (out : List ChecklistCategory) :
    Prop where
  routes : out.map (fun c => (c.route, c.rows.map (·.subcategoryRoute))) = categories.map fun c =>
    (c.1.route, ((f.subcategoriesOf c.2).filter (isShown ctx facts)).map (·.route))
  marks : (out.flatMap (·.rows)).map (·.mark) = f.marks ctx facts state.allComplete
    (categories.flatMap fun c => (f.subcategoriesOf c.2).filter (isShown ctx facts))
  active : ∀ c ∈ out, c.active = c.rows.any fun r => r.isComplete || r.isNext

theorem run_checklistCategories_cons (state : ChecklistState) (c : Category × Nat)
    (categories : List (Category × Nat)) :
    (f.checklistCategories ctx submission state (c :: categories)).run facts =
      let out := (f.checklistRows ctx submission { state with categoryActive := false }
        (f.subcategoriesOf c.2)).run facts
      ⟨c.1.route, out.2.categoryActive, out.1⟩ ::
        (f.checklistCategories ctx submission out.2 categories).run facts := by
  simp [checklistCategories]

/-- A row of some subcategories is that of one of them, in some state. -/
theorem exists_displayedRow_of_mem_rows {state : ChecklistState} {xs : List Subcategory}
    {row : ChecklistRow} (hrow : row ∈ ((f.checklistRows ctx submission state xs).run facts).1) :
    ∃ s ∈ xs, ∃ state',
      row = ((f.displayedRow ctx submission s (itemAt facts s) state').run facts).1 := by
  induction xs generalizing state with
  | nil => cases hrow
  | cons s xs ih =>
    rw [run_checklistRows_cons, run_checklistRow] at hrow
    rcases List.mem_append.mp hrow with hfirst | hrest
    · cases hshown : isShown ctx facts s with
      | false =>
        rw [hshown] at hfirst
        cases hfirst
      | true =>
        rw [hshown, if_pos rfl] at hfirst
        exact ⟨s, List.mem_cons_self, state, List.mem_singleton.mp hfirst⟩
    · obtain ⟨t, ht, hrow⟩ := ih hrest
      exact ⟨t, List.mem_cons_of_mem s ht, hrow⟩

/-- A row of the checklist is that of a subcategory, in some state. -/
theorem exists_displayedRow_of_mem {c : ChecklistCategory} {row : ChecklistRow}
    (hc : c ∈ (f.checklist ctx submission).run facts) (hrow : row ∈ c.rows) :
    ∃ s ∈ f.subcategories, ∃ state,
      row = ((f.displayedRow ctx submission s (itemAt facts s) state).run facts).1 := by
  unfold checklist at hc
  generalize f.displayedCategories ctx.settings = categories at hc
  generalize ChecklistState.initial = state at hc
  induction categories generalizing state with
  | nil => cases hc
  | cons first categories ih =>
    rw [run_checklistCategories_cons] at hc
    rcases List.mem_cons.mp hc with rfl | hc
    · obtain ⟨s, hs, hrow⟩ := exists_displayedRow_of_mem_rows hrow
      exact ⟨s, (List.mem_filter.mp hs).1, hrow⟩
    · exact ih _ hc

theorem map_subcategoryRoute_marks (settled : Bool) (xs : List Subcategory) :
    (f.marks ctx facts settled xs).map (·.subcategoryRoute) = xs.map (·.route) := by
  induction xs generalizing settled with
  | nil => rfl
  | cons s xs ih => rw [marks, List.map_cons, List.map_cons, ih]

variable (f ctx facts submission) in
theorem isMarkedByCategory_checklistCategories (state : ChecklistState)
    (categories : List (Category × Nat)) :
    f.IsMarkedByCategory ctx facts state categories
      ((f.checklistCategories ctx submission state categories).run facts) := by
  induction categories generalizing state with
  | nil => exact ⟨rfl, rfl, fun c hc => nomatch hc⟩
  | cons c categories ih =>
    have hrows := f.isMarked_checklistRows ctx facts submission
      { state with categoryActive := false } (f.subcategoriesOf c.2)
    rw [run_checklistCategories_cons]
    generalize (f.checklistRows ctx submission { state with categoryActive := false }
      (f.subcategoriesOf c.2)).run facts = out at hrows ⊢
    obtain ⟨rows, after⟩ := out
    obtain ⟨hmarks, hall, hactive⟩ := hrows
    have hrest := ih after
    refine ⟨?_, ?_, ?_⟩
    · have hroutes : rows.map (·.subcategoryRoute) =
          ((f.subcategoriesOf c.2).filter (isShown ctx facts)).map (·.route) := by
        rw [← map_subcategoryRoute_marks, ← hmarks, List.map_map]
        rfl
      rw [List.map_cons, List.map_cons, hrest.routes, hroutes]
    · rw [List.flatMap_cons, List.map_append, List.flatMap_cons, marks_append, hmarks, hrest.marks,
        hall]
    · intro d hd
      rcases List.mem_cons.mp hd with rfl | hd
      · simpa using hactive
      · exact hrest.active d hd

/-- The subcategories that have a row on the checklist, in their order. -/
def displayed (f : Flow) (ctx : Context) (facts : String → Fact) : List Subcategory :=
  f.subcategories.filter (isDisplayed ctx facts)

/-- Going through the displayed categories is going through the subcategories in their order. -/
theorem flatMap_displayedCategories (hf : f.Arranged) :
    ((f.displayedCategories ctx.settings).flatMap fun c =>
      (f.subcategoriesOf c.2).filter (isShown ctx facts)) = f.displayed ctx facts := by
  have hsorted : ((f.displayedCategories ctx.settings).map (·.2)).Pairwise (· < ·) := by
    have hall : (f.categories.zipIdx.map (·.2)).Pairwise (· < ·) := by
      rw [List.zipIdx_map_snd]
      exact List.pairwise_lt_range'
    exact hall.sublist (List.filter_sublist.map _)
  -- the positions of the displayed categories are those of the categories that are not excluded
  have hmem : ∀ s ∈ f.subcategories, s.category ∈ (f.displayedCategories ctx.settings).map (·.2) ↔
      ctx.settings.excludes s.categoryRoute = false := by
    intro s hs
    have hcategory := hf.categorized s hs
    simp [displayedCategories, List.mem_zipIdx_iff_getElem?, hcategory]
  calc ((f.displayedCategories ctx.settings).flatMap fun c =>
          (f.subcategoriesOf c.2).filter (isShown ctx facts))
      = (((f.displayedCategories ctx.settings).map (·.2)).flatMap
          fun n => f.subcategories.filter (·.category = n)).filter (isShown ctx facts) := by
        rw [List.filter_flatMap, List.flatMap_map]
        rfl
    _ = (f.subcategories.filter
          (·.category ∈ (f.displayedCategories ctx.settings).map (·.2))).filter
            (isShown ctx facts) := by
        rw [flatMap_filter_eq hf.categoryOrder hsorted]
    _ = f.displayed ctx facts := by
        rw [List.filter_filter]
        refine List.filter_congr fun s hs => ?_
        simp [isDisplayed, hmem s hs, Bool.and_comm]

/-! ## The form -/

/-- After a row that is not settled, all are locked. -/
theorem isLocked_of_mem_marks {xs : List Subcategory} :
    ∀ m ∈ f.marks ctx facts false xs, m.isComplete = false ∧ m.isNext = false := by
  induction xs with
  | nil => exact fun m hm => nomatch hm
  | cons s xs ih =>
    intro m hm
    rcases List.mem_cons.mp hm with rfl | hm
    · exact ⟨rfl, rfl⟩
    · exact ih m hm

/-- The rows read: complete ones, at most one that is next, and locked ones. -/
theorem exists_split_of_marks {rows : List ChecklistRow} {settled : Bool} {xs : List Subcategory}
    (h : rows.map (·.mark) = f.marks ctx facts settled xs) :
    ∃ complete next locked, rows = complete ++ next ++ locked ∧ next.length ≤ 1 ∧
      (∀ r ∈ complete, r.isComplete = true ∧ r.isNext = false) ∧
      (∀ r ∈ next, r.isComplete = false ∧ r.isNext = true) ∧
      ∀ r ∈ locked, r.isComplete = false ∧ r.isNext = false := by
  induction xs generalizing rows settled with
  | nil =>
    obtain rfl : rows = [] := by simpa [marks] using h
    exact ⟨[], [], [], rfl, by simp, by simp, by simp, by simp⟩
  | cons s xs ih =>
    rw [marks] at h
    obtain ⟨row, rows, rfl, hrow, hrows⟩ := List.map_eq_cons_iff.mp h
    obtain ⟨-, hcomplete, hnext⟩ := ChecklistMark.mk.inj hrow
    cases hsettled : settled && f.isSettled ctx facts s with
    | true =>
      obtain ⟨complete, next, locked, rfl, hlength, hc, hn, hl⟩ := ih hrows
      have hrest : row.isNext = false := by
        rw [hnext, (Bool.and_eq_true_iff.mp hsettled).2]
        simp
      -- a settled row is complete, and the split of the rest goes on
      refine ⟨row :: complete, next, locked, rfl, hlength, ?_, hn, hl⟩
      exact List.forall_mem_cons.mpr ⟨⟨hcomplete.trans hsettled, hrest⟩, hc⟩
    | false =>
      -- from here on nothing is settled any more
      have hlocked : ∀ r ∈ rows, r.isComplete = false ∧ r.isNext = false := fun r hr => by
        rw [hsettled] at hrows
        exact isLocked_of_mem_marks r.mark (hrows ▸ List.mem_map_of_mem hr)
      cases hrownext : row.isNext with
      | true =>
        refine ⟨[], [row], rows, rfl, Nat.le_refl 1, List.forall_mem_nil _, ?_, hlocked⟩
        exact List.forall_mem_singleton.mpr ⟨hcomplete.trans hsettled, hrownext⟩
      | false =>
        refine ⟨[], [], row :: rows, rfl, Nat.zero_le 1, List.forall_mem_nil _,
          List.forall_mem_nil _, ?_⟩
        exact List.forall_mem_cons.mpr ⟨⟨hcomplete.trans hsettled, hrownext⟩, hlocked⟩

/-- What the categories of the checklist look like, as the facts stand. -/
structure HasForm (f : Flow) (ctx : Context) (facts : String → Fact)
    (out : List ChecklistCategory) : Prop where
  /-- There is a category for each that is displayed, with a row for each of its subcategories that
  is shown. -/
  categories : out.map (fun c => (c.route, c.rows.map (·.subcategoryRoute))) =
    (f.displayedCategories ctx.settings).map fun c =>
      (c.1.route, ((f.subcategoriesOf c.2).filter (isShown ctx facts)).map (·.route))
  /-- Over all categories there is one row for each displayed subcategory, in order. -/
  rows : (out.flatMap (·.rows)).map (·.subcategoryRoute) =
    (f.displayed ctx facts).map (·.route)
  /-- A row is complete if everything up to it is done or cannot be reached. -/
  complete : ∀ j row, (out.flatMap (·.rows))[j]? = some row → (row.isComplete = true ↔
    ∀ s ∈ (f.displayed ctx facts).take (j + 1),
      f.isDone ctx facts s = true ∨ f.isReachable ctx facts s = false)
  /-- A row is next if everything before it is done or cannot be reached, and it itself can be
  reached and is not done. -/
  next : ∀ j row, (out.flatMap (·.rows))[j]? = some row → (row.isNext = true ↔
    (∀ s ∈ (f.displayed ctx facts).take j,
      f.isDone ctx facts s = true ∨ f.isReachable ctx facts s = false) ∧
    ∃ s, (f.displayed ctx facts)[j]? = some s ∧
      f.isReachable ctx facts s = true ∧ f.isDone ctx facts s = false)
  /-- The rows are complete up to at most one that is next, and those after it are neither. -/
  order : ∃ complete next locked, out.flatMap (·.rows) = complete ++ next ++ locked ∧
    next.length ≤ 1 ∧
    (∀ r ∈ complete, r.isComplete = true ∧ r.isNext = false) ∧
    (∀ r ∈ next, r.isComplete = false ∧ r.isNext = true) ∧
    ∀ r ∈ locked, r.isComplete = false ∧ r.isNext = false
  /-- A category is active if one of its rows is complete or next. -/
  active : ∀ c ∈ out, c.active = true ↔ ∃ r ∈ c.rows, r.isComplete = true ∨ r.isNext = true

/-- What the marks say of the row at a position. -/
theorem marks_of_getElem? {rows : List ChecklistRow} {xs : List Subcategory}
    (h : rows.map (·.mark) = f.marks ctx facts true xs) {j : Nat} {row : ChecklistRow}
    (hrow : rows[j]? = some row) : ∃ s, xs[j]? = some s ∧
      row.isComplete = (xs.take (j + 1)).all (f.isSettled ctx facts) ∧
      row.isNext = ((xs.take j).all (f.isSettled ctx facts) && !f.isSettled ctx facts s) := by
  have hmark : (f.marks ctx facts true xs)[j]? = some row.mark := by
    rw [← h, List.getElem?_map, hrow]
    rfl
  rw [getElem?_marks] at hmark
  obtain ⟨s, hs, heq⟩ := Option.map_eq_some_iff.mp hmark
  obtain ⟨-, hcomplete, hnext⟩ := ChecklistMark.mk.inj heq
  exact ⟨s, hs, by simpa using hcomplete.symm, by simpa using hnext.symm⟩

theorem isSettled_eq_true {s : Subcategory} : f.isSettled ctx facts s = true ↔
    f.isDone ctx facts s = true ∨ f.isReachable ctx facts s = false := by
  simp [isSettled]

theorem isSettled_eq_false {s : Subcategory} : f.isSettled ctx facts s = false ↔
    f.isReachable ctx facts s = true ∧ f.isDone ctx facts s = false := by
  simp [isSettled, and_comm]

/-- **The form of the checklist**, for every flow that is built. -/
theorem hasForm_checklist {o : Outline} (hbuild : build o = .ok f) :
    f.HasForm ctx facts ((f.checklist ctx submission).run facts) := by
  have hmarked := f.isMarkedByCategory_checklistCategories ctx facts submission .initial
    (f.displayedCategories ctx.settings)
  have hmarks := hmarked.marks
  rw [flatMap_displayedCategories (arranged_of_build hbuild)] at hmarks
  unfold checklist
  generalize (f.checklistCategories ctx submission .initial
    (f.displayedCategories ctx.settings)).run facts = out at hmarked hmarks ⊢
  refine ⟨hmarked.routes, ?_, ?_, ?_, exists_split_of_marks hmarks, ?_⟩
  · rw [← map_subcategoryRoute_marks, ← hmarks, List.map_map]
    rfl
  · intro j row hrow
    obtain ⟨s, hs, hcomplete, -⟩ := marks_of_getElem? hmarks hrow
    simp only [hcomplete, List.all_eq_true, isSettled_eq_true]
  · intro j row hrow
    obtain ⟨s, hs, -, hnext⟩ := marks_of_getElem? hmarks hrow
    rw [hnext, Bool.and_eq_true_iff, Bool.not_eq_true', isSettled_eq_false, List.all_eq_true]
    simp only [isSettled_eq_true, hs, Option.some.injEq, exists_eq_left']
  · intro c hc
    rw [hmarked.active c hc]
    simp

/-- The checklist of the household has this form. -/
theorem hasForm_household : build Household.outline = .ok Household.flow ∧
    Household.flow.HasForm default (Household.facts [])
      ((Household.flow.checklist default none).run (Household.facts [])) :=
  ⟨Household.build_outline, hasForm_checklist Household.build_outline⟩

end Flow

end Interview

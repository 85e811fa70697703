import Interview.Proofs.ChecklistForm

/-!
# What the checklist looks at

The checklist goes through the categories that are displayed and the subcategories of each that are
shown, and for a row it looks at the screens and loops of its subcategory and at the screens of
these loops. So two flows have the same checklist if they agree in these
(`Flow.run_checklist_congr`), whatever else is in them and whatever the positions of the categories
are.
-/

namespace Interview

variable {f f' : Flow} {ctx : Context} {facts : String → Fact} {submission : Option Submission}

/-! ## Lists of questions -/

namespace Reading

variable {α β : Type} {xs : List α}

theorem anyM_congr {p q : α → Reading Bool} (h : ∀ x ∈ xs, p x = q x) : xs.anyM p = xs.anyM q := by
  induction xs with
  | nil => rfl
  | cons x xs ih =>
    have hrest := ih fun y hy => h y (List.mem_cons_of_mem x hy)
    simp only [List.anyM, h x List.mem_cons_self, hrest]

theorem mapM_congr {p q : α → Reading β} (h : ∀ x ∈ xs, p x = q x) : xs.mapM p = xs.mapM q := by
  induction xs with
  | nil => rfl
  | cons x xs ih =>
    have hrest := ih fun y hy => h y (List.mem_cons_of_mem x hy)
    simp only [List.mapM_cons, h x List.mem_cons_self, hrest]

end Reading

namespace Flow

/-! ## One row -/

/-- Two flows have the same screens and loops of a subcategory. -/
structure SameSection (f f' : Flow) (s : Subcategory) : Prop where
  screens : f.screensOf s = f'.screensOf s
  loops : f.loopsOf s = f'.loopsOf s
  members : ∀ l ∈ f.loopsOf s, f.screensOfLoop l = f'.screensOfLoop l

namespace SameSection

variable {s : Subcategory} {item : Option String}

theorem isStarted_eq (h : SameSection f f' s) :
    f.isStarted ctx s item = f'.isStarted ctx s item := by
  unfold isStarted ownScreens
  rw [h.screens, h.loops]

theorem hasOpenUnfinishedItem_eq (h : SameSection f f' s) :
    f.hasOpenUnfinishedItem ctx s item = f'.hasOpenUnfinishedItem ctx s item := by
  unfold hasOpenUnfinishedItem
  rw [← h.loops]
  refine Reading.anyM_congr fun l hl => ?_
  unfold isOpen firstScreen
  rw [h.members l hl]

theorem standing_eq (h : SameSection f f' s) (allComplete : Bool) :
    f.standing ctx s item allComplete = f'.standing ctx s item allComplete := by
  unfold standing
  rw [h.isStarted_eq, h.hasOpenUnfinishedItem_eq]

theorem rowAddress_eq (h : SameSection f f' s) (showSummary : Bool) :
    f.rowAddress ctx s item showSummary = f'.rowAddress ctx s item showSummary := by
  unfold rowAddress summaryAddress
  rw [h.screens]

theorem rowAlerts_eq (h : SameSection f f' s) :
    f.rowAlerts ctx s item = f'.rowAlerts ctx s item := by
  have hloops : f.loopAlerts ctx (f.loopsOf s) = f'.loopAlerts ctx (f'.loopsOf s) := by
    have hsame : ∀ l ∈ f.loopsOf s, f.alertsOfLoop ctx l = f'.alertsOfLoop ctx l := by
      intro l hl
      unfold alertsOfLoop
      rw [h.members l hl]
    unfold loopAlerts
    rw [← h.loops, Reading.mapM_congr hsame]
  unfold rowAlerts
  rw [h.screens, hloops]

theorem rowRejectionAlerts_eq (h : SameSection f f' s) :
    f.rowRejectionAlerts ctx submission s item = f'.rowRejectionAlerts ctx submission s item := by
  unfold rowRejectionAlerts
  rw [h.screens]

/-- The row of a subcategory is the same in both flows. -/
theorem checklistRow_eq (h : SameSection f f' s) (state : ChecklistState) :
    f.checklistRow ctx submission state s = f'.checklistRow ctx submission state s := by
  unfold checklistRow displayedRow
  simp only [h.standing_eq, h.rowAddress_eq, h.rowAlerts_eq, h.rowRejectionAlerts_eq]

end SameSection

/-! ## All rows -/

/-- A subcategory, whatever the position of its category. -/
def unplaced (s : Subcategory) : Subcategory :=
  { s with category := 0 }

theorem checklistRow_unplaced (state : ChecklistState) (s : Subcategory) :
    f.checklistRow ctx submission state (unplaced s) = f.checklistRow ctx submission state s := rfl

/-- The subcategories of some that have rows. -/
def shownAmong (ctx : Context) (facts : String → Fact) (xs : List Subcategory) : List Subcategory :=
  (xs.filter (isShown ctx facts)).map unplaced

theorem shownAmong_cons (s : Subcategory) (xs : List Subcategory) :
    shownAmong ctx facts (s :: xs) = if isShown ctx facts s then
      unplaced s :: shownAmong ctx facts xs else shownAmong ctx facts xs := by
  unfold shownAmong
  rw [List.filter_cons]
  split <;> rfl

/-- Subcategories that are not shown leave no trace. -/
theorem run_checklistRows_shownAmong (state : ChecklistState) (xs : List Subcategory) :
    (f.checklistRows ctx submission state (shownAmong ctx facts xs)).run facts =
      (f.checklistRows ctx submission state xs).run facts := by
  induction xs generalizing state with
  | nil => rfl
  | cons s xs ih =>
    rw [run_checklistRows_cons, shownAmong_cons]
    cases hshown : isShown ctx facts s with
    | true =>
      rw [if_pos rfl, run_checklistRows_cons, checklistRow_unplaced]
      simp only [ih]
    | false =>
      have hrow : (f.checklistRow ctx submission state s).run facts = (none, state) := by
        rw [run_checklistRow, hshown]
        rfl
      rw [if_neg Bool.false_ne_true, ih, hrow]
      rfl

theorem run_checklistRows_congr {xs xs' : List Subcategory}
    (hxs : shownAmong ctx facts xs = shownAmong ctx facts xs')
    (hsame : ∀ s ∈ shownAmong ctx facts xs, SameSection f f' s) (state : ChecklistState) :
    (f.checklistRows ctx submission state xs).run facts =
      (f'.checklistRows ctx submission state xs').run facts := by
  rw [← run_checklistRows_shownAmong state xs, ← run_checklistRows_shownAmong state xs', ← hxs]
  generalize shownAmong ctx facts xs = ys at hsame
  induction ys generalizing state with
  | nil => rfl
  | cons s ys ih =>
    have hrest (next : ChecklistState) := ih next fun y hy => hsame y (List.mem_cons_of_mem s hy)
    simp only [run_checklistRows_cons, (hsame s List.mem_cons_self).checklistRow_eq, hrest]

/-! ## All categories -/

/-- What is shown of a category: its route and its subcategories that are shown. -/
def shownOf (f : Flow) (ctx : Context) (facts : String → Fact) (c : Category × Nat) :
    String × List Subcategory :=
  (c.1.route, shownAmong ctx facts (f.subcategoriesOf c.2))

/-- What is shown of the categories that are displayed. -/
def shownByCategory (f : Flow) (ctx : Context) (facts : String → Fact) :
    List (String × List Subcategory) :=
  (f.displayedCategories ctx.settings).map (f.shownOf ctx facts)

theorem run_checklistCategories_congr {cs cs' : List (Category × Nat)}
    (hcs : cs.map (f.shownOf ctx facts) = cs'.map (f'.shownOf ctx facts))
    (hsame : ∀ c ∈ cs, ∀ s ∈ (f.shownOf ctx facts c).2, SameSection f f' s)
    (state : ChecklistState) :
    (f.checklistCategories ctx submission state cs).run facts =
      (f'.checklistCategories ctx submission state cs').run facts := by
  induction cs generalizing cs' state with
  | nil =>
    obtain rfl := List.map_eq_nil_iff.mp hcs.symm
    rfl
  | cons c cs ih =>
    obtain ⟨c', cs', rfl, hfirst, hrest⟩ := List.map_eq_cons_iff.mp hcs.symm
    obtain ⟨hroute, hshown⟩ := Prod.mk.inj hfirst
    obtain ⟨hsame, hsames⟩ := List.forall_mem_cons.mp hsame
    have hrows (next : ChecklistState) :
        (f.checklistRows ctx submission next (f.subcategoriesOf c.2)).run facts =
          (f'.checklistRows ctx submission next (f'.subcategoriesOf c'.2)).run facts :=
      run_checklistRows_congr hshown.symm hsame next
    simp only [run_checklistCategories_cons, hroute, hrows, ih hrest.symm hsames]

/-- **Flows have the same checklist** if they show the same subcategories and have the same screens
and loops of these. -/
theorem run_checklist_congr (hshown : f.shownByCategory ctx facts = f'.shownByCategory ctx facts)
    (hsame : ∀ c ∈ f.shownByCategory ctx facts, ∀ s ∈ c.2, SameSection f f' s) :
    (f.checklist ctx submission).run facts = (f'.checklist ctx submission).run facts :=
  run_checklistCategories_congr hshown (fun _ hc => hsame _ (List.mem_map_of_mem hc)) .initial

end Flow

end Interview

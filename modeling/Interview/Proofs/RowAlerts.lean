import Interview.Proofs.AlertCollection
import Interview.Proofs.ChecklistForm
import Interview.Proofs.ItemBinding

/-!
# The alerts of a row

The alerts of a checklist row are collected in two passes: over all screens of the subcategory in
its own context, and over its loops item by item. The passes overlap, and in the first one an alert
without an item may come to be about the first item of a loop. `Flow.Reports` says without the
passes which messages a row has about which items, and `Flow.rows_report` shows that the rows of
active categories have exactly these, each once, and that the others have none.
-/

namespace Interview

variable {f : Flow} {ctx : Context} {facts : String → Fact} {submission : Option Submission}

/-- An alert with a message is declared on a screen, and its conditions hold for an item. -/
def Screen.Raises (ctx : Context) (facts : String → Fact) (x : Screen) (kind : AlertKind)
    (key : String) (item : Option String) : Prop :=
  ∃ e ∈ x.content, ∃ paths, e.content = .taxReturnAlert kind key paths ∧
    (Condition.allHold ctx item e.conditions).run facts = true

/-- The messages that a row has to report, and the items they are about. -/
inductive Flow.Reports (f : Flow) (ctx : Context) (facts : String → Fact) (s : Subcategory)
    (kind : AlertKind) : String → Option String → Prop where
  /-- In the context of an item, what is raised for it on any screen is about it. -/
  | inContext {item key : String} {x : Screen} (context : itemAt facts s = some item)
      (screen : x ∈ f.screensOf s) (raised : x.Raises ctx facts kind key (some item)) :
      Reports f ctx facts s kind key (some item)
  /-- What is raised for an item of a loop on one of its screens is about that item. -/
  | ofMember {member key : String} {x : Screen} {l : Loop} (screen : x ∈ f.screensOf s)
      (isLoop : l ∈ f.loops) (inLoop : x.loopName = some l.name)
      (isMember : member ∈ (facts l.collection).items)
      (raised : x.Raises ctx facts kind key (some member)) :
      Reports f ctx facts s kind key (some member)
  /-- Without a context, what is raised outside of loops is about no item. -/
  | outside {key : String} {x : Screen} (context : itemAt facts s = none)
      (screen : x ∈ f.screensOf s) (outside : x.loopName = none)
      (raised : x.Raises ctx facts kind key none) : Reports f ctx facts s kind key none
  /-- Without a context, what is raised in a loop through no items is about none. -/
  | ofEmptyLoop {key : String} {x : Screen} {l : Loop} (context : itemAt facts s = none)
      (screen : x ∈ f.screensOf s) (isLoop : l ∈ f.loops) (inLoop : x.loopName = some l.name)
      (isEmpty : (facts l.collection).items = []) (raised : x.Raises ctx facts kind key none) :
      Reports f ctx facts s kind key none

/-! ## One screen -/

namespace Screen

variable {x : Screen} {kind : AlertKind} {key : String} {about : Option String}

/-- For an item, an alert is raised if its conditions hold, and is about that item. -/
theorem run_raisedFor_some {item : String} {members : List String} {conditions : List Condition} :
    (raisedFor ctx (some item) members conditions).run facts = some about ↔
      (Condition.allHold ctx (some item) conditions).run facts = true ∧ about = some item := by
  simp only [raisedFor, Reading.run_bind, Reading.run_pure]
  split
  · next h => simp [h, eq_comm]
  · next h => simp [h]

/-- Without an item, an alert is raised about the first item that its conditions hold for, or else
about none. As they hold for all items if they hold without one, the latter is only the case if
there are no items. -/
theorem run_raisedFor_none {members : List String} {conditions : List Condition} :
    (raisedFor ctx none members conditions).run facts = some about ↔
      (∃ member, members.find? (fun member =>
          (Condition.allHold ctx (some member) conditions).run facts) = some member ∧
        about = some member) ∨
      members = [] ∧ (Condition.allHold ctx none conditions).run facts = true ∧
        about = none := by
  simp only [raisedFor, Reading.run_bind, Reading.run_findM?, Reading.run_pure]
  cases hfind : members.find? fun member =>
      (Condition.allHold ctx (some member) conditions).run facts with
  | some member =>
    have hne : members ≠ [] := by
      rintro rfl
      cases hfind
    simp only [Option.isSome_some, Bool.or_true, if_true, Option.some.injEq, exists_eq_left', hne,
      false_and, or_false]
    exact eq_comm
  | none =>
    cases hholds : (Condition.allHold ctx none conditions).run facts with
    | false => simp
    | true =>
      -- the conditions would hold for the first item
      have hnil : members = [] := by
        refine List.eq_nil_iff_forall_not_mem.mpr fun member hmember => ?_
        have hfails := List.find?_eq_none.mp hfind member hmember
        exact hfails (Condition.allHold_of_none hholds (some member))
      subst hnil
      simp only [Bool.true_or, if_true, Option.some.injEq, reduceCtorEq, false_and, exists_false,
        true_and, false_or]
      exact eq_comm

/-- The alerts of a screen are those that are declared on it and raised. -/
theorem mem_taxReturnAlerts {item : Option String} {a : Alert} :
    a ∈ (x.taxReturnAlerts ctx item).run facts ↔
      ∃ e ∈ x.content, ∃ kind key paths, e.content = .taxReturnAlert kind key paths ∧
        ∃ about, (raisedFor ctx item (x.loopItems.run facts) e.conditions).run facts = some about ∧
          a = x.alert item about kind key paths none := by
  simp only [taxReturnAlerts, Reading.run_bind, Reading.run_mapM, Reading.run_pure,
    List.mem_filterMap, List.mem_map]
  constructor
  · rintro ⟨_, ⟨e, he, hraised⟩, rfl⟩
    refine ⟨e, he, ?_⟩
    cases hcontent : e.content with
    | taxReturnAlert kind key paths =>
      rw [hcontent] at hraised
      simp only [Reading.run_bind, Reading.run_pure] at hraised
      obtain ⟨about, habout, rfl⟩ := Option.map_eq_some_iff.mp hraised
      exact ⟨kind, key, paths, rfl, about, habout, rfl⟩
    | heading | info | field | setFact | rejectionAlert | collectionManager | collectionPreview
    | saveAndContinue | setFactAndContinue | exit | submit | knockout | link | dataViewLink =>
      rw [hcontent] at hraised
      cases hraised
  · rintro ⟨e, he, kind, key, paths, hcontent, about, habout, rfl⟩
    refine ⟨_, ⟨e, he, ?_⟩, rfl⟩
    rw [hcontent]
    simp [habout]

theorem exists_taxReturnAlert_iff {item : Option String} :
    (∃ a ∈ (x.taxReturnAlerts ctx item).run facts, a.kind = kind ∧ a.subject = (key, about)) ↔
      ∃ e ∈ x.content, ∃ paths, e.content = .taxReturnAlert kind key paths ∧
        (raisedFor ctx item (x.loopItems.run facts) e.conditions).run facts = some about := by
  simp only [mem_taxReturnAlerts]
  constructor
  · rintro ⟨_, ⟨e, he, kind', key', paths, hcontent, about', habout, rfl⟩, rfl, hsubject⟩
    obtain ⟨rfl, rfl⟩ := Prod.mk.inj hsubject
    exact ⟨e, he, paths, hcontent, habout⟩
  · rintro ⟨e, he, paths, hcontent, habout⟩
    exact ⟨_, ⟨e, he, kind, key, paths, hcontent, about, habout, rfl⟩, rfl, rfl⟩

/-- For an item, what a screen raises is about that item. -/
theorem exists_alert_some_iff {item : String} :
    (∃ a ∈ (x.taxReturnAlerts ctx (some item)).run facts, a.kind = kind ∧
      a.subject = (key, about)) ↔ about = some item ∧ x.Raises ctx facts kind key (some item) := by
  simp only [exists_taxReturnAlert_iff, run_raisedFor_some, Raises]
  constructor
  · rintro ⟨e, he, paths, hcontent, hholds, habout⟩
    exact ⟨habout, e, he, paths, hcontent, hholds⟩
  · rintro ⟨habout, e, he, paths, hcontent, hholds⟩
    exact ⟨e, he, paths, hcontent, hholds, habout⟩

/-- Without an item, what a screen raises is about one of the items of its loop, or about none if
there are none. -/
theorem raises_of_alert_none
    (h : ∃ a ∈ (x.taxReturnAlerts ctx none).run facts, a.kind = kind ∧ a.subject = (key, about)) :
    (∃ member ∈ x.loopItems.run facts, about = some member ∧
        x.Raises ctx facts kind key (some member)) ∨
      x.loopItems.run facts = [] ∧ about = none ∧ x.Raises ctx facts kind key none := by
  obtain ⟨e, he, paths, hcontent, hraised⟩ := exists_taxReturnAlert_iff.mp h
  rcases run_raisedFor_none.mp hraised with ⟨member, hfind, habout⟩ | ⟨hnil, hholds, habout⟩
  · have hholds := List.find?_some hfind
    exact .inl ⟨member, List.mem_of_find?_eq_some hfind, habout, e, he, paths, hcontent, hholds⟩
  · exact .inr ⟨hnil, habout, e, he, paths, hcontent, hholds⟩

/-- Where there are no items, what is raised without one is about none. -/
theorem exists_alert_of_raises_none (hnil : x.loopItems.run facts = [])
    (h : x.Raises ctx facts kind key none) :
    ∃ a ∈ (x.taxReturnAlerts ctx none).run facts, a.kind = kind ∧ a.subject = (key, none) := by
  obtain ⟨e, he, paths, hcontent, hholds⟩ := h
  refine exists_taxReturnAlert_iff.mpr ⟨e, he, paths, hcontent, ?_⟩
  exact run_raisedFor_none.mpr (.inr ⟨hnil, hholds, rfl⟩)

end Screen

namespace Flow

/-- A screen outside of loops has no items. -/
theorem run_loopItems_outside {x : Screen} (houtside : x.loopName = none) :
    x.loopItems.run facts = [] := by
  have hnone : x.membership = none := Option.map_eq_none_iff.mp houtside
  simp [Screen.loopItems, hnone]

/-- A screen of a loop has the items that the loop goes through. -/
theorem run_loopItems_inside (hf : f.Arranged) {x : Screen} {l : Loop} (hl : l ∈ f.loops)
    (hx : x ∈ f.screensOfLoop l) : x.loopItems.run facts = (facts l.collection).items := by
  obtain ⟨hmembership, hcollection, -⟩ := hf.of_mem_screensOfLoop hl hx
  simp [Screen.loopItems, hmembership, hcollection]

/-! ## The two passes -/

section

variable {s : Subcategory} {kind : AlertKind} {key : String} {about : Option String}

theorem exists_mem_screenAlerts_iff {item : Option String} {xs : List Screen} {P : Alert → Prop} :
    (∃ a ∈ (screenAlerts ctx item xs).run facts, P a) ↔
      ∃ x ∈ xs, ∃ a ∈ (x.taxReturnAlerts ctx item).run facts, P a := by
  simp only [screenAlerts, Reading.run_bind, Reading.run_mapM, Reading.run_pure,
    ← List.flatMap_def, List.mem_flatMap]
  constructor
  · rintro ⟨a, ⟨x, hx, ha⟩, hP⟩
    exact ⟨x, hx, a, ha, hP⟩
  · rintro ⟨x, hx, a, ha, hP⟩
    exact ⟨a, ⟨x, hx, ha⟩, hP⟩

theorem exists_mem_loopAlerts_iff {ls : List Loop} {P : Alert → Prop} :
    (∃ a ∈ (f.loopAlerts ctx ls).run facts, P a) ↔
      ∃ l ∈ ls, ∃ member ∈ (facts l.collection).items, ∃ x ∈ f.screensOfLoop l,
        ∃ a ∈ (x.taxReturnAlerts ctx (some member)).run facts, P a := by
  simp only [loopAlerts, alertsOfLoop, Loop.items, Reading.run_bind, Reading.run_mapM,
    Reading.run_items, Reading.run_pure, ← List.flatMap_def, List.mem_flatMap]
  constructor
  · rintro ⟨a, ⟨l, hl, member, hmember, ha⟩, hP⟩
    exact ⟨l, hl, member, hmember, exists_mem_screenAlerts_iff.mp ⟨a, ha, hP⟩⟩
  · rintro ⟨l, hl, member, hmember, hscreen⟩
    obtain ⟨a, ha, hP⟩ := exists_mem_screenAlerts_iff.mpr hscreen
    exact ⟨a, ⟨l, hl, member, hmember, ha⟩, hP⟩

/-- What the second pass finds is about the items of the loops. -/
theorem exists_loopAlert_iff (hf : f.Arranged) :
    (∃ a ∈ (f.loopAlerts ctx (f.loopsOf s)).run facts, a.kind = kind ∧ a.subject = (key, about)) ↔
      ∃ x ∈ f.screensOf s, ∃ l ∈ f.loops, x.loopName = some l.name ∧
        ∃ member ∈ (facts l.collection).items, about = some member ∧
          x.Raises ctx facts kind key (some member) := by
  simp only [exists_mem_loopAlerts_iff, Screen.exists_alert_some_iff]
  constructor
  · rintro ⟨l, hloop, member, hmember, x, hx, habout, hraised⟩
    have hl := (mem_loopsOf.mp hloop).1
    have hscreen : x ∈ f.screensOf s := (hf.mem_screensOf_iff hl hx).mpr hloop
    have hname := (mem_screensOfLoop.mp hx).2
    exact ⟨x, hscreen, l, hl, hname, member, hmember, habout, hraised⟩
  · rintro ⟨x, hscreen, l, hl, hname, member, hmember, habout, hraised⟩
    have hinside : x ∈ f.screensOfLoop l :=
      mem_screensOfLoop.mpr ⟨(mem_screensOf.mp hscreen).1, hname⟩
    have hloop : l ∈ f.loopsOf s := (hf.mem_screensOf_iff hl hinside).mp hscreen
    exact ⟨l, hloop, member, hmember, x, hinside, habout, hraised⟩

/-- What the first pass finds is to be reported. -/
theorem reports_of_screenAlert (hf : f.Arranged)
    (h : ∃ a ∈ (screenAlerts ctx (itemAt facts s) (f.screensOf s)).run facts,
      a.kind = kind ∧ a.subject = (key, about)) : f.Reports ctx facts s kind key about := by
  obtain ⟨x, hx, halert⟩ := exists_mem_screenAlerts_iff.mp h
  cases hitem : itemAt facts s with
  | some item =>
    rw [hitem] at halert
    obtain ⟨rfl, hraised⟩ := Screen.exists_alert_some_iff.mp halert
    exact .inContext hitem hx hraised
  | none =>
    rw [hitem] at halert
    have hscreen : x ∈ f.screens := (List.mem_filter.mp hx).1
    rcases Screen.raises_of_alert_none halert with
      ⟨member, hmember, rfl, hraised⟩ | ⟨hnil, rfl, hraised⟩
    · -- only screens of loops have items
      cases hname : x.loopName with
      | none =>
        rw [run_loopItems_outside hname] at hmember
        cases hmember
      | some name =>
        obtain ⟨l, hl, rfl⟩ := hf.exists_loop_of_loopName hscreen hname
        rw [run_loopItems_inside hf hl (mem_screensOfLoop.mpr ⟨hscreen, hname⟩)] at hmember
        exact .ofMember hx hl hname hmember hraised
    · cases hname : x.loopName with
      | none => exact .outside hitem hx hname hraised
      | some name =>
        obtain ⟨l, hl, rfl⟩ := hf.exists_loop_of_loopName hscreen hname
        rw [run_loopItems_inside hf hl (mem_screensOfLoop.mpr ⟨hscreen, hname⟩)] at hnil
        exact .ofEmptyLoop hitem hx hl hname hnil hraised

/-- The two passes together find what is to be reported. -/
theorem exists_alert_iff_reports (hf : f.Arranged) :
    (∃ a ∈ (screenAlerts ctx (itemAt facts s) (f.screensOf s)).run facts ++
        (f.loopAlerts ctx (f.loopsOf s)).run facts, a.kind = kind ∧ a.subject = (key, about)) ↔
      f.Reports ctx facts s kind key about := by
  simp only [List.mem_append, or_and_right, exists_or]
  constructor
  · rintro (hown | hloop)
    · exact reports_of_screenAlert hf hown
    · obtain ⟨x, hx, l, hl, hname, member, hmember, rfl, hraised⟩ :=
        (exists_loopAlert_iff hf).mp hloop
      exact .ofMember hx hl hname hmember hraised
  · intro h
    cases h with
    | inContext hitem hx hraised =>
      refine .inl (exists_mem_screenAlerts_iff.mpr ⟨_, hx, ?_⟩)
      rw [hitem]
      exact Screen.exists_alert_some_iff.mpr ⟨rfl, hraised⟩
    | ofMember hx hl hname hmember hraised =>
      exact .inr ((exists_loopAlert_iff hf).mpr ⟨_, hx, _, hl, hname, _, hmember, rfl, hraised⟩)
    | outside hitem hx hname hraised =>
      refine .inl (exists_mem_screenAlerts_iff.mpr ⟨_, hx, ?_⟩)
      rw [hitem]
      exact Screen.exists_alert_of_raises_none (run_loopItems_outside hname) hraised
    | ofEmptyLoop hitem hx hl hname hnil hraised =>
      refine .inl (exists_mem_screenAlerts_iff.mpr ⟨_, hx, ?_⟩)
      have hinside := mem_screensOfLoop.mpr ⟨(List.mem_filter.mp hx).1, hname⟩
      rw [hitem]
      exact Screen.exists_alert_of_raises_none ((run_loopItems_inside hf hl hinside).trans hnil)
        hraised

variable (f ctx facts) in
/-- The alerts of a row are those of the two passes, collected. -/
theorem collects_rowAlerts (s : Subcategory) :
    ((f.rowAlerts ctx s (itemAt facts s)).run facts).Collects
      ((screenAlerts ctx (itemAt facts s) (f.screensOf s)).run facts ++
        (f.loopAlerts ctx (f.loopsOf s)).run facts) := by
  simp only [rowAlerts, Reading.run_bind, Reading.run_pure]
  exact (Alerts.Collects.empty.pushAll _).merge (Alerts.Collects.empty.pushAll _)

end

/-! ## Rows -/

/-- Collected alerts are those that a subcategory has to report, each once. -/
structure HasReports (f : Flow) (ctx : Context) (facts : String → Fact) (s : Subcategory)
    (a : Alerts) : Prop where
  /-- The alerts in the list for a kind are of that kind. -/
  kind : ∀ k, ∀ x ∈ a.ofKind k, x.kind = k
  /-- No two of them have the same message about the same item. -/
  once : ∀ k, ((a.ofKind k).map fun x => (x.key, x.item)).Nodup
  /-- There is one for each message to be reported and for no other. -/
  reports : ∀ k key item, (key, item) ∈ (a.ofKind k).map (fun x => (x.key, x.item)) ↔
    f.Reports ctx facts s k key item

theorem hasReports_rowAlerts (hf : f.Arranged) (s : Subcategory) :
    f.HasReports ctx facts s ((f.rowAlerts ctx s (itemAt facts s)).run facts) := by
  obtain ⟨hkind, honce, hsubjects⟩ := f.collects_rowAlerts ctx facts s
  refine ⟨hkind, honce, fun k key item => ?_⟩
  exact (hsubjects k (key, item)).trans (exists_alert_iff_reports hf)

/-- A category that is not active becomes so with its first row, if all rows before are complete. -/
theorem categoryActive_checklistRows (state : ChecklistState) (xs : List Subcategory) :
    ((f.checklistRows ctx submission state xs).run facts).2.categoryActive =
      (state.categoryActive || (state.allComplete &&
        !((f.checklistRows ctx submission state xs).run facts).1.isEmpty)) := by
  induction xs generalizing state with
  | nil => simp [checklistRows]
  | cons s xs ih =>
    rw [run_checklistRows_cons, run_checklistRow]
    cases hshown : isShown ctx facts s with
    | false => simpa using ih state
    | true =>
      obtain ⟨-, hstate⟩ := f.run_displayedRow ctx facts submission s state
      simp only [if_true, hstate, ih, Option.toList_some, List.singleton_append, List.isEmpty_cons]
      cases state.allComplete <;> simp

/-- Whether the rows of a category have alerts does not change from one to the next. -/
theorem exists_of_mem_checklistRows {state : ChecklistState} {xs : List Subcategory}
    {row : ChecklistRow} (hrow : row ∈ ((f.checklistRows ctx submission state xs).run facts).1) :
    ∃ s ∈ xs, s.route = row.subcategoryRoute ∧ row.alerts =
      if state.categoryActive || state.allComplete then
        (f.rowAlerts ctx s (itemAt facts s)).run facts
      else .empty := by
  induction xs generalizing state with
  | nil => cases hrow
  | cons s xs ih =>
    rw [run_checklistRows_cons, run_checklistRow] at hrow
    cases hshown : isShown ctx facts s with
    | false =>
      rw [hshown] at hrow
      obtain ⟨t, ht, hfields⟩ := ih hrow
      exact ⟨t, List.mem_cons_of_mem s ht, hfields⟩
    | true =>
      obtain ⟨hmark, hstate⟩ := f.run_displayedRow ctx facts submission s state
      rw [hshown, if_pos rfl] at hrow
      rcases List.mem_append.mp hrow with hfirst | hrest
      · obtain rfl := List.mem_singleton.mp hfirst
        have hroute := (ChecklistMark.mk.inj hmark).1
        have halerts := (f.links_and_alerts_displayedRow ctx facts submission s state).2.1
        exact ⟨s, List.mem_cons_self, hroute.symm, halerts⟩
      · obtain ⟨t, ht, hroute, halerts⟩ := ih hrest
        -- what this row carries on leaves the decision as it is
        have hsame : (state.categoryActive || state.allComplete ||
            (state.allComplete && f.isSettled ctx facts s)) =
            (state.categoryActive || state.allComplete) := by
          cases state.categoryActive <;> cases state.allComplete <;> simp
        rw [hstate] at halerts
        simp only [hsame] at halerts
        exact ⟨t, List.mem_cons_of_mem s ht, hroute, halerts⟩

/-- The rows of a category are those of subcategories at its position. -/
theorem exists_of_mem_checklistCategories {state : ChecklistState}
    {categories : List (Category × Nat)} {c : ChecklistCategory}
    (hc : c ∈ (f.checklistCategories ctx submission state categories).run facts) :
    ∃ position allComplete, let out :=
        (f.checklistRows ctx submission ⟨allComplete, false⟩ (f.subcategoriesOf position)).run facts
      c.rows = out.1 ∧ c.active = out.2.categoryActive := by
  induction categories generalizing state with
  | nil => cases hc
  | cons first categories ih =>
    rw [run_checklistCategories_cons] at hc
    rcases List.mem_cons.mp hc with rfl | hc
    · exact ⟨first.2, state.allComplete, rfl, rfl⟩
    · exact ih hc

/-- **The rows of active categories have the alerts that are to be reported**, each once, and the
other rows have none. -/
theorem rows_report {o : Outline} (hbuild : build o = .ok f) :
    ∀ c ∈ (f.checklist ctx submission).run facts, ∀ row ∈ c.rows,
      ∃ s, f.subcategory? row.subcategoryRoute = some s ∧
        (c.active = true → f.HasReports ctx facts s row.alerts) ∧
        (c.active = false → row.alerts = .empty) := by
  intro c hc row hrow
  have hf := arranged_of_build hbuild
  obtain ⟨position, allComplete, hrows, hactive⟩ := exists_of_mem_checklistCategories hc
  rw [hrows] at hrow
  obtain ⟨s, hs, hroute, halerts⟩ := exists_of_mem_checklistRows hrow
  have hs : s ∈ f.subcategories := (List.mem_filter.mp hs).1
  -- a category with a row is active if all rows before it are complete
  have hdecides : c.active = allComplete := by
    rw [hactive, categoryActive_checklistRows, List.isEmpty_eq_false_iff_exists_mem.mpr ⟨row, hrow⟩]
    simp
  refine ⟨s, hroute ▸ hf.subcategory?_eq_some hs, fun h => ?_, fun h => ?_⟩
  · rw [halerts, ← hdecides, h]
    exact hasReports_rowAlerts hf s
  · rw [halerts, ← hdecides, h]
    rfl

end Flow

/-! ## An example

There is something to tell about the household and about those of its people who are new. The
section for signing cannot be opened yet. -/

namespace Household

/-- A page with a warning. -/
def warningPage (route : String) (conditions : List Condition) : Node :=
  .screen ⟨route, none, none, false, false, false, [⟨.heading route, [], []⟩,
    ⟨.taxReturnAlert .warning route [], conditions, []⟩, ⟨.saveAndContinue, [], []⟩]⟩

/-- The family, with its people, and the section for signing. -/
def warningOutline : Outline :=
  ⟨.empty, [
    .category "you" [.subcategory ⟨"family", [], [], false, false, false, none⟩
      [warningPage "start" [],
       .loop ⟨"people", some "/people", true, false, none, none, none⟩
         [warningPage "name" [.fact "/people/*/isNew" .isTrue]]]],
    .category "end" [.subcategory ⟨"sign", [], [], false, false, false, none⟩
      [warningPage "sign" []]]]⟩

/-- The flow of the outline. -/
def warningFlow : Flow :=
  (Flow.build warningOutline).toOption.getD (.empty .empty)

end Household

namespace Flow

open Household in
/-- Bob is new. The family has a warning about no one and one about him; the section for signing has
none, as its category is not active. -/
theorem rows_report_household : build warningOutline = .ok warningFlow ∧
    ∃ c d row, (warningFlow.checklist default none).run (Household.facts ["/people/#bob/isNew"]) =
        [c, d] ∧ row ∈ c.rows ∧ c.active = true ∧
      row.alerts.warnings.map (fun a => (a.key, a.item)) = [("start", none), ("name", some "bob")] ∧
      (∃ s, warningFlow.subcategory? "/flow/you/family" = some s ∧
        warningFlow.HasReports default (Household.facts ["/people/#bob/isNew"]) s row.alerts) ∧
      d.active = false ∧ d.rows.map (·.alerts) = [.empty] := by
  have hbuild : build warningOutline = .ok warningFlow := rfl
  have hreport : ∀ c ∈ (warningFlow.checklist default none).run
      (Household.facts ["/people/#bob/isNew"]), ∀ row ∈ c.rows, _ := rows_report hbuild
  refine ⟨hbuild, _, _, _, rfl, List.mem_cons_self, rfl, rfl, ?_, rfl, rfl⟩
  obtain ⟨s, hs, hactive, -⟩ := hreport _ List.mem_cons_self _ List.mem_cons_self
  exact ⟨s, hs, hactive rfl⟩

end Flow

end Interview

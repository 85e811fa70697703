import Interview.Proofs.RowAlerts

/-!
# The links of alerts

An alert of a checklist row links to a screen that declares it. The link names the item that the
alert is about, with one exception. A subcategory that is shown for no item collects what is raised
on the screens of its loops as well, and finds the item that an alert is about only then: the link
has been made without one. The second pass, item by item, would link to the item, but what it finds
about this item is left out as known already.
-/

namespace Interview

variable {f : Flow} {ctx : Context} {facts : String → Fact} {submission : Option Submission}

/-! ## Links -/

namespace Screen

/-- The first item of the loop of a screen for which the conditions of one of its elements hold. -/
def firstItem (ctx : Context) (facts : String → Fact) (x : Screen) (e : Element) : Option String :=
  (x.loopItems.run facts).find? fun member =>
    (Condition.allHold ctx (some member) e.conditions).run facts

/-- The item that the link of an alert names, in a subcategory shown for the item given as
context: the one that the alert is about, unless there is no context and it is the first one for
which the alert is raised. -/
def linkItem (ctx : Context) (facts : String → Fact) (context : Option String) (x : Screen)
    (e : Element) (about : Option String) : Option String :=
  if context = none ∧ about = x.firstItem ctx facts e then none else about

/-- An alert is declared as an element of a screen, its conditions hold for the item that it is
about, and it links to the screen. -/
structure Links (ctx : Context) (facts : String → Fact) (context : Option String) (x : Screen)
    (e : Element) (a : Alert) : Prop where
  declared : e.content = .taxReturnAlert a.kind a.key a.factPaths
  raised : (Condition.allHold ctx a.item e.conditions).run facts = true
  address : a.address = x.address (x.linkItem ctx facts context e a.item) false

theorem linkItem_of_some {item : String} {x : Screen} {e : Element} {about : Option String} :
    x.linkItem ctx facts (some item) e about = about :=
  if_neg fun h => nomatch h.1

theorem linkItem_of_firstItem {x : Screen} {e : Element} {about : Option String}
    (h : about = x.firstItem ctx facts e) : x.linkItem ctx facts none e about = none :=
  if_pos ⟨rfl, h⟩

/-! ## The two passes -/

/-- In the context of a subcategory, an alert links to the item of the context, if there is one. -/
theorem links_of_mem_taxReturnAlerts {context : Option String} {x : Screen} {a : Alert}
    (ha : a ∈ (x.taxReturnAlerts ctx context).run facts) :
    ∃ e ∈ x.content, x.Links ctx facts context e a := by
  obtain ⟨e, he, kind, key, paths, hcontent, about, habout, rfl⟩ := mem_taxReturnAlerts.mp ha
  refine ⟨e, he, hcontent, ?_, congrArg (x.address · false) ?_⟩
  · cases context with
    | some item =>
      obtain ⟨hholds, rfl⟩ := run_raisedFor_some.mp habout
      exact hholds
    | none =>
      rcases run_raisedFor_none.mp habout with ⟨member, hfind, rfl⟩ | ⟨-, hholds, rfl⟩
      · have hholds := List.find?_some hfind
        exact hholds
      · exact hholds
  · cases context with
    | some item =>
      obtain ⟨-, rfl⟩ := run_raisedFor_some.mp habout
      exact linkItem_of_some.symm
    | none =>
      rcases run_raisedFor_none.mp habout with ⟨member, hfind, rfl⟩ | ⟨hnil, -, rfl⟩
      · exact (linkItem_of_firstItem hfind.symm).symm
      · refine (linkItem_of_firstItem ?_).symm
        rw [firstItem, hnil]
        rfl

/-- Item by item, an alert links to the item that it is about, if the pass without an item has
nothing to say about that. -/
theorem links_of_mem_taxReturnAlerts_member {context : Option String} {x : Screen} {member : String}
    {a : Alert} (ha : a ∈ (x.taxReturnAlerts ctx (some member)).run facts)
    (hfresh : context = none → ¬∃ b ∈ (x.taxReturnAlerts ctx none).run facts,
      b.kind = a.kind ∧ b.subject = a.subject) :
    ∃ e ∈ x.content, x.Links ctx facts context e a := by
  obtain ⟨e, he, kind, key, paths, hcontent, about, habout, rfl⟩ := mem_taxReturnAlerts.mp ha
  obtain ⟨hholds, rfl⟩ := run_raisedFor_some.mp habout
  refine ⟨e, he, hcontent, hholds, congrArg (x.address · false) ?_⟩
  -- the first item has been found in the pass without an item
  refine (if_neg ?_).symm
  rintro ⟨hcontext, hfirst⟩
  refine hfresh hcontext (exists_taxReturnAlert_iff.mpr ⟨e, he, paths, hcontent, ?_⟩)
  exact run_raisedFor_none.mpr (.inl ⟨member, hfirst.symm, rfl⟩)

/-- The alerts of a screen about a rejected return are those that are declared on it for one of the
reasons and raised. -/
theorem mem_rejectionAlerts {sub : Submission} {item : Option String} {x : Screen} {a : Alert} :
    a ∈ (x.rejectionAlerts ctx sub item).run facts ↔
      ∃ e ∈ x.content, ∃ kind key code paths, e.content = .rejectionAlert kind key code paths ∧
        sub.hasCode code = true ∧ (Condition.allHold ctx item e.conditions).run facts = true ∧
        a = x.alert item item kind key paths (some code) := by
  simp only [rejectionAlerts, Reading.run_bind, Reading.run_mapM, Reading.run_pure,
    List.mem_filterMap, List.mem_map]
  constructor
  · rintro ⟨_, ⟨e, he, hraised⟩, rfl⟩
    refine ⟨e, he, ?_⟩
    cases hcontent : e.content with
    | rejectionAlert kind key code paths =>
      simp only [hcontent, Reading.run_ite, Reading.run_bind, Reading.run_pure] at hraised
      split at hraised
      · next hcode =>
        split at hraised
        · next hholds =>
          exact ⟨kind, key, code, paths, rfl, hcode, hholds, (Option.some.inj hraised).symm⟩
        · cases hraised
      · cases hraised
    | heading | info | field | setFact | taxReturnAlert | collectionManager | collectionPreview
    | saveAndContinue | setFactAndContinue | exit | submit | knockout | link | dataViewLink =>
      rw [hcontent] at hraised
      cases hraised
  · rintro ⟨e, he, kind, key, code, paths, hcontent, hcode, hholds, rfl⟩
    refine ⟨_, ⟨e, he, ?_⟩, rfl⟩
    rw [hcontent]
    simp [hcode, hholds]

/-- An alert about a rejected return links to the item that it is about. -/
theorem links_of_mem_rejectionAlerts {sub : Submission} {item : Option String} {x : Screen}
    {a : Alert} (ha : a ∈ (x.rejectionAlerts ctx sub item).run facts) :
    ∃ e ∈ x.content, ∃ code, e.content = .rejectionAlert a.kind a.key code a.factPaths ∧
      a.address = x.address a.item false := by
  obtain ⟨e, he, kind, key, code, paths, hcontent, -, -, rfl⟩ := mem_rejectionAlerts.mp ha
  exact ⟨e, he, code, hcontent, rfl⟩

end Screen

namespace Flow

/-! ## Rows -/

/-- What is collected in two passes has been found in the first one, or in the second one about
something that the first has not found anything about. -/
theorem mem_rowAlerts {s : Subcategory} {k : AlertKind} {a : Alert}
    (ha : a ∈ ((f.rowAlerts ctx s (itemAt facts s)).run facts).ofKind k) :
    a ∈ (screenAlerts ctx (itemAt facts s) (f.screensOf s)).run facts ∨
    a ∈ (f.loopAlerts ctx (f.loopsOf s)).run facts ∧
      ¬∃ b ∈ (screenAlerts ctx (itemAt facts s) (f.screensOf s)).run facts,
        b.kind = a.kind ∧ b.subject = a.subject := by
  simp only [rowAlerts, Reading.run_bind, Reading.run_pure] at ha
  have hnew (xs : List Alert) (k : AlertKind) (h : a ∈ (Alerts.empty.pushAll xs).ofKind k) :
      a ∈ xs := by
    rcases Alerts.mem_pushAll h with h | ⟨h, -⟩
    · cases k <;> cases h
    · exact h
  rcases Alerts.mem_pushAll ha with hown | ⟨hloop, rfl, hfresh⟩
  · exact .inl (hnew _ k hown)
  · refine .inr ⟨?_, fun hown => hfresh ?_⟩
    · rcases List.mem_append.mp hloop with hwarning | herror
      · exact hnew _ .warning hwarning
      · exact hnew _ .error herror
    · exact ((Alerts.Collects.empty.pushAll _).subjects a.kind a.subject).mpr hown

theorem links_rowAlerts (hf : f.Arranged) {s : Subcategory} {k : AlertKind} {a : Alert}
    (ha : a ∈ ((f.rowAlerts ctx s (itemAt facts s)).run facts).ofKind k) :
    ∃ x ∈ f.screensOf s, ∃ e ∈ x.content, x.Links ctx facts (itemAt facts s) e a := by
  rcases mem_rowAlerts ha with hown | ⟨hloop, hfresh⟩
  · obtain ⟨x, hx, b, hb, rfl⟩ := exists_mem_screenAlerts_iff.mp ⟨a, hown, rfl⟩
    exact ⟨x, hx, Screen.links_of_mem_taxReturnAlerts hb⟩
  · obtain ⟨l, hl, member, -, x, hx, b, hb, rfl⟩ := exists_mem_loopAlerts_iff.mp ⟨a, hloop, rfl⟩
    have hscreen : x ∈ f.screensOf s := (hf.mem_screensOf_iff (mem_loopsOf.mp hl).1 hx).mpr hl
    refine ⟨x, hscreen, Screen.links_of_mem_taxReturnAlerts_member hb fun hnone hfound => hfresh ?_⟩
    rw [hnone]
    exact exists_mem_screenAlerts_iff.mpr ⟨x, hscreen, hfound⟩

theorem links_rowRejectionAlerts {s : Subcategory} {k : AlertKind} {a : Alert}
    (ha : a ∈ ((f.rowRejectionAlerts ctx submission s (itemAt facts s)).run facts).ofKind k) :
    ∃ x ∈ f.screensOf s, ∃ e ∈ x.content, ∃ code,
      e.content = .rejectionAlert a.kind a.key code a.factPaths ∧
      a.address = x.address a.item false := by
  have hempty (h : a ∈ Alerts.empty.ofKind k) : False := by cases k <;> cases h
  unfold rowRejectionAlerts at ha
  cases submission with
  | none => exact (hempty ha).elim
  | some sub =>
    simp only [Reading.run_ite, Reading.run_bind, Reading.run_pure] at ha
    split at ha
    · rcases Alerts.mem_pushAll ha with h | ⟨hmem, -⟩
      · exact (hempty h).elim
      · simp only [rejectionAlerts, Reading.run_bind, Reading.run_mapM, Reading.run_pure,
          ← List.flatMap_def, List.mem_flatMap] at hmem
        obtain ⟨x, hx, ha⟩ := hmem
        exact ⟨x, hx, Screen.links_of_mem_rejectionAlerts ha⟩
    · exact (hempty ha).elim

/-- **The alerts of every row link to screens that declare them**, for the item that they are about,
except that in a subcategory shown for no item the link to the first item for which an alert is
raised names none. -/
theorem alerts_link {o : Outline} (hbuild : build o = .ok f) :
    ∀ c ∈ (f.checklist ctx submission).run facts, ∀ row ∈ c.rows,
      ∃ s, f.subcategory? row.subcategoryRoute = some s ∧
        (∀ k, ∀ a ∈ row.alerts.ofKind k, ∃ x ∈ f.screensOf s, ∃ e ∈ x.content,
          x.Links ctx facts (itemAt facts s) e a) ∧
        ∀ k, ∀ a ∈ row.rejectionAlerts.ofKind k, ∃ x ∈ f.screensOf s, ∃ e ∈ x.content, ∃ code,
          e.content = .rejectionAlert a.kind a.key code a.factPaths ∧
          a.address = x.address a.item false := by
  intro c hc row hrow
  have hf := arranged_of_build hbuild
  obtain ⟨s, hs, state, rfl⟩ := exists_displayedRow_of_mem hc hrow
  have hroute := (ChecklistMark.mk.inj (f.run_displayedRow ctx facts submission s state).1).1
  obtain ⟨-, halerts, hrejections⟩ := f.links_and_alerts_displayedRow ctx facts submission s state
  refine ⟨s, hroute ▸ hf.subcategory?_eq_some hs, fun k a ha => ?_, fun k a ha => ?_⟩
  · rw [halerts] at ha
    split at ha
    · exact links_rowAlerts hf ha
    · cases k <;> cases ha
  · rw [hrejections] at ha
    exact links_rowRejectionAlerts ha

end Flow

/-- The facts about the household when both of its people are new. -/
def Household.newcomers : String → Fact :=
  Household.facts ["/people/#ann/isNew", "/people/#bob/isNew"]

namespace Flow

open Household in
/-- The warning about Ann links to no one, the one about Bob links to him. -/
theorem alerts_link_household : build warningOutline = .ok warningFlow ∧
    ∃ c d row, (warningFlow.checklist default none).run newcomers = [c, d] ∧ row ∈ c.rows ∧
      row.alerts.warnings.map (fun a => (a.key, a.item, a.address)) =
        [("start", none, "/flow/you/family/start"), ("name", some "ann", "/flow/you/family/name"),
          ("name", some "bob", "/flow/you/family/name?%2Fpeople=bob")] ∧
      ∃ s, warningFlow.subcategory? row.subcategoryRoute = some s ∧
        (∀ k, ∀ a ∈ row.alerts.ofKind k, ∃ x ∈ warningFlow.screensOf s, ∃ e ∈ x.content,
          x.Links default newcomers (itemAt newcomers s) e a) ∧
        ∀ k, ∀ a ∈ row.rejectionAlerts.ofKind k, ∃ x ∈ warningFlow.screensOf s, ∃ e ∈ x.content,
          ∃ code, e.content = .rejectionAlert a.kind a.key code a.factPaths ∧
            a.address = x.address a.item false := by
  have hbuild : build warningOutline = .ok warningFlow := rfl
  have hlink : ∀ c ∈ (warningFlow.checklist default none).run newcomers, ∀ row ∈ c.rows, _ :=
    alerts_link hbuild
  refine ⟨hbuild, _, _, _, rfl, List.mem_cons_self, by decide +kernel, ?_⟩
  exact hlink _ List.mem_cons_self _ List.mem_cons_self

open Household in
/-- Not every alert links to the item that it is about: the warning about Ann does not. -/
theorem not_every_alert_linked : ¬∀ (o : Outline) (f : Flow) (ctx : Context)
    (facts : String → Fact) (submission : Option Submission), build o = .ok f →
    ∀ c ∈ (f.checklist ctx submission).run facts, ∀ row ∈ c.rows, ∀ k, ∀ a ∈ row.alerts.ofKind k,
      ∃ x ∈ f.screens, ∃ e ∈ x.content, e.content = .taxReturnAlert a.kind a.key a.factPaths ∧
        a.address = x.address a.item false := by
  intro hall
  have hchecklist : ∃ c d row a, (warningFlow.checklist default none).run newcomers = [c, d] ∧
      row ∈ c.rows ∧ a ∈ row.alerts.ofKind .warning ∧
      a.item = some "ann" ∧ a.address = "/flow/you/family/name" :=
    ⟨_, _, _, _, rfl, List.mem_cons_self, .tail _ (.head _), rfl, rfl⟩
  obtain ⟨c, d, row, a, hout, hrow, ha, hitem, haddress⟩ := hchecklist
  obtain ⟨x, hx, -, -, -, hlink⟩ :=
    hall warningOutline warningFlow default newcomers none rfl c (hout ▸ List.mem_cons_self) row
      hrow .warning a ha
  rw [hitem, haddress] at hlink
  -- the address of the page for the name names the person
  have hpages : ∀ x ∈ warningFlow.screens,
      x.address (some "ann") false ≠ "/flow/you/family/name" := by decide +kernel
  exact hpages x hx hlink.symm

end Flow

end Interview

import Interview.Proofs.Routing

/-!
# Where a step may lead

A step has seven ways to come to its result: the restart of a loop, the return to its overview, the
screen that the scan of all later screens finds (shown because it is a knockout, or because it is
near enough), the scan of what is left of a topic, the summary, and the checklist. Whichever it
takes, it stays near the screen it sets out from, and what it shows can be shown.
`Flow.MayLeadTo` says what that means for each kind of arrival, and `Flow.mayLeadTo_of_run_next`
shows it of every step.

For the item of an arrival the scans decide. What they carry along is either still the item that the
filer came with, in the loop of the screen that the filer came from, or it was taken up at the
entrance of a loop (`ScanState.IsFrom`).
-/

namespace Interview

variable {f : Flow} {ctx : Context} {facts : String → Fact} {s t : Screen}
  {item item' : Option String} {review : Bool}

/-! ## What may be arrived at -/

namespace Flow

/-- Whether a screen is shown because the loop of the current one is gone through again, for the
next item. -/
def IsRestart (f : Flow) (ctx : Context) (facts : String → Fact) (s : Screen)
    (item : Option String) (t : Screen) (item' : Option String) : Prop :=
  ∃ l ∈ f.loops, l.autoIterates = true ∧ s ∈ f.screensOfLoop l ∧ t ∈ f.screensOfLoop l ∧
    ∃ i i', item = some i ∧ itemAfter i (facts l.collection).items = some i' ∧ item' = some i' ∧
      f.firstAt ctx facts l i' = some t

/-- The item of a screen that belongs to a loop that leads from item to item: one of the collection,
or the one that the filer came with, from a screen of the same loop. -/
def HasItem (f : Flow) (facts : String → Fact) (s : Screen) (item : Option String) (t : Screen)
    (item' : Option String) : Prop :=
  ∀ l ∈ f.loops, l.autoIterates = true → t ∈ f.screensOfLoop l →
    (∃ i ∈ (facts l.collection).items, item' = some i) ∨ item' = item ∧ s ∈ f.screensOfLoop l

/-- What is true of a screen `t` that a step from `s` shows. -/
structure MayShow (f : Flow) (ctx : Context) (facts : String → Fact) (s : Screen)
    (item : Option String) (review : Bool) (t : Screen) (item' : Option String) : Prop where
  known : t ∈ f.screens
  available : t.availableAt ctx facts item' = true
  subcategory : review = false → t.subcategoryRoute = s.subcategoryRoute ∨ t.isKnockout = true
  topic : review = true → t.topicRoute = s.topicRoute ∨ t.isKnockout = true ∨
    f.IsRestart ctx facts s item t item'
  hasItem : f.HasItem facts s item t item'

/-- What is true of the arrival that a step from `s` leads to. -/
def MayLeadTo (f : Flow) (ctx : Context) (facts : String → Fact) (s : Screen)
    (item : Option String) (review : Bool) (a : Arrival) : Prop :=
  match a.destination with
  | .screen t => f.MayShow ctx facts s item review t a.item
  | .checklist => a.item = item
  | .dataView route anchor => a.item = item ∧ route = s.subcategoryRoute ∧
      ∀ x, anchor = some x → review = true ∧
        ∃ topic ∈ f.topics, s.topicRoute = some topic.fullRoute ∧ topic.route = x
  | .loopDataView name => a.item = item ∧ item.isSome = true ∧
      ∃ l ∈ f.loops, l.name = name ∧ l.autoIterates = false ∧ s ∈ f.screensOfLoop l

end Flow

/-! ## The item of a scan -/

/-- What a scan carries along: what it set out with, or, inside a loop that leads from item to item,
the first item of the collection. -/
def ScanState.IsFrom (f : Flow) (facts : String → Fact) (now start : ScanState) : Prop :=
  now = start ∨ ∀ l ∈ f.loops, l.autoIterates = true → now.loop = some l.name →
    now.item = (facts l.collection).items.head?

namespace Flow

/-- What a scan carries along when it looks at one screen more. -/
theorem isFrom_looking (hf : f.Arranged) {start now : ScanState} (ht : t ∈ f.screens)
    (hfrom : now.IsFrom f facts start) : (now.looking facts t).IsFrom f facts start := by
  by_cases hinside : t.loopName = now.loop ∧
      (now.item.isSome = true ∨ t.isAutoIterating = false)
  · rw [ScanState.looking_inside hinside.1 hinside.2]
    exact hfrom
  · right
    intro l hl hauto hloop
    rw [ScanState.looking_loop] at hloop
    have hmem : t ∈ f.screensOfLoop l := mem_screensOfLoop.mpr ⟨ht, hloop⟩
    have hiterates := (hf.isAutoIterating_of_mem hl hmem).trans hauto
    have hcollection := (hf.of_mem_screensOfLoop hl hmem).2.1
    have hentering : now.loop ≠ t.loopName ∨ now.item = none := by
      by_cases hsame : now.loop = t.loopName
      · right
        simpa [hsame, hiterates] using hinside
      · exact .inl hsame
    rw [ScanState.looking_entering hentering hiterates hcollection]

theorem isFrom_past (hf : f.Arranged) {start now : ScanState} {xs : List Screen}
    (hxs : ∀ x ∈ xs, x ∈ f.screens) (hfrom : now.IsFrom f facts start) :
    (now.past facts xs).IsFrom f facts start := by
  induction xs generalizing now with
  | nil => exact hfrom
  | cons x xs ih =>
    exact ih (fun y hy => hxs y (List.mem_cons_of_mem x hy))
      (isFrom_looking hf (hxs x List.mem_cons_self) hfrom)

/-- A screen that can be shown for what a scan carries along has its item from the collection or
from the filer. -/
theorem hasItem_of_isFrom (hf : f.Arranged) {now : ScanState} (hs : s ∈ f.screens)
    (hfrom : now.IsFrom f facts ⟨s.loopName, item⟩) (hloop : now.loop = t.loopName)
    (havail : t.availableAt ctx facts now.item = true) : f.HasItem facts s item t now.item := by
  intro l hl hauto ht
  have hname := (mem_screensOfLoop.mp ht).2
  rcases hfrom with rfl | hfirst
  · exact .inr ⟨rfl, mem_screensOfLoop.mpr ⟨hs, hloop.trans hname⟩⟩
  · left
    rw [hfirst l hl hauto (hloop.trans hname)] at havail ⊢
    cases hitems : (facts l.collection).items with
    | nil =>
      -- without items the screen could not be shown
      rw [availableAt_eq_false_of_items_nil ((hf.isAutoIterating_of_mem hl ht).trans hauto)
        (hf.of_mem_screensOfLoop hl ht).2.1 hitems] at havail
      cases havail
    | cons i rest => exact ⟨i, List.mem_cons_self, rfl⟩

/-- **What a scan finds** is one of the screens, can be shown for the item found with it, and has
that item from the collection or from the filer. -/
theorem of_run_scan (hf : f.Arranged) {xs : List Screen} (hs : s ∈ f.screens)
    (hxs : ∀ x ∈ xs, x ∈ f.screens)
    (hscan : (scan ctx ⟨s.loopName, item⟩ xs).run facts = some (t, item')) :
    t ∈ xs ∧ t.availableAt ctx facts item' = true ∧ f.HasItem facts s item t item' := by
  obtain ⟨before, after, rfl, rfl, hreached⟩ := run_scan_eq_some hscan
  have havail := (Bool.and_eq_true_iff.mp hreached).2
  have hfrom : (ScanState.past facts ⟨s.loopName, item⟩ before).IsFrom f facts ⟨s.loopName, item⟩ :=
    isFrom_past hf (fun x hx => hxs x (List.mem_append_left _ hx)) (.inl rfl)
  have ht : t ∈ before ++ t :: after := List.mem_append_right _ List.mem_cons_self
  exact ⟨ht, havail, hasItem_of_isFrom hf hs (isFrom_looking hf (hxs t ht) hfrom)
    (ScanState.looking_loop ..) havail⟩

theorem mem_of_mem_later {xs : List Screen} (h : t ∈ s.later xs) : t ∈ xs :=
  (List.dropWhile_sublist _).subset (List.mem_of_mem_drop h)

/-! ## The rules -/

/-- The restart of a loop shows a screen of the same loop for an item of its collection. -/
theorem mayShow_of_isRestart (hf : f.Arranged) (h : f.IsRestart ctx facts s item t item') :
    f.MayShow ctx facts s item review t item' := by
  have hrestart := h
  obtain ⟨l, hl, -, hs, ht, i, i', -, hnext, rfl, hfirst⟩ := h
  obtain ⟨before, after, hitems, -⟩ := exists_of_itemAfter hnext
  refine ⟨(mem_screensOfLoop.mp ht).1, List.find?_some hfirst, fun _ => .inl ?_,
    fun _ => .inr (.inr hrestart), ?_⟩
  · rw [(hf.of_mem_screensOfLoop hl ht).2.2, (hf.of_mem_screensOfLoop hl hs).2.2]
  · -- loops with a screen in common have the same name
    intro l' hl' _ ht'
    have hname := (mem_screensOfLoop.mp ht').2.symm.trans (mem_screensOfLoop.mp ht).2
    obtain rfl := List.inj_on_of_nodup_map hf.loopNames hl' hl (Option.some.inj hname)
    exact .inl ⟨i', by simp [hitems], rfl⟩

/-- The end of a pass leads to the restart of the loop, or back to its overview. -/
theorem mayLeadTo_of_endOfLoop (hf : f.Arranged) (hs : s ∈ f.screens) {a : Arrival}
    (h : (f.endOfLoop ctx s item).run facts = .ok (some a)) :
    f.MayLeadTo ctx facts s item review a := by
  obtain ⟨l, hl, i, rfl, hmem, -, hafter⟩ := exists_of_run_endOfLoop hf hs (by rw [h]; simp)
  rw [h] at hafter
  by_cases hauto : l.autoIterates = true
  · -- the pass is followed by nothing, by the first screen for the next item, or by an error
    simp only [afterPass, hauto, if_true] at hafter
    cases hnext : itemAfter i (facts l.collection).items with
    | none => simp [hnext] at hafter
    | some i' =>
      cases hfirst : f.firstAt ctx facts l i' with
      | none => simp [hnext, hfirst] at hafter
      | some first =>
        obtain rfl : a = ⟨.screen first, some i'⟩ := by simpa [hnext, hfirst] using hafter
        exact mayShow_of_isRestart hf ⟨l, hl, hauto, hmem, mem_screensOfLoop_of_firstAt hfirst, i,
          i', rfl, hnext, rfl, hfirst⟩
  · rw [Bool.not_eq_true] at hauto
    obtain rfl : a = ⟨.loopDataView l.name, some i⟩ := by simpa [afterPass, hauto] using hafter
    exact ⟨rfl, rfl, l, hl, rfl, hauto, hmem⟩

/-- The summary is that of the subcategory, at the topic of the screen if there is an anchor, or the
overview of a loop that does not lead from item to item. -/
theorem mayLeadTo_summary (hf : f.Arranged) (hs : s ∈ f.screens) {anchored : Bool}
    (hreview : anchored = true → review = true) :
    f.MayLeadTo ctx facts s item review (f.summary s item anchored) := by
  have hsubcategory : f.MayLeadTo ctx facts s item review ⟨.dataView s.subcategoryRoute
      (if anchored then (s.topicRoute.bind f.topic?).map (·.route) else none), item⟩ := by
    refine ⟨rfl, rfl, fun x hx => ?_⟩
    cases anchored with
    | false => cases hx
    | true =>
      obtain ⟨topic, htopic, rfl⟩ := Option.map_eq_some_iff.mp hx
      obtain ⟨route, hroute, hfind⟩ := Option.bind_eq_some_iff.mp htopic
      have hfull : topic.fullRoute = route := by simpa using List.find?_some hfind
      exact ⟨hreview rfl, topic, List.mem_of_find?_eq_some hfind, hroute.trans (by rw [hfull]), rfl⟩
  unfold summary
  cases hm : s.membership with
  | none => exact hsubcategory
  | some m =>
    cases item with
    | none => exact hsubcategory
    | some i =>
      obtain ⟨l, hl, rfl, -⟩ := hf.member s hs m hm
      cases hauto : l.autoIterates with
      | true => simpa [Loop.membership, hauto] using hsubcategory
      | false =>
        have hmem : s ∈ f.screensOfLoop l :=
          mem_screensOfLoop.mpr ⟨hs, by simp [Screen.loopName, hm, Loop.membership]⟩
        simpa [Loop.membership, hauto, MayLeadTo] using ⟨l, hl, rfl, hauto, hmem⟩

/-- In review a topic is left for another screen of it, for a summary or for the checklist. -/
theorem mayLeadTo_of_reviewExit (hf : f.Arranged) (hs : s ∈ f.screens) {a : Arrival}
    (h : (f.reviewExit ctx s item).run facts = .ok a) : f.MayLeadTo ctx facts s item true a := by
  unfold reviewExit at h
  split at h
  · obtain rfl := Except.ok.inj h
    exact rfl
  · cases htopic : s.topicRoute.bind f.topic? with
    | none => simp [htopic] at h
    | some topic =>
      simp only [htopic, Reading.run_bind] at h
      cases hscan : (scan ctx ⟨s.loopName, item⟩ (s.later (f.screensOfTopic topic))).run facts with
      | none =>
        rw [hscan] at h
        obtain rfl := Except.ok.inj h
        exact mayLeadTo_summary hf hs fun _ => rfl
      | some found =>
        rw [hscan] at h
        obtain rfl := Except.ok.inj h
        have hleft : ∀ x ∈ s.later (f.screensOfTopic topic), x ∈ f.screens :=
          fun x hx => List.mem_of_mem_filter (mem_of_mem_later hx)
        obtain ⟨hmem, havail, hitem⟩ := of_run_scan hf hs hleft hscan
        -- the topic that is left is the one that the screen names
        obtain ⟨route, hroute, hfind⟩ := Option.bind_eq_some_iff.mp htopic
        have hfull : topic.fullRoute = route := by simpa using List.find?_some hfind
        have hsame : found.1.topicRoute = s.topicRoute := by
          rw [hroute, ← hfull]
          simpa using List.of_mem_filter (mem_of_mem_later hmem)
        exact ⟨hleft _ hmem, havail, nofun, fun _ => .inl hsame, hitem⟩

/-- A subcategory is left for the checklist or for its summary. -/
theorem mayLeadTo_subcategoryExit (hf : f.Arranged) (hs : s ∈ f.screens) :
    f.MayLeadTo ctx facts s item review (f.subcategoryExit s item) := by
  unfold subcategoryExit
  split
  · exact rfl
  · exact mayLeadTo_summary hf hs nofun

/-- What follows from a screen that the scan has found. -/
theorem mayLeadTo_of_leave (hf : f.Arranged) (hs : s ∈ f.screens) {a : Arrival} (ht : t ∈ f.screens)
    (havail : t.availableAt ctx facts item' = true) (hitem : f.HasItem facts s item t item')
    (h : (f.leave ctx s item review (t, item')).run facts = .ok a) :
    f.MayLeadTo ctx facts s item review a := by
  unfold leave at h
  -- the cases are a knockout, the exit in review, the same subcategory, and another one
  split at h
  · next hknockout =>
    obtain rfl := Except.ok.inj h
    exact ⟨ht, havail, fun _ => .inr hknockout, fun _ => .inr (.inl hknockout), hitem⟩
  · split at h
    · next hleft =>
      obtain rfl := (Bool.and_eq_true_iff.mp hleft).1
      exact mayLeadTo_of_reviewExit hf hs h
    · next hstays =>
      split at h
      · next hsub =>
        obtain rfl := Except.ok.inj h
        refine ⟨ht, havail, fun _ => .inl hsub.symm, fun hreview => .inl ?_, hitem⟩
        have hsame : s.topicRoute = t.topicRoute := by simpa [hreview] using hstays
        exact hsame.symm
      · obtain rfl := Except.ok.inj h
        exact mayLeadTo_subcategoryExit hf hs

/-! ## Every step -/

/-- **A step that succeeds leads where it may**, whatever the facts, the item and the option. -/
theorem mayLeadTo_of_run_next {o : Outline} (hbuild : build o = .ok f) (hs : s ∈ f.screens)
    {a : Arrival} (h : (f.next ctx s item review).run facts = .ok a) :
    f.MayLeadTo ctx facts s item review a := by
  have hf := arranged_of_build hbuild
  rw [run_next] at h
  cases hend : (f.endOfLoop ctx s item).run facts with
  | error e => simp [hend] at h
  | ok arrival =>
    rw [hend] at h
    cases arrival with
    | some arrival =>
      obtain rfl := Except.ok.inj h
      exact mayLeadTo_of_endOfLoop hf hs hend
    | none =>
      cases hscan : (scan ctx ⟨s.loopName, item⟩ (s.later f.screens)).run facts with
      | none => simp [hscan] at h
      | some found =>
        rw [hscan] at h
        have hlater : ∀ x ∈ s.later f.screens, x ∈ f.screens := fun x hx => mem_of_mem_later hx
        obtain ⟨hmem, havail, hitem⟩ := of_run_scan hf hs hlater hscan
        exact mayLeadTo_of_leave hf hs (hlater _ hmem) havail hitem h

/-- In review, the household is led from the name of the first person to that of the second, which
is a page that may be shown there. -/
theorem mayLeadTo_household :
    let facts := Household.facts ["/people/#ann/isNew", "/people/#bob/isNew"]
    let restart : Arrival := ⟨.screen (Household.screen 1), some "bob"⟩
    Household.screen 1 ∈ Household.flow.screens ∧
    (Household.flow.next default (Household.screen 1) (some "ann") true).run facts = .ok restart ∧
    Household.flow.MayLeadTo default facts (Household.screen 1) (some "ann") true restart := by
  intro facts restart
  have hname : Household.screen 1 ∈ Household.flow.screens := List.get_mem _ _
  have hstep : (Household.flow.next default (Household.screen 1) (some "ann") true).run facts =
      .ok restart := rfl
  exact ⟨hname, hstep, mayLeadTo_of_run_next Household.build_outline hname hstep⟩

end Flow

end Interview

import Interview.Proofs.Passes

/-!
# The trace of a loop

If all screens of a loop are routed to automatically, what a filer is shown of it can be written
down: item by item, the screens that can be shown for the item. Coming in, going on within a pass,
and going on to the next item are three rules, and they agree on the pair that comes next.
-/

namespace Interview

variable {f : Flow} {ctx : Context} {facts : String → Fact} {l : Loop} {s : Screen} {i : String}

namespace Flow

/-- The screens of a loop for all its items, as far as they can be shown for them. -/
def trace (f : Flow) (ctx : Context) (facts : String → Fact) (l : Loop) :
    List (Screen × Option String) :=
  (facts l.collection).items.flatMap fun i =>
    ((f.screensOfLoop l).filter (·.availableAt ctx facts (some i))).map (·, some i)

section

variable (hrouted : ∀ s ∈ f.screensOfLoop l, s.routesAutomatically = true)

include hrouted

theorem reachedAt_of_mem (hs : s ∈ f.screensOfLoop l) (item : Option String) :
    s.reachedAt ctx facts item = s.availableAt ctx facts item := by
  rw [Screen.reachedAt, hrouted s hs, Bool.true_and]

theorem filter_reachedAt {before after : List Screen} (heq : f.screensOfLoop l = before ++ after)
    (item : Option String) :
    after.filter (·.reachedAt ctx facts item) = after.filter (·.availableAt ctx facts item) :=
  List.filter_congr fun _ hx =>
    reachedAt_of_mem hrouted (heq ▸ List.mem_append_right before hx) item

/-- A pass that starts at the first screen shows all screens that can be shown. -/
theorem passFrom_firstAt (hf : f.Arranged) (hfirst : f.firstAt ctx facts l i = some s) :
    f.passFrom ctx facts l i s =
      ((f.screensOfLoop l).filter (·.availableAt ctx facts (some i))).map (·, some i) := by
  obtain ⟨hs, before, after, heq, hbefore⟩ := List.find?_eq_some_iff_append.mp hfirst
  have hnone : before.filter (·.availableAt ctx facts (some i)) = [] :=
    List.filter_eq_nil_iff.mpr fun x hx => by simpa using hbefore x hx
  have hafter : after.filter (·.reachedAt ctx facts (some i)) =
      after.filter (·.availableAt ctx facts (some i)) :=
    filter_reachedAt hrouted (heq.trans (List.append_cons before s after)) (some i)
  rw [passFrom, later_screensOfLoop hf heq, hafter, heq, List.filter_append, hnone,
    List.nil_append, List.filter_cons_of_pos hs]

/-- The trace consists of the passes over the items. -/
theorem trace_eq_passes (hf : f.Arranged)
    (hshown : ∀ i ∈ (facts l.collection).items, ∃ first, f.firstAt ctx facts l i = some first) :
    f.trace ctx facts l = f.passes ctx facts l (facts l.collection).items := by
  unfold trace passes
  refine List.flatMap_congr fun i hi => ?_
  obtain ⟨first, hfirst⟩ := hshown i hi
  rw [hfirst]
  exact (passFrom_firstAt hrouted hf hfirst).symm

end

/-! ## Both kinds of loops -/

/-- A loop that leads from item to item shows its trace. -/
structure ShowsTrace (f : Flow) (ctx : Context) (facts : String → Fact) (l : Loop) : Prop where
  /-- Each step leads to the pair that follows. -/
  leads : (f.trace ctx facts l).IsChain (f.Leads ctx facts false)
  /-- A step from an earlier screen of the subcategory, by a scan that finds nothing before the
  loop, leads to the first pair. -/
  entry : ∃ first, (f.trace ctx facts l).head? = some first ∧
    ∀ c ∈ f.screensBefore l, c.subcategoryRoute = l.subcategoryRoute → ∀ item,
      (f.endOfLoop ctx c item).run facts = .ok none →
      (scan ctx ⟨c.loopName, item⟩ (c.later (f.screensBefore l))).run facts = none →
      f.Leads ctx facts false (c, item) first
  /-- A step from the last pair does not lead to a screen of the loop. -/
  exit : ∃ last, (f.trace ctx facts l).getLast? = some last ∧
    ∀ q, f.Leads ctx facts false last q → q.1 ∉ f.screensOfLoop l

theorem showsTrace (hf : f.Arranged) (hl : l ∈ f.loops)
    (hrouted : ∀ s ∈ f.screensOfLoop l, s.routesAutomatically = true)
    (hauto : l.autoIterates = true) (hne : (facts l.collection).items ≠ [])
    (hdistinct : (facts l.collection).items.Nodup)
    (havail : ∀ i ∈ (facts l.collection).items,
      ∃ s ∈ f.screensOfLoop l, s.availableAt ctx facts (some i) = true) :
    f.ShowsTrace ctx facts l := by
  have hshown : ∀ i ∈ (facts l.collection).items,
      ∃ first, f.firstAt ctx facts l i = some first := by
    intro i hi
    obtain ⟨s, hs, hsavail⟩ := havail i hi
    exact exists_firstAt hs hsavail
  have hpassable : ∀ i ∈ (facts l.collection).items, f.isPassable ctx facts l i = true := by
    intro i hi
    obtain ⟨s, hs, hsavail⟩ := havail i hi
    exact isPassable_of_available hs hsavail fun e he => hrouted e (mem_screensOfLoop_of_lastAt he)
  obtain ⟨i, items, hitems⟩ := List.exists_cons_of_ne_nil hne
  obtain ⟨first, hfirst⟩ := hshown i (hitems ▸ List.mem_cons_self)
  have hmem := mem_screensOfLoop_of_firstAt hfirst
  have htrace : f.trace ctx facts l =
      f.passFrom ctx facts l i first ++ f.passes ctx facts l items := by
    rw [trace_eq_passes hrouted hf hshown, hitems, passes_cons hfirst]
  have hsplit : (facts l.collection).items = [] ++ i :: (items ++ []) := by
    rw [hitems, List.append_nil, List.nil_append]
  -- the trace is one pass after the other, with no item left over
  obtain ⟨hchain, done, j, t, hdone, -, ht, htavail, hlast⟩ := isChain_passes hf hl hauto hdistinct
    hsplit hmem (List.find?_some hfirst) (fun j hj => hshown j (hitems ▸ List.mem_cons_of_mem i hj))
    fun j hj => hpassable j (hitems ▸ List.dropLast_subset _ hj)
  obtain ⟨e, hj, he⟩ := isPassable_iff.mp (hpassable j (hdone ▸ by simp))
  have hend := getLast?_passFrom hf ht htavail hj he
  rw [← htrace] at hchain hlast
  refine ⟨hchain, ⟨(first, some i), ?_, ?_⟩, (e, some j), hlast.trans hend, ?_⟩
  · rw [htrace]
    rfl
  · intro c hc hsub item hend hscan
    -- all screens are routed to, so the first that is reached is the first that can be shown
    have hfilter : (f.screensOfLoop l).filter (·.reachedAt ctx facts (some i)) =
        (f.screensOfLoop l).filter (·.availableAt ctx facts (some i)) :=
      filter_reachedAt hrouted (List.nil_append _).symm (some i)
    have hreached : (f.screensOfLoop l).find? (·.reachedAt ctx facts (some i)) = some first := by
      rw [← List.head?_filter, hfilter, List.head?_filter]
      exact hfirst
    exact leads_entry hf hl hauto hc hsub hend hscan (by rw [hitems]; rfl) hreached
  · intro q hleads
    exact not_mem_of_leads_end hf hl hauto ht hend (itemAfter_eq hdistinct hdone) hleads

/-- A loop that does not lead from item to item shows what can be shown for the item after a screen,
and returns to its overview. -/
def ReturnsToOverview (f : Flow) (ctx : Context) (facts : String → Fact) (l : Loop) : Prop :=
  ∀ i, ∀ s ∈ f.screensOfLoop l, s.availableAt ctx facts (some i) = true →
    ∃ shown last, shown ++ [(last, some i)] =
        (s :: (s.later (f.screensOfLoop l)).filter (·.availableAt ctx facts (some i))).map
          (·, some i) ∧
      f.IsRun ctx facts false (s, some i) (shown ++ [(last, some i)]) ∧
      (f.next ctx last (some i) false).run facts = .ok ⟨.loopDataView l.name, some i⟩

theorem returnsToOverview (hf : f.Arranged) (hl : l ∈ f.loops)
    (hrouted : ∀ s ∈ f.screensOfLoop l, s.routesAutomatically = true)
    (hauto : l.autoIterates = false) : f.ReturnsToOverview ctx facts l := by
  intro i s hs havail
  obtain ⟨last, hlast, hlastrouted⟩ := isPassable_iff.mp (isPassable_of_available hs havail
    fun e he => hrouted e (mem_screensOfLoop_of_lastAt he))
  obtain ⟨shown, hshown⟩ :=
    List.getLast?_eq_some_iff.mp (getLast?_passFrom hf hs havail hlast hlastrouted)
  obtain ⟨before, after, heq⟩ := List.append_of_mem hs
  have hpass : f.passFrom ctx facts l i s = (s :: (s.later (f.screensOfLoop l)).filter
      (·.availableAt ctx facts (some i))).map (·, some i) := by
    rw [passFrom, later_screensOfLoop hf heq,
      filter_reachedAt hrouted (heq.trans (List.append_cons before s after))]
  refine ⟨shown, last, hshown.symm.trans hpass, ⟨?_, ?_⟩, run_next_overview hf hl hauto hlast false⟩
  · rw [← hshown]
    rfl
  · rw [← hshown]
    exact isChain_passFrom hf hl hs

/-- **The trace of a loop** all of whose screens are routed to automatically: from item to item, if
there is something to show for every one of them, and else back to the overview. -/
theorem loop_trace {o : Outline} (hbuild : build o = .ok f) (hl : l ∈ f.loops)
    (hrouted : ∀ s ∈ f.screensOfLoop l, s.routesAutomatically = true) :
    (l.autoIterates = true → (facts l.collection).items ≠ [] →
      (facts l.collection).items.Nodup →
      (∀ i ∈ (facts l.collection).items,
        ∃ s ∈ f.screensOfLoop l, s.availableAt ctx facts (some i) = true) →
      f.ShowsTrace ctx facts l) ∧
    (l.autoIterates = false → f.ReturnsToOverview ctx facts l) :=
  have hf := arranged_of_build hbuild
  ⟨fun hauto hne hdistinct havail => showsTrace hf hl hrouted hauto hne hdistinct havail,
    fun hauto => returnsToOverview hf hl hrouted hauto⟩

/-- The household shows what there is to show of its people, and returns to the overview of its
jobs. -/
theorem loop_trace_household :
    let facts := Household.facts
      ["/people/#ann/isNew", "/people/#ann/isStudent", "/people/#bob/isNew"]
    Household.flow.trace default facts Household.people =
      [(Household.screen 1, some "ann"), (Household.screen 2, some "ann"),
        (Household.screen 1, some "bob")] ∧
    Household.flow.ShowsTrace default facts Household.people ∧
    Household.flow.ReturnsToOverview default facts Household.jobs := by
  intro facts
  have hpeople := @loop_trace Household.flow default facts Household.people Household.outline
    Household.build_outline (by decide) (by decide)
  have hjobs := @loop_trace Household.flow default facts Household.jobs Household.outline
    Household.build_outline (by decide) (by decide)
  exact ⟨rfl, hpeople.1 rfl (by decide) (by decide) (by decide), hjobs.2 rfl⟩

end Flow

end Interview

import Interview.Proofs.ChecklistForm
import Interview.Proofs.TopicPlaces
import Interview.Proofs.WaitingScreens

/-!
# Where a subcategory is gone on with

The search for a screen to go on with takes the topics and loops of a subcategory one after the
other, and there are three ways for it to end: at a screen of a topic that waits for an answer in
the context of the subcategory, at a screen of a loop that waits for an answer about an unfinished
item, and at the hub of a loop that is not marked as done. `Flow.ResumesAt` says what each of them
means, without the search. The search ends at such a screen (`Flow.resumesAt_of_resumePoint`), and
it ends at one if there is any (`Flow.isSome_resumePoint_iff`).

The search looks at topics and not at all screens of the subcategory. A topic is listed where it is
declared first. So a screen is passed over if its topic was declared before in a loop, or in another
subcategory (`Screen.IsListedElsewhere`). A subcategory without a resume point may still have such a
screen with an open field, but no other.
-/

namespace Interview

variable {f : Flow} {ctx : Context} {facts : String → Fact} {s : Subcategory}
  {item : Option String}

namespace Loop

/-- A loop says when items are finished, and an item is not. -/
def IsUnfinishedFor (ctx : Context) (facts : String → Fact) (l : Loop) (member : String) : Prop :=
  ∃ c, l.itemCompleteIf = some c ∧ (c.holds ctx (some member)).run facts = false

/-- A loop has a mark for being done, and the mark is not complete and true. -/
def IsPending (facts : String → Fact) (l : Loop) : Prop :=
  ∃ donePath, l.donePath = some donePath ∧ ∀ concrete, Path.resolve donePath none = some concrete →
    ¬ ((facts concrete).complete = true ∧ (facts concrete).isTruthy = true)

theorem run_hasUnfinishedItem {l : Loop} : (l.hasUnfinishedItem ctx).run facts = true ↔
    ∃ m ∈ (facts l.collection).items, l.IsUnfinishedFor ctx facts m := by
  unfold hasUnfinishedItem IsUnfinishedFor
  cases l.itemCompleteIf with
  | none => simp
  | some c => simp [items]

end Loop

namespace Flow

variable {l : Loop} {m : String} {p : ResumePoint}

/-! ## Unfinished items -/

/-- An item of a loop is unfinished, and a screen of the loop waits for an answer about it. -/
def HoldsUp (f : Flow) (ctx : Context) (facts : String → Fact) (l : Loop) (member : String) :
    Prop :=
  l.IsUnfinishedFor ctx facts member ∧
    ∃ x ∈ f.screensOfLoop l, x.WaitsAt ctx facts (some member)

theorem run_firstUnansweredOfLoop {c : Condition} (hc : l.itemCompleteIf = some c) :
    (f.firstUnansweredOfLoop ctx l (some m)).run facts =
      if (c.holds ctx (some m)).run facts then none
      else (Screen.firstUnanswered ctx (some m) (f.screensOfLoop l)).run facts := by
  simp [firstUnansweredOfLoop, Loop.isItemComplete, hc]

theorem isSome_firstUnansweredOfLoop {c : Condition} (hc : l.itemCompleteIf = some c) :
    ((f.firstUnansweredOfLoop ctx l (some m)).run facts).isSome = true ↔
      f.HoldsUp ctx facts l m := by
  rw [run_firstUnansweredOfLoop hc, HoldsUp, Loop.IsUnfinishedFor]
  split
  · next h => simp [hc, h]
  · next h =>
    rw [Screen.isSome_firstUnanswered_iff]
    simp [hc, h]

/-- **A loop is gone on with** at the first item that holds up the filer, and there at the first
screen that waits. -/
theorem unfinishedPoint_eq_some_iff : (f.unfinishedPoint ctx l).run facts = some p ↔
    ∃ m x, IsFirst (f.HoldsUp ctx facts l) (facts l.collection).items m ∧
      IsFirst (·.WaitsAt ctx facts (some m)) (f.screensOfLoop l) x ∧ p = ⟨x, some m⟩ := by
  have hsearch : (f.unfinishedPoint ctx l).run facts =
      if (l.hasUnfinishedItem ctx).run facts then (facts l.collection).items.findSome? fun m =>
        ((f.firstUnansweredOfLoop ctx l (some m)).run facts).map (⟨·, some m⟩)
      else none := by
    simp [unfinishedPoint, Loop.items]
  rw [hsearch]
  cases hc : l.itemCompleteIf with
  | none =>
    -- a loop that does not say when items are finished has no unfinished ones
    have hnone : ∀ m, ¬ f.HoldsUp ctx facts l m := by
      rintro m ⟨⟨c, hsome, -⟩, -⟩
      rw [hc] at hsome
      cases hsome
    have hitem : (l.hasUnfinishedItem ctx).run facts = false := by simp [Loop.hasUnfinishedItem, hc]
    rw [hitem]
    constructor
    · intro h
      cases h
    · rintro ⟨m, x, hfirst, -⟩
      exact absurd hfirst.prop (hnone m)
  | some c =>
    have hpoint : ∀ m, (((f.firstUnansweredOfLoop ctx l (some m)).run facts).map
        (ResumePoint.mk · (some m))).isSome = true ↔ f.HoldsUp ctx facts l m := by
      intro m
      rw [Option.isSome_map]
      exact isSome_firstUnansweredOfLoop hc
    constructor
    · intro h
      split at h
      · obtain ⟨m, hfirst, hmap⟩ := (findSome?_eq_some_iff_isFirst hpoint).mp h
        obtain ⟨x, hx, rfl⟩ := Option.map_eq_some_iff.mp hmap
        rw [run_firstUnansweredOfLoop hc] at hx
        split at hx
        · cases hx
        · exact ⟨m, x, hfirst, Screen.firstUnanswered_eq_some_iff.mp hx, rfl⟩
      · cases h
    · rintro ⟨m, x, hfirst, hx, rfl⟩
      have hunfinished := hfirst.prop.1
      rw [if_pos (Loop.run_hasUnfinishedItem.mpr ⟨m, hfirst.mem, hunfinished⟩),
        findSome?_eq_some_iff_isFirst hpoint]
      refine ⟨m, hfirst, ?_⟩
      obtain ⟨c', hc', hfalse⟩ := hunfinished
      obtain rfl := Option.some.inj (hc.symm.trans hc')
      rw [run_firstUnansweredOfLoop hc, hfalse, if_neg Bool.false_ne_true,
        Screen.firstUnanswered_eq_some_iff.mpr hx, Option.map_some]

theorem isSome_unfinishedPoint_iff : ((f.unfinishedPoint ctx l).run facts).isSome = true ↔
    ∃ m ∈ (facts l.collection).items, f.HoldsUp ctx facts l m := by
  rw [Option.isSome_iff_exists]
  constructor
  · rintro ⟨p, hp⟩
    obtain ⟨m, x, hfirst, -⟩ := unfinishedPoint_eq_some_iff.mp hp
    exact ⟨m, hfirst.mem, hfirst.prop⟩
  · intro h
    obtain ⟨m, hfirst⟩ := exists_isFirst h
    obtain ⟨x, hx⟩ := exists_isFirst hfirst.prop.2
    exact ⟨_, unfinishedPoint_eq_some_iff.mpr ⟨m, x, hfirst, hx, rfl⟩⟩

/-! ## Hubs -/

/-- A screen is the first one that manages a collection in the topic that a loop returns to. -/
def IsHub (f : Flow) (s : Subcategory) (l : Loop) (x : Screen) : Prop :=
  ∃ t ∈ f.topicsOf s, t.fullRoute = l.fullRoute ∧
    IsFirst Screen.IsManager (f.screensOfTopic t) x

theorem isHub_of_hub? {x : Screen} (h : f.hub? s l = some x) : f.IsHub s l x := by
  obtain ⟨t, ht, hx⟩ := Option.bind_eq_some_iff.mp h
  have hroute : t.fullRoute = l.fullRoute := by simpa using List.find?_some ht
  exact ⟨t, List.mem_of_find?_eq_some ht, hroute,
    (find?_eq_some_iff_isFirst fun _ => Screen.isManager_iff).mp hx⟩

/-- The topic that a loop returns to is known by its route. -/
theorem hub?_of_isHub (hf : f.Arranged) {x : Screen} (h : f.IsHub s l x) :
    f.hub? s l = some x := by
  obtain ⟨t, ht, hroute, hx⟩ := h
  have hdistinct : ((f.topicsOf s).map (·.fullRoute)).Nodup :=
    hf.topicRoutes.sublist (List.filter_sublist.map _)
  have htopic : (f.topicsOf s).find? (·.fullRoute = l.fullRoute) = some t := by
    rw [← hroute]
    exact find?_key_eq_some hdistinct ht
  rw [hub?, htopic]
  exact (find?_eq_some_iff_isFirst fun _ => Screen.isManager_iff).mpr hx

theorem run_isMarkedDone {donePath : String} (hdone : l.donePath = some donePath) :
    (isMarkedDone donePath).run facts = false ↔ l.IsPending facts := by
  have hrun : (isMarkedDone donePath).run facts =
      ((Path.resolve donePath none).map facts).any fun fact => fact.complete && fact.isTruthy := by
    simp [isMarkedDone]
  rw [hrun]
  cases hresolve : Path.resolve donePath none <;> simp [Loop.IsPending, hdone, hresolve]

theorem run_pendingHub {donePath : String} (hdone : l.donePath = some donePath) :
    (f.pendingHub ctx s l item).run facts = if (isMarkedDone donePath).run facts then none
      else (f.hub? s l).filter (·.availableAt ctx facts item) := by
  rw [pendingHub, hdone]
  show ((isMarkedDone donePath >>= _ : Reading (Option Screen))).run facts = _
  rw [Reading.run_bind, Reading.run_ite]
  cases f.hub? s l with
  | none => simp
  | some hub => cases havail : hub.availableAt ctx facts item <;> simp [havail, Option.filter_some]

/-- **A loop leads back to its hub** while it is not marked as done and the hub can be shown. -/
theorem pendingHub_eq_some_iff {x : Screen} :
    (f.pendingHub ctx s l item).run facts = some x ↔
      l.IsPending facts ∧ f.hub? s l = some x ∧ x.availableAt ctx facts item = true := by
  cases hdone : l.donePath with
  | none => simp [pendingHub, Loop.IsPending, hdone]
  | some donePath =>
    rw [run_pendingHub hdone, ← run_isMarkedDone hdone]
    cases (isMarkedDone donePath).run facts with
    | true => simp
    | false => simp [Option.filter_eq_some_iff]

/-! ## Topics and loops -/

theorem run_divisionPoint_topic {t : Topic} :
    (f.divisionPoint ctx s item (.topic t)).run facts = ((Screen.firstUnanswered ctx item
      ((f.screensOfTopic t).filter (·.membership.isNone))).run facts).map (⟨·, item⟩) := by
  simp [divisionPoint]

theorem run_divisionPoint_loop :
    (f.divisionPoint ctx s item (.loop l)).run facts = ((f.unfinishedPoint ctx l).run facts).or
      (((f.pendingHub ctx s l item).run facts).map (⟨·, item⟩)) := by
  rw [divisionPoint, Reading.run_bind]
  cases (f.unfinishedPoint ctx l).run facts <;> simp

theorem mem_topics {t : Topic} : t ∈ f.topics ↔ .topic t ∈ f.divisions := by
  rw [topics, List.mem_filterMap]
  constructor
  · rintro ⟨d, hd, ht⟩
    cases d with
    | topic t' => exact Option.some.inj ht ▸ hd
    | loop l => cases ht
  · intro h
    exact ⟨_, h, rfl⟩

theorem mem_loops : l ∈ f.loops ↔ .loop l ∈ f.divisions := by
  rw [loops, List.mem_filterMap]
  constructor
  · rintro ⟨d, hd, hl⟩
    cases d with
    | topic t => cases hl
    | loop l' => exact Option.some.inj hl ▸ hd
  · intro h
    exact ⟨_, h, rfl⟩

theorem topic_mem_divisionsOf {t : Topic} :
    .topic t ∈ f.divisionsOf s ↔ t ∈ f.topicsOf s ∧ t.loop = none := by
  rw [divisionsOf, List.mem_filter]
  show _ ∧ (decide (t.subcategoryRoute = s.route) && t.loop.isNone) = true ↔ _
  simp [topicsOf, mem_topics, and_assoc]

theorem loop_mem_divisionsOf : .loop l ∈ f.divisionsOf s ↔ l ∈ f.loopsOf s := by
  rw [divisionsOf, List.mem_filter]
  show _ ∧ (decide (l.subcategoryRoute = s.route) && true) = true ↔ _
  simp [loopsOf, mem_loops]

/-! ## Resume points -/

/-- What it means that a subcategory, shown for an item, is gone on with at a screen. -/
inductive ResumesAt (f : Flow) (ctx : Context) (facts : String → Fact) (s : Subcategory)
    (item : Option String) : ResumePoint → Prop where
  /-- A screen of a topic, outside of loops, waits for an answer. -/
  | topic {t : Topic} {x : Screen} (listed : t ∈ f.topicsOf s) (outermost : t.loop = none)
      (screen : x ∈ f.screensOfTopic t) (outside : x.loopName = none)
      (waits : x.WaitsAt ctx facts item) : ResumesAt f ctx facts s item ⟨x, item⟩
  /-- Of the unfinished items of a loop with a screen that waits, it is the first, and of the
  screens of the loop that wait for an answer about it, the first. -/
  | member {l : Loop} {m : String} {x : Screen} (loop : l ∈ f.loopsOf s)
      (first : IsFirst (f.HoldsUp ctx facts l) (facts l.collection).items m)
      (screen : IsFirst (·.WaitsAt ctx facts (some m)) (f.screensOfLoop l) x) :
      ResumesAt f ctx facts s item ⟨x, some m⟩
  /-- A loop has a mark for being done that is not set, and its collection is managed on the
  screen. -/
  | hub {l : Loop} {x : Screen} (loop : l ∈ f.loopsOf s) (pending : l.IsPending facts)
      (hub : f.IsHub s l x) : ResumesAt f ctx facts s item ⟨x, item⟩

theorem resumesAt_of_divisionPoint {d : Division} (hd : d ∈ f.divisionsOf s)
    (h : (f.divisionPoint ctx s item d).run facts = some p) :
    p.screen.availableAt ctx facts p.item = true ∧ f.ResumesAt ctx facts s item p := by
  cases d with
  | topic t =>
    obtain ⟨hlisted, houtermost⟩ := topic_mem_divisionsOf.mp hd
    rw [run_divisionPoint_topic] at h
    obtain ⟨x, hx, rfl⟩ := Option.map_eq_some_iff.mp h
    have hfirst := Screen.firstUnanswered_eq_some_iff.mp hx
    obtain ⟨hscreen, houtside⟩ := List.mem_filter.mp hfirst.mem
    refine ⟨hfirst.prop.available, .topic hlisted houtermost hscreen ?_ hfirst.prop⟩
    simpa [Screen.loopName] using houtside
  | loop l =>
    have hl := loop_mem_divisionsOf.mp hd
    rw [run_divisionPoint_loop, Option.or_eq_some_iff] at h
    rcases h with h | ⟨-, h⟩
    · obtain ⟨m, x, hmember, hscreen, rfl⟩ := unfinishedPoint_eq_some_iff.mp h
      exact ⟨hscreen.prop.available, .member hl hmember hscreen⟩
    · obtain ⟨x, hx, rfl⟩ := Option.map_eq_some_iff.mp h
      obtain ⟨hpending, hhub, havail⟩ := pendingHub_eq_some_iff.mp hx
      exact ⟨havail, .hub hl hpending (isHub_of_hub? hhub)⟩

/-- **The search ends at a screen** that can be shown and where the subcategory is gone on with. -/
theorem resumesAt_of_resumePoint (h : (f.resumePoint ctx s item).run facts = some p) :
    p.screen.availableAt ctx facts p.item = true ∧ f.ResumesAt ctx facts s item p := by
  rw [resumePoint, Reading.run_findSomeM?] at h
  obtain ⟨d, hd, hpoint⟩ := List.exists_of_findSome?_eq_some h
  exact resumesAt_of_divisionPoint hd hpoint

theorem available_of_resumePoint (h : (f.resumePoint ctx s item).run facts = some p) :
    p.screen.availableAt ctx facts p.item = true :=
  (resumesAt_of_resumePoint h).1

/-- Where a subcategory is gone on with, a topic or loop has a screen for that. -/
theorem exists_divisionPoint (hf : f.Arranged) (h : f.ResumesAt ctx facts s item p)
    (havail : p.screen.availableAt ctx facts p.item = true) :
    ∃ d ∈ f.divisionsOf s, ((f.divisionPoint ctx s item d).run facts).isSome = true := by
  cases h with
  | topic hlisted houtermost hscreen houtside hwaits =>
    refine ⟨_, topic_mem_divisionsOf.mpr ⟨hlisted, houtermost⟩, ?_⟩
    rw [run_divisionPoint_topic, Option.isSome_map, Screen.isSome_firstUnanswered_iff]
    exact ⟨_, List.mem_filter.mpr ⟨hscreen, by simpa [Screen.loopName] using houtside⟩, hwaits⟩
  | member hl hmember hscreen =>
    refine ⟨_, loop_mem_divisionsOf.mpr hl, ?_⟩
    rw [run_divisionPoint_loop, Option.isSome_or,
      isSome_unfinishedPoint_iff.mpr ⟨_, hmember.mem, hmember.prop⟩, Bool.true_or]
  | hub hl hpending hhub =>
    refine ⟨_, loop_mem_divisionsOf.mpr hl, ?_⟩
    rw [run_divisionPoint_loop, Option.isSome_or,
      pendingHub_eq_some_iff.mpr ⟨hpending, hub?_of_isHub hf hhub, havail⟩,
      Option.map_some, Option.isSome_some, Bool.or_true]

/-- **The search ends at a screen if there is any** where the subcategory is gone on with. -/
theorem isSome_resumePoint_iff (hf : f.Arranged) :
    ((f.resumePoint ctx s item).run facts).isSome = true ↔
      ∃ p, p.screen.availableAt ctx facts p.item = true ∧ f.ResumesAt ctx facts s item p := by
  constructor
  · intro h
    obtain ⟨p, hp⟩ := Option.isSome_iff_exists.mp h
    exact ⟨p, resumesAt_of_resumePoint hp⟩
  · rintro ⟨p, havail, hp⟩
    rw [resumePoint, Reading.run_findSomeM?, List.findSome?_isSome_iff]
    exact exists_divisionPoint hf hp havail

theorem resumeAt_progress :
    ((f.progress ctx s).run facts).resumeAt = (f.resumePoint ctx s (itemAt facts s)).run facts := by
  simp [progress, itemAt]

/-- **A subcategory is gone on with** at a screen that can be shown: one outside of loops that waits
for an answer, the first that waits for an answer about an unfinished item, or the hub of a loop that
is not marked as done. -/
theorem resumesAt_of_resumeAt (hresume : ((f.progress ctx s).run facts).resumeAt = some p) :
    p.screen.availableAt ctx facts p.item = true ∧
      f.ResumesAt ctx facts s (itemAt facts s) p := by
  rw [resumeAt_progress] at hresume
  exact resumesAt_of_resumePoint hresume

end Flow

namespace Household

/-- A page with a field for a fact. -/
def question (route path : String) : Node :=
  .screen ⟨route, none, some true, false, false, false,
    [⟨.heading route, [], []⟩, ⟨.field path .text false none, [], []⟩,
     ⟨.saveAndContinue, [], []⟩]⟩

/-- The wages, and the employers, one for each job, with a list of the jobs. -/
def workOutline : Outline :=
  ⟨.empty, [.category "income" [.subcategory ⟨"work", [], [], false, false, false, none⟩
    [.topic "wages" [question "wages" "/wages"],
     .topic "employers"
       [.screen ⟨"list", none, some true, false, false, false,
          [⟨.heading "list", [], []⟩, ⟨.collectionManager "/jobs" (some "jobs"), [], []⟩]⟩,
        .loop ⟨"jobs", some "/jobs", false, true, some (.fact "/jobs/*/isDone" .isTrue),
            some "/jobsDone", none⟩
          [question "employer" "/jobs/*/employer"]]]]]⟩

/-- The flow of the outline. -/
def workFlow : Flow :=
  (Flow.build workOutline).toOption.getD (.empty .empty)

end Household

namespace Flow

open Household in
/-- The work is gone on with at the wages, then at the employer of the job by night, and then at the
list of the jobs. -/
theorem resumesAt_household : build workOutline = .ok workFlow ∧
    ∃ work wages list employer, workFlow.subcategories = [work] ∧
      workFlow.screens = [wages, list, employer] ∧
      let resumesAt := fun paths p =>
        ((workFlow.progress default work).run (Household.facts paths)).resumeAt = some p ∧
          workFlow.ResumesAt default (Household.facts paths) work none p
      resumesAt [] ⟨wages, none⟩ ∧
      resumesAt ["/wages", "/jobs/#day/isDone"] ⟨employer, some "night"⟩ ∧
      resumesAt ["/wages", "/jobs/#day/isDone", "/jobs/#night/isDone"] ⟨list, none⟩ := by
  refine ⟨rfl, _, _, _, _, rfl, rfl, ⟨rfl, ?_⟩, ⟨rfl, ?_⟩, ⟨rfl, ?_⟩⟩
  · exact (resumesAt_of_resumeAt rfl).2
  · exact (resumesAt_of_resumeAt rfl).2
  · exact (resumesAt_of_resumeAt rfl).2

/-! ## No resume point -/

/-- A screen with a field that the filer has to answer belongs to a topic. -/
theorem exists_topicRoute_of_asksFor {o : Outline} (hbuild : build o = .ok f) {x : Screen}
    (hx : x ∈ f.screens) {path : String} (hasks : x.AsksFor ctx facts item path) :
    ∃ r, x.topicRoute = some r := by
  obtain ⟨hfold, -⟩ := build_eq_ok.mp hbuild
  rw [screens_of_foldlM hfold] at hx
  obtain ⟨⟨sc, part⟩, he, hplace⟩ := List.mem_filterMap.mp hx
  obtain ⟨f₁, f₂, -, hadd, -⟩ := kept_arranged.of_mem ⟨arranged_empty o.batches, isOpen_outermost _⟩
    hfold he
  cases part with
  | screen head =>
    obtain rfl := Option.some.inj hplace
    obtain ⟨r, -, -, -, hcheck, -⟩ := addScreen_eq_ok.mp hadd
    obtain ⟨hmem, -, hcontent, -⟩ := hasks
    -- a screen outside of topics is refused if it has fields
    obtain ⟨-, -, htopic⟩ := Screen.check_eq_ok.mp hcheck
    exact Option.isSome_iff_exists.mp (htopic ⟨_, hmem, by rw [hcontent]; rfl⟩)
  | category | subcategory | topic | loop | loopEnd | assertion => cases hplace

end Flow

/-- The topic of a screen is declared first in another subcategory than a given one, or in a loop, so
that it is not listed among the sections of the subcategory. -/
def Screen.IsListedElsewhere (o : Outline) (s : Subcategory) (x : Screen) : Prop :=
  ∃ t, (o.sites.filterMap Site.topic?).find? (·.fullRoute = t.fullRoute) = some t ∧
    x.topicRoute = some t.fullRoute ∧ (t.subcategoryRoute ≠ s.route ∨ t.loop.isSome = true)

namespace Flow

/-- **If a subcategory is not gone on with, its fields are filled in**, on every screen outside of
loops that can be shown, unless the screen is listed elsewhere. -/
theorem complete_of_resumeAt_none {o : Outline} (hbuild : build o = .ok f)
    (hnone : ((f.progress ctx s).run facts).resumeAt = none) :
    ∀ x ∈ f.screensOf s, x.loopName = none →
      x.availableAt ctx facts (itemAt facts s) = true →
      ∀ path, x.AsksFor ctx facts (itemAt facts s) path →
        IsCompleteAt facts (itemAt facts s) path ∨ x.IsListedElsewhere o s := by
  intro x hx houtside havail path hasks
  have hf := arranged_of_build hbuild
  have hscreen := (mem_screensOf.mp hx).1
  by_cases hcomplete : IsCompleteAt facts (itemAt facts s) path
  · exact .inl hcomplete
  · right
    obtain ⟨r, hr⟩ := exists_topicRoute_of_asksFor hbuild hscreen hasks
    obtain ⟨t, ht, rfl⟩ := hf.topicKnown x hscreen r hr
    refine ⟨t, find?_declared hbuild ht, hr, ?_⟩
    by_contra hlisted
    obtain ⟨hown, houtermost⟩ := not_or.mp hlisted
    have hsection : t ∈ f.topicsOf s := List.mem_filter.mpr ⟨ht, by simpa using hown⟩
    have hmember : x ∈ f.screensOfTopic t := List.mem_filter.mpr ⟨hscreen, by simpa using hr⟩
    -- the topic is a section of the subcategory, so the search would end at the screen
    have hpoint : f.ResumesAt ctx facts s (itemAt facts s) ⟨x, itemAt facts s⟩ :=
      .topic hsection (by simpa using houtermost) hmember houtside
        ⟨havail, path, .inl hasks, hcomplete⟩
    have hsome := (isSome_resumePoint_iff hf).mpr ⟨_, havail, hpoint⟩
    rw [← resumeAt_progress, hnone] at hsome
    cases hsome

open Household in
/-- Nothing is left to do for the work when all facts are there, the wages included. -/
theorem complete_household : build workOutline = .ok workFlow ∧
    ∃ work wages list employer, workFlow.subcategories = [work] ∧
      workFlow.screens = [wages, list, employer] ∧
      let known := Household.facts ["/wages", "/jobs/#day/isDone", "/jobs/#night/isDone", "/jobsDone"]
      ((workFlow.progress default work).run known).resumeAt = none ∧
      wages.AsksFor default known none "/wages" ∧ ¬ wages.IsListedElsewhere workOutline work ∧
      IsCompleteAt known none "/wages" := by
  have hbuild : build workOutline = .ok workFlow := rfl
  refine ⟨hbuild, _, _, _, _, rfl, rfl, rfl, ?_⟩
  have hasks : Screen.AsksFor default
      (Household.facts ["/wages", "/jobs/#day/isDone", "/jobs/#night/isDone", "/jobsDone"]) none
      workFlow.screens[0] "/wages" :=
    .field (List.mem_cons_of_mem _ List.mem_cons_self) rfl rfl (by decide) (by decide) rfl
  have hlisted : ¬ Screen.IsListedElsewhere workOutline workFlow.subcategories[0]
      workFlow.screens[0] := by
    rintro ⟨t, hfirst, hroute, helsewhere⟩
    rw [← Option.some.inj hroute] at hfirst
    obtain rfl := Option.some.inj (hfirst.symm.trans (by rfl))
    revert helsewhere
    decide
  refine ⟨hasks, hlisted, ?_⟩
  exact (complete_of_resumeAt_none hbuild rfl _ (by decide) rfl rfl _ hasks).resolve_right hlisted

end Flow

namespace Household

/-- The topic of the names is declared in the loop through the people, and again outside of it. -/
def lastNameOutline : Outline :=
  ⟨.empty, [.category "you" [.subcategory ⟨"family", [], [], false, false, false, none⟩
    [.loop ⟨"people", some "/people", true, false, none, none, none⟩
       [.topic "names" [page "first" none true]],
     .topic "names" [question "last" "/lastName"]]]]⟩

/-- Two subcategories have topics with the same full route. -/
def namesakeOutline : Outline :=
  ⟨.empty, [.category "you"
    [.subcategory ⟨"family", [], [], false, false, false, none⟩
       [.topic "names/all" [page "first" none true]],
     .subcategory ⟨"family/names", [], [], false, false, false, none⟩
       [.topic "all" [question "last" "/lastName"]]]]⟩

end Household

namespace Flow

/-- A subcategory is not gone on with, although it has a screen outside of loops that can be shown
and asks for a fact which is not complete. -/
def OverlooksField (o : Outline) (ctx : Context) (facts : String → Fact) (path : String) : Prop :=
  ∃ f s x, build o = .ok f ∧ s ∈ f.subcategories ∧
    ((f.progress ctx s).run facts).resumeAt = none ∧ x ∈ f.screensOf s ∧ x.loopName = none ∧
    x.availableAt ctx facts (itemAt facts s) = true ∧
    x.AsksFor ctx facts (itemAt facts s) path ∧ ¬ IsCompleteAt facts (itemAt facts s) path

open Household in
/-- A subcategory may have a screen with an open field and yet not be gone on with, if the topic of
the screen is declared before in a loop or in another subcategory. -/
theorem not_every_field_complete :
    OverlooksField lastNameOutline default (Household.facts []) "/lastName" ∧
      OverlooksField namesakeOutline default (Household.facts []) "/lastName" := by
  have hunknown : ¬ IsCompleteAt (Household.facts []) none "/lastName" := by
    rintro ⟨concrete, hresolve, hcomplete⟩
    obtain rfl := Option.some.inj hresolve
    cases hcomplete
  constructor
  · refine ⟨_, _, _, rfl, List.mem_cons_self, rfl, List.mem_cons_of_mem _ List.mem_cons_self,
      rfl, rfl, ?_, hunknown⟩
    exact .field (List.mem_cons_of_mem _ List.mem_cons_self) rfl rfl (by decide) (by decide) rfl
  · refine ⟨_, _, _, rfl, List.mem_cons_of_mem _ List.mem_cons_self, rfl, List.mem_cons_self,
      rfl, rfl, ?_, hunknown⟩
    exact .field (List.mem_cons_of_mem _ List.mem_cons_self) rfl rfl (by decide) (by decide) rfl

end Flow

end Interview

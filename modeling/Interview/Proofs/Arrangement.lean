import Interview.Proofs.Building
import Interview.Proofs.Stretch
import Mathlib.Data.List.Nodup
import Mathlib.Data.List.TakeWhile

/-!
# How a built flow is arranged

Routing, the checklist and the resume points all rely on how the lists of a flow fit together:
names and routes are unique, every screen names parts that are there, and the screens of a loop, or
of a subcategory, form a stretch of all screens. `Flow.Arranged` collects this, and
`Flow.arranged_of_build` shows it of every flow that is built.

The proof follows the tree with a second invariant, `Scope.IsOpen`: the parts around the entry that
is taken next are known already, and their screens reach to the end of the list. That is why a part
goes on without interruption until it is left, and why nothing is added to it afterwards.
-/

namespace Interview

/-- What screens of a loop know of it. -/
def Loop.membership (l : Loop) : LoopMembership :=
  ⟨l.name, l.autoIterates, l.isInner⟩

/-- A screen that leads from item to item belongs to a loop. -/
theorem Screen.isSome_loopName {s : Screen} (hauto : s.isAutoIterating = true) :
    s.loopName.isSome = true := by
  obtain ⟨m, hm, -⟩ := (Option.any_eq_true _ _).mp hauto
  simp [loopName, hm]

namespace Flow

/-- The lists of a flow fit together. -/
structure Arranged (f : Flow) : Prop where
  screenRoutes : (f.screens.map (·.fullRoute)).Nodup
  subcategoryRoutes : (f.subcategories.map (·.route)).Nodup
  topicRoutes : (f.topics.map (·.fullRoute)).Nodup
  loopNames : (f.loops.map (·.name)).Nodup
  /-- A subcategory stands in the category at its position. -/
  categorized : ∀ s ∈ f.subcategories, f.categories[s.category]? = some ⟨s.categoryRoute⟩
  /-- Subcategories come category by category. -/
  categoryOrder : f.subcategories.Pairwise (·.category ≤ ·.category)
  /-- A screen stands in a subcategory of its category. -/
  placed : ∀ s ∈ f.screens, ∃ c ∈ f.subcategories,
    c.route = s.subcategoryRoute ∧ c.categoryRoute = s.categoryRoute
  /-- The topic of a screen is known. -/
  topicKnown : ∀ s ∈ f.screens, ∀ r, s.topicRoute = some r → ∃ t ∈ f.topics, t.fullRoute = r
  /-- A screen of a loop knows it, is shown for its collection and stands in its subcategory. -/
  member : ∀ s ∈ f.screens, ∀ m, s.membership = some m → ∃ l ∈ f.loops, l.membership = m ∧
    s.collection = some l.collection ∧ s.subcategoryRoute = l.subcategoryRoute
  loopStretch : ∀ name, IsStretch (fun s : Screen => s.loopName = some name) f.screens
  subcategoryStretch : ∀ route, IsStretch (fun s : Screen => s.subcategoryRoute = route) f.screens

end Flow

/-- The parts around a node are known to a flow, and their screens reach to the end of the list. -/
structure Scope.IsOpen (sc : Scope) (f : Flow) : Prop where
  category : ∀ c, sc.category = some c → f.categories.getLast? = some ⟨c⟩
  subcategory : ∀ r, sc.subcategory = some r → ∃ s ∈ f.subcategories,
    s.route = r ∧ sc.category = some s.categoryRoute
  topic : ∀ r, sc.topic = some r → ∃ t ∈ f.topics, t.fullRoute = r
  loop : ∀ m, sc.loop = some m → ∃ l ∈ f.loops, l.membership = m ∧
    sc.collection = some l.collection ∧ sc.subcategory = some l.subcategoryRoute
  loopStretch : ∀ m, sc.loop = some m →
    IsOpenStretch (fun s : Screen => s.loopName = some m.name) f.screens
  subcategoryStretch : ∀ r, sc.subcategory = some r →
    IsOpenStretch (fun s : Screen => s.subcategoryRoute = r) f.screens

/-! ## Adding to lists -/

/-- Keys stay distinct when an element with a new key is added. -/
theorem nodup_map_concat {α β : Type} {key : α → β} {xs : List α} {x : α}
    (h : (xs.map key).Nodup) (hx : ∀ y ∈ xs, key y ≠ key x) : ((xs ++ [x]).map key).Nodup := by
  rw [List.map_append, List.nodup_append]
  refine ⟨h, by simp, ?_⟩
  rintro _ hy _ hz rfl
  obtain ⟨y, hmem, heq⟩ := List.mem_map.mp hy
  exact hx y hmem (heq.trans (List.mem_singleton.mp hz))

/-- Where keys are distinct, an element is found by its key. -/
theorem find?_key_eq_some {α κ : Type} [DecidableEq κ] {key : α → κ} {xs : List α} {x : α}
    (h : (xs.map key).Nodup) (hx : x ∈ xs) : xs.find? (fun y => key y = key x) = some x := by
  cases hfind : xs.find? (fun y => key y = key x) with
  | none => simpa using List.find?_eq_none.mp hfind x hx
  | some y =>
    have hkey : key y = key x := by simpa using List.find?_some hfind
    rw [List.inj_on_of_nodup_map h (List.mem_of_find?_eq_some hfind) hx hkey]

/-- A property of all elements goes on to hold when an element with it is added. -/
theorem forall_mem_concat {α : Type} {Q : α → Prop} {xs : List α} {x : α}
    (h : ∀ y ∈ xs, Q y) (hx : Q x) : ∀ y ∈ xs ++ [x], Q y := by
  intro y hy
  rcases List.mem_append.mp hy with hy | hy
  · exact h y hy
  · rw [List.mem_singleton.mp hy]
    exact hx

namespace Flow

variable {f g : Flow} {sc : Scope}

@[simp] theorem loops_concat_loop (f : Flow) (l : Loop) :
    loops { f with divisions := f.divisions ++ [.loop l] } = f.loops ++ [l] := by
  simp [loops, Division.loop?]

@[simp] theorem topics_concat_loop (f : Flow) (l : Loop) :
    topics { f with divisions := f.divisions ++ [.loop l] } = f.topics := by
  simp [topics, Division.topic?]

@[simp] theorem loops_concat_topic (f : Flow) (t : Topic) :
    loops { f with divisions := f.divisions ++ [.topic t] } = f.loops := by
  simp [loops, Division.loop?]

@[simp] theorem topics_concat_topic (f : Flow) (t : Topic) :
    topics { f with divisions := f.divisions ++ [.topic t] } = f.topics ++ [t] := by
  simp [topics, Division.topic?]

/-! ## The scope -/

/-- Below a category that has just been taken, no subcategory is open. -/
theorem subcategory_none (hsc : sc.IsOpen f) (hcat : sc.category = none) :
    sc.subcategory = none := by
  cases hsub : sc.subcategory with
  | none => rfl
  | some r =>
    obtain ⟨s, -, -, hs⟩ := hsc.subcategory r hsub
    rw [hcat] at hs
    cases hs

/-- Outside of subcategories, no loop is open. -/
theorem loop_none (hsc : sc.IsOpen f) (hsub : sc.subcategory = none) : sc.loop = none := by
  cases hloop : sc.loop with
  | none => rfl
  | some m =>
    obtain ⟨l, -, -, -, hl⟩ := hsc.loop m hloop
    rw [hsub] at hl
    cases hl

/-- The parts of a scope stay known while a flow grows. -/
theorem isOpen_of_growsTo (hsc : sc.IsOpen f) (hgrow : f.GrowsTo g)
    (hcat : ∀ c, sc.category = some c → g.categories.getLast? = some ⟨c⟩)
    (hloop : ∀ m, sc.loop = some m →
      IsOpenStretch (fun s : Screen => s.loopName = some m.name) g.screens)
    (hsub : ∀ r, sc.subcategory = some r →
      IsOpenStretch (fun s : Screen => s.subcategoryRoute = r) g.screens) : sc.IsOpen g where
  category := hcat
  subcategory r hr :=
    have ⟨s, hs, hroute⟩ := hsc.subcategory r hr
    ⟨s, hgrow.subcategories.subset hs, hroute⟩
  topic r hr :=
    have ⟨t, ht, hroute⟩ := hsc.topic r hr
    ⟨t, hgrow.topics_subset ht, hroute⟩
  loop m hm :=
    have ⟨l, hl, hfields⟩ := hsc.loop m hm
    ⟨l, hgrow.loops_subset hl, hfields⟩
  loopStretch := hloop
  subcategoryStretch := hsub

/-- A scope is open again when a deeper one, in which its parts are open as well, is left. -/
theorem isOpen_leave {sc' : Scope} (hsc : sc.IsOpen f) (hgrow : f.GrowsTo g) (hsc' : sc'.IsOpen g)
    (hcat : ∀ c, sc.category = some c → sc'.category = some c)
    (hloop : ∀ m, sc.loop = some m → sc'.loop = some m)
    (hsub : ∀ r, sc.subcategory = some r → sc'.subcategory = some r) : sc.IsOpen g :=
  isOpen_of_growsTo hsc hgrow (fun c hc => hsc'.category c (hcat c hc))
    (fun m hm => hsc'.loopStretch m (hloop m hm))
    (fun r hr => hsc'.subcategoryStretch r (hsub r hr))

/-! ## Each entry -/

theorem arranged_empty (batches : Batch.Registry) : (empty batches).Arranged where
  screenRoutes := List.nodup_nil
  subcategoryRoutes := List.nodup_nil
  topicRoutes := List.nodup_nil
  loopNames := List.nodup_nil
  categorized _ h := nomatch h
  categoryOrder := .nil
  placed _ h := nomatch h
  topicKnown _ h := nomatch h
  member _ h := nomatch h
  loopStretch _ := (IsOpenStretch.of_none (by simp [empty])).isStretch
  subcategoryStretch _ := (IsOpenStretch.of_none (by simp [empty])).isStretch

theorem isOpen_outermost (f : Flow) : Scope.outermost.IsOpen f where
  category _ h := nomatch h
  subcategory _ h := nomatch h
  topic _ h := nomatch h
  loop _ h := nomatch h
  loopStretch _ h := nomatch h
  subcategoryStretch _ h := nomatch h

theorem arranged_category {route : String} (hf : f.Arranged)
    (hadd : f.addCategory sc route = .ok g) : g.Arranged := by
  obtain ⟨-, rfl⟩ := addCategory_eq_ok.mp hadd
  refine { hf with categorized := fun s hs => ?_ }
  have hpos := hf.categorized s hs
  rw [List.getElem?_append_left (List.getElem?_eq_some_iff.mp hpos).1]
  exact hpos

theorem isOpen_category {route : String} (hsc : sc.IsOpen f)
    (hadd : f.addCategory sc route = .ok g) : (sc.enterCategory route).IsOpen g := by
  obtain ⟨hcat, rfl⟩ := addCategory_eq_ok.mp hadd
  have hsub := subcategory_none hsc hcat
  refine { hsc with
    category := fun c hc => ?_
    subcategory := fun r hr => ?_
    loop := fun m hm => hsc.loop m hm }
  · obtain rfl := Option.some.inj hc
    simp
  · change sc.subcategory = some r at hr
    rw [hsub] at hr
    cases hr

theorem arranged_subcategory {head : SubcategoryHead} (hf : f.Arranged) (hsc : sc.IsOpen f)
    (hadd : f.addSubcategory sc head = .ok g) : g.Arranged := by
  obtain ⟨c, hcat, -, hfresh, rfl⟩ := addSubcategory_eq_ok.mp hadd
  have hlast : f.categories[f.categories.length - 1]? = some ⟨c⟩ := by
    -- the open category is the last one
    rw [← List.getLast?_eq_getElem?]
    exact hsc.category c hcat
  refine { hf with
    subcategoryRoutes := nodup_map_concat hf.subcategoryRoutes fun s hs => ?_
    categorized := forall_mem_concat hf.categorized hlast
    categoryOrder := List.pairwise_append.mpr
      ⟨hf.categoryOrder, List.pairwise_singleton _ _, fun s hs t ht => ?_⟩
    placed := fun s hs => ?_ }
  · simpa [Subcategory.place] using List.find?_eq_none.mp hfresh s hs
  · obtain rfl := List.mem_singleton.mp ht
    have hlt := (List.getElem?_eq_some_iff.mp (hf.categorized s hs)).1
    exact Nat.le_sub_one_of_lt hlt
  · obtain ⟨d, hd, hroute⟩ := hf.placed s hs
    exact ⟨d, List.mem_append_left _ hd, hroute⟩

theorem isOpen_subcategory {head : SubcategoryHead} (hf : f.Arranged) (hsc : sc.IsOpen f)
    (hadd : f.addSubcategory sc head = .ok g) : (sc.enterSubcategory head).IsOpen g := by
  obtain ⟨c, hcat, hsub, hfresh, rfl⟩ := addSubcategory_eq_ok.mp hadd
  have hloop := loop_none hsc hsub
  refine { hsc with
    subcategory := fun r hr => ?_
    loop := fun m hm => ?_
    subcategoryStretch := fun r hr => ?_ }
  · refine ⟨_, List.mem_append_right _ (List.mem_singleton_self _), ?_, hcat⟩
    rw [← Option.some.inj hr, hcat]
    rfl
  · -- a loop that is open would lie in an open subcategory
    change sc.loop = some m at hm
    rw [hloop] at hm
    cases hm
  · -- the route is fresh, and the subcategories of the screens are known
    obtain rfl := Option.some.inj hr
    refine IsOpenStretch.of_none fun s hs => ?_
    obtain ⟨d, hd, hroute, -⟩ := hf.placed s hs
    have hne := List.find?_eq_none.mp hfresh d hd
    rw [hcat, ← hroute]
    simpa using hne

theorem arranged_topic {route : String} (hf : f.Arranged)
    (hadd : f.addTopic sc route = .ok g) : g.Arranged := by
  obtain ⟨r, -, rfl⟩ := addTopic_eq_ok.mp hadd
  split
  · exact hf
  · next hfresh =>
    refine { hf with
      topicRoutes := ?_
      loopNames := by simpa using hf.loopNames
      topicKnown := fun s hs r hr => ?_
      member := fun s hs m hm => by simpa using hf.member s hs m hm }
    · rw [topics_concat_topic]
      refine nodup_map_concat hf.topicRoutes fun t ht => ?_
      rw [Option.not_isSome_iff_eq_none] at hfresh
      simpa [Topic.place] using List.find?_eq_none.mp hfresh t ht
    · obtain ⟨t, ht, hroute⟩ := hf.topicKnown s hs r hr
      rw [topics_concat_topic]
      exact ⟨t, List.mem_append_left _ ht, hroute⟩

theorem isOpen_topic {route : String} (hsc : sc.IsOpen f)
    (hadd : f.addTopic sc route = .ok g) : (sc.enterTopic route).IsOpen g := by
  have hgrow := growsTo_of_add (e := ⟨sc, .topic route⟩) hadd
  obtain ⟨r, hsub, hg⟩ := addTopic_eq_ok.mp hadd
  have hsame : g.categories = f.categories ∧ g.screens = f.screens := by
    rw [hg]
    split <;> exact ⟨rfl, rfl⟩
  have hopen : sc.IsOpen g := by
    refine isOpen_of_growsTo hsc hgrow ?_ ?_ ?_
    · rw [hsame.1]
      exact hsc.category
    · rw [hsame.2]
      exact hsc.loopStretch
    · rw [hsame.2]
      exact hsc.subcategoryStretch
  refine { hopen with topic := fun t ht => ?_ }
  obtain rfl := Option.some.inj ht
  rw [hsub, hg]
  -- a topic that is known already is gone on with
  split
  · next hknown =>
    obtain ⟨t, ht⟩ := Option.isSome_iff_exists.mp hknown
    exact ⟨t, List.mem_of_find?_eq_some ht, by simpa using List.find?_some ht⟩
  · exact ⟨.place sc r route, by simp, rfl⟩

theorem arranged_loop {head : LoopHead} (hf : f.Arranged) (hadd : f.addLoop sc head = .ok g) :
    g.Arranged := by
  obtain ⟨r, c, fullRoute, -, -, hfresh, -, -, rfl⟩ := addLoop_eq_ok.mp hadd
  refine { hf with
    topicRoutes := by simpa using hf.topicRoutes
    loopNames := ?_
    topicKnown := fun s hs r hr => by simpa using hf.topicKnown s hs r hr
    member := fun s hs m hm => ?_ }
  · rw [loops_concat_loop]
    refine nodup_map_concat hf.loopNames fun l hl => ?_
    simpa [Loop.place] using List.find?_eq_none.mp hfresh l hl
  · obtain ⟨l, hl, hfields⟩ := hf.member s hs m hm
    rw [loops_concat_loop]
    exact ⟨l, List.mem_append_left _ hl, hfields⟩

theorem isOpen_loop {head : LoopHead} (hf : f.Arranged) (hsc : sc.IsOpen f)
    (hadd : f.addLoop sc head = .ok g) : (sc.enterLoop head).IsOpen g := by
  have hgrow := growsTo_of_add (e := ⟨sc, .loop head⟩) hadd
  obtain ⟨r, c, fullRoute, hsub, -, hfresh, hcollection, -, rfl⟩ := addLoop_eq_ok.mp hadd
  refine { isOpen_of_growsTo hsc hgrow hsc.category hsc.loopStretch hsc.subcategoryStretch with
    loop := fun m hm => ?_
    loopStretch := fun m hm => ?_ }
  · obtain rfl := Option.some.inj hm
    exact ⟨.place r fullRoute c head, by simp, rfl, hcollection, hsub⟩
  · obtain rfl := Option.some.inj hm
    refine IsOpenStretch.of_none fun s hs => ?_
    -- a screen that names the loop would name one that is known already
    rw [decide_eq_false_iff_not]
    intro hname
    obtain ⟨m, hm, hmname⟩ := Option.map_eq_some_iff.mp hname
    obtain ⟨l, hl, rfl, -⟩ := hf.member s hs m hm
    have hne := List.find?_eq_none.mp hfresh l hl
    exact absurd hmname (by simpa [Loop.membership] using hne)

theorem loopName_place {r : String} {head : ScreenHead} :
    (Screen.place sc r head).loopName = sc.loop.map (·.name) := rfl

theorem isOpen_screen {head : ScreenHead} (hsc : sc.IsOpen f)
    (hadd : f.addScreen sc head = .ok g) : sc.IsOpen g := by
  have hgrow := growsTo_of_add (e := ⟨sc, .screen head⟩) hadd
  obtain ⟨r, hsub, -, -, -, rfl⟩ := addScreen_eq_ok.mp hadd
  refine isOpen_of_growsTo hsc hgrow hsc.category (fun m hm => ?_) (fun r' hr => ?_)
  · exact (hsc.loopStretch m hm).concat (by simp [loopName_place, hm])
  · rw [hsub] at hr
    obtain rfl := Option.some.inj hr
    exact (hsc.subcategoryStretch r hsub).concat (by simp [Screen.place])

theorem arranged_screen {head : ScreenHead} (hf : f.Arranged) (hsc : sc.IsOpen f)
    (hadd : f.addScreen sc head = .ok g) : g.Arranged := by
  obtain ⟨r, hsub, hfresh, -, -, rfl⟩ := addScreen_eq_ok.mp hadd
  refine { hf with
    screenRoutes := nodup_map_concat hf.screenRoutes fun s hs => ?_
    placed := forall_mem_concat hf.placed ?_
    topicKnown := forall_mem_concat hf.topicKnown fun t ht => hsc.topic t ht
    member := forall_mem_concat hf.member fun m hm => ?_
    loopStretch := fun name => ?_
    subcategoryStretch := fun route => ?_ }
  · simpa [Screen.place] using List.find?_eq_none.mp hfresh s hs
  · obtain ⟨c, hc, hroute, hcat⟩ := hsc.subcategory r hsub
    exact ⟨c, hc, hroute, by simp [Screen.place, hcat]⟩
  · obtain ⟨l, hl, hmember, hcollection, hroute⟩ := hsc.loop m hm
    rw [hsub] at hroute
    exact ⟨l, hl, hmember, hcollection, Option.some.inj hroute⟩
  · by_cases hname : sc.loop.map (·.name) = some name
    · -- the screen goes on with the open loop
      obtain ⟨m, hm, rfl⟩ := Option.map_eq_some_iff.mp hname
      exact ((hsc.loopStretch m hm).concat (by simp [loopName_place, hm])).isStretch
    · exact (hf.loopStretch name).concat (by simpa [loopName_place] using hname)
  · by_cases hroute : r = route
    · subst hroute
      exact ((hsc.subcategoryStretch r hsub).concat (by simp [Screen.place])).isStretch
    · exact (hf.subcategoryStretch route).concat (by simp [Screen.place, hroute])

/-! ## All entries -/

/-- The arrangement of a flow is kept by building. -/
theorem kept_arranged : Kept fun sc f => f.Arranged ∧ sc.IsOpen f where
  category hf hadd := ⟨arranged_category hf.1 hadd, isOpen_category hf.2 hadd⟩
  subcategory hf hadd := ⟨arranged_subcategory hf.1 hf.2 hadd, isOpen_subcategory hf.1 hf.2 hadd⟩
  topic hf hadd := ⟨arranged_topic hf.1 hadd, isOpen_topic hf.2 hadd⟩
  loop hf hadd := ⟨arranged_loop hf.1 hadd, isOpen_loop hf.1 hf.2 hadd⟩
  gate hf := ⟨hf.1, { hf.2 with }⟩
  screen hf hadd := ⟨arranged_screen hf.1 hf.2 hadd, isOpen_screen hf.2 hadd⟩
  assertion hf hadd := by
    have hgrow := growsTo_of_add (e := ⟨_, .assertion _⟩) hadd
    obtain ⟨r, -, rfl⟩ := addAssertion_eq_ok.mp hadd
    exact ⟨{ hf.1 with }, isOpen_of_growsTo hf.2 hgrow hf.2.category hf.2.loopStretch
      hf.2.subcategoryStretch⟩
  leaveCategory hf hnone hgrow hg := ⟨hg.1, isOpen_leave hf.2 hgrow hg.2
    (fun c hc => by rw [hnone] at hc; cases hc) (fun _ h => h) (fun _ h => h)⟩
  leaveSubcategory hf hnone hgrow hg := ⟨hg.1, isOpen_leave hf.2 hgrow hg.2
    (fun _ h => h) (fun _ h => h) (fun r hr => by rw [hnone] at hr; cases hr)⟩
  leaveTopic hf hgrow hg := ⟨hg.1, isOpen_leave hf.2 hgrow hg.2
    (fun _ h => h) (fun _ h => h) (fun _ h => h)⟩
  leaveLoop hf hnone hgrow hg _ := ⟨hg.1, isOpen_leave hf.2 hgrow hg.2
    (fun _ h => h) (fun m hm => by rw [hnone] at hm; cases hm) (fun _ h => h)⟩
  leaveGate hf hgrow hg := ⟨hg.1, isOpen_leave hf.2 hgrow hg.2
    (fun _ h => h) (fun _ h => h) (fun _ h => h)⟩

/-- **Every flow that is built is arranged.** -/
theorem arranged_of_build {o : Outline} (hbuild : build o = .ok f) : f.Arranged :=
  (kept_arranged.of_build ⟨arranged_empty o.batches, isOpen_outermost _⟩ hbuild).1

/-! ## What follows from the arrangement -/

theorem mem_screensOfLoop {l : Loop} {s : Screen} :
    s ∈ f.screensOfLoop l ↔ s ∈ f.screens ∧ s.loopName = some l.name := by
  simp [screensOfLoop]

theorem mem_screensOf {s : Subcategory} {x : Screen} :
    x ∈ f.screensOf s ↔ x ∈ f.screens ∧ x.subcategoryRoute = s.route := by
  simp [screensOf]

theorem mem_loopsOf {s : Subcategory} {l : Loop} :
    l ∈ f.loopsOf s ↔ l ∈ f.loops ∧ l.subcategoryRoute = s.route := by
  simp [loopsOf]

/-- The screens before a loop. -/
def screensBefore (f : Flow) (l : Loop) : List Screen :=
  f.screens.takeWhile (·.loopName ≠ some l.name)

theorem loopName_ne_of_mem_screensBefore {l : Loop} {s : Screen} (hs : s ∈ f.screensBefore l) :
    s.loopName ≠ some l.name := by
  simpa using List.all_eq_true.mp List.all_takeWhile s hs

namespace Arranged

/-- A screen is known by its full route. -/
theorem eq_of_fullRoute (hf : f.Arranged) {s t : Screen} (hs : s ∈ f.screens) (ht : t ∈ f.screens)
    (hroute : s.fullRoute = t.fullRoute) : s = t :=
  List.inj_on_of_nodup_map hf.screenRoutes hs ht hroute

/-- A loop is found by its name. -/
theorem loop?_eq_some (hf : f.Arranged) {l : Loop} (hl : l ∈ f.loops) :
    f.loop? l.name = some l :=
  find?_key_eq_some hf.loopNames hl

/-- A subcategory is found by its route. -/
theorem subcategory?_eq_some (hf : f.Arranged) {s : Subcategory} (hs : s ∈ f.subcategories) :
    f.subcategory? s.route = some s :=
  find?_key_eq_some hf.subcategoryRoutes hs

/-- What a screen of a loop knows of it. -/
theorem of_mem_screensOfLoop (hf : f.Arranged) {l : Loop} (hl : l ∈ f.loops) {s : Screen}
    (hs : s ∈ f.screensOfLoop l) : s.membership = some l.membership ∧
      s.collection = some l.collection ∧ s.subcategoryRoute = l.subcategoryRoute := by
  obtain ⟨hmem, hname⟩ := mem_screensOfLoop.mp hs
  obtain ⟨m, hm, hmname⟩ := Option.map_eq_some_iff.mp hname
  obtain ⟨l', hl', rfl, hfields⟩ := hf.member s hmem m hm
  obtain rfl := List.inj_on_of_nodup_map hf.loopNames hl' hl hmname
  exact ⟨hm, hfields⟩

/-- The screens of a loop lie in the subcategory that the loop lies in. -/
theorem mem_screensOf_iff (hf : f.Arranged) {l : Loop} (hl : l ∈ f.loops) {x : Screen}
    (hx : x ∈ f.screensOfLoop l) {s : Subcategory} : x ∈ f.screensOf s ↔ l ∈ f.loopsOf s := by
  obtain ⟨-, -, hsame⟩ := hf.of_mem_screensOfLoop hl hx
  rw [mem_screensOf, mem_loopsOf, hsame, and_iff_right (mem_screensOfLoop.mp hx).1,
    and_iff_right hl]

theorem isAutoIterating_of_mem (hf : f.Arranged) {l : Loop} (hl : l ∈ f.loops) {s : Screen}
    (hs : s ∈ f.screensOfLoop l) : s.isAutoIterating = l.autoIterates := by
  simp [Screen.isAutoIterating, (hf.of_mem_screensOfLoop hl hs).1, Loop.membership]

/-- The loop that a screen names is there. -/
theorem exists_loop_of_loopName (hf : f.Arranged) {s : Screen} (hs : s ∈ f.screens) {name : String}
    (hname : s.loopName = some name) : ∃ l ∈ f.loops, l.name = name := by
  obtain ⟨m, hm, rfl⟩ := Option.map_eq_some_iff.mp hname
  obtain ⟨l, hl, rfl, -⟩ := hf.member s hs m hm
  exact ⟨l, hl, rfl⟩

/-- A screen that leads from item to item belongs to a loop that does. -/
theorem exists_loop_of_isAutoIterating (hf : f.Arranged) {s : Screen} (hs : s ∈ f.screens)
    (hauto : s.isAutoIterating = true) :
    ∃ l ∈ f.loops, l.autoIterates = true ∧ s ∈ f.screensOfLoop l := by
  obtain ⟨m, hm, hiterates⟩ := (Option.any_eq_true _ _).mp hauto
  obtain ⟨l, hl, rfl, -⟩ := hf.member s hs m hm
  have hname : s.loopName = some l.name := by simp [Screen.loopName, hm, Loop.membership]
  exact ⟨l, hl, hiterates, mem_screensOfLoop.mpr ⟨hs, hname⟩⟩

/-- Between two screens of a loop there are only screens of it. -/
theorem loopName_between (hf : f.Arranged) {s t u : Screen} (hsub : [s, t, u].Sublist f.screens)
    (hloop : s.loopName = u.loopName) (hin : u.loopName.isSome = true) :
    t.loopName = u.loopName := by
  obtain ⟨name, hname⟩ := Option.isSome_iff_exists.mp hin
  have hbetween := (hf.loopStretch name).mem_between hsub (by simpa using hloop.trans hname)
    (by simpa using hname)
  rw [hname]
  simpa using hbetween

/-- The screens before a loop, those of the loop, and those past it. -/
theorem exists_screens_eq (hf : f.Arranged) (l : Loop) :
    ∃ past, f.screens = f.screensBefore l ++ f.screensOfLoop l ++ past ∧
      ∀ s ∈ past, s.loopName ≠ some l.name := by
  obtain ⟨before, past, heq, hbefore, hpast⟩ := (hf.loopStretch l.name).split
  have hbefore : ∀ s ∈ before, decide (s.loopName ≠ some l.name) = true := fun s hs => by
    simpa using hbefore s hs
  have hpast : ∀ s ∈ past, decide (s.loopName ≠ some l.name) = true := fun s hs => by
    simpa using hpast s hs
  change f.screens = before ++ f.screensOfLoop l ++ past at heq
  have htake : f.screensBefore l =
      before ++ (f.screensOfLoop l ++ past).takeWhile (·.loopName ≠ some l.name) := by
    rw [screensBefore]
    nth_rewrite 1 [heq]
    rw [List.append_assoc, List.takeWhile_append_of_pos hbefore]
  -- the screens before the loop end where its first screen stands
  cases hloop : f.screensOfLoop l with
  | nil =>
    -- without screens of the loop, all screens are before it
    rw [hloop, List.nil_append, List.takeWhile_eq_self_iff.mpr hpast] at htake
    exact ⟨[], by rw [htake, heq, hloop]; simp, by simp⟩
  | cons s xs =>
    have hs : s.loopName = some l.name := (mem_screensOfLoop.mp (hloop ▸ List.mem_cons_self)).2
    rw [hloop, List.cons_append, List.takeWhile_cons_of_neg (by simp [hs]),
      List.append_nil] at htake
    exact ⟨past, by rw [htake, ← hloop, ← heq], fun x hx => by simpa using hpast x hx⟩

end Arranged

end Flow

/-! ## An example

A household is asked for the people in it, one after the other, then for its jobs, of which there is
an overview, and then for its pets. -/

namespace Household

/-- A page with a heading and a button. -/
def page (route : String) (condition : Option Condition) (routed : Bool) : Node :=
  .screen ⟨route, condition, some routed, false, false, false,
    [⟨.heading route, [], []⟩, ⟨.saveAndContinue, [], []⟩]⟩

/-- People are asked for their names if they are new, and for their schools if they go to one. There
are photos of the pets, which the filer is not led to. -/
def outline : Outline :=
  ⟨.empty, [.category "you" [.subcategory ⟨"family", [], [], false, false, false, none⟩
    [page "start" none true,
     .loop ⟨"people", some "/people", true, false, none, none, none⟩
       [page "name" (some (.fact "/people/*/isNew" .isTrue)) true,
        page "school" (some (.fact "/people/*/isStudent" .isTrue)) true],
     page "work" none true,
     .loop ⟨"jobs", some "/jobs", false, false, none, none, none⟩
       [page "employer" none true, page "wages" none true],
     .loop ⟨"pets", some "/pets", true, false, none, none, none⟩
       [page "pet" none true, page "photo" none false],
     page "end" none true]]]⟩

/-- The flow of the outline. -/
def flow : Flow :=
  (Flow.build outline).toOption.getD (.empty .empty)

theorem build_outline : Flow.build outline = .ok flow := rfl

theorem length_screens : flow.screens.length = 9 := rfl

/-- The screen at a position. -/
def screen (i : Fin 9) : Screen :=
  flow.screens.get (i.cast length_screens.symm)

/-- The loop through the people. -/
def people : Loop :=
  ⟨"people", true, false, "/flow/you/family", "/flow/you/family", "/people", none, none, none⟩

/-- The loop through the jobs. -/
def jobs : Loop :=
  ⟨"jobs", false, false, "/flow/you/family", "/flow/you/family", "/jobs", none, none, none⟩

/-- Facts about two people, two jobs and two pets: those at the given paths are true. -/
def facts (paths : List String) (path : String) : Fact :=
  if path = "/people" then ⟨true, some (.collection ["ann", "bob"])⟩
  else if path = "/jobs" then ⟨true, some (.collection ["day", "night"])⟩
  else if path = "/pets" then ⟨true, some (.collection ["cat", "dog"])⟩
  else if path ∈ paths then ⟨true, some (.boolean true)⟩
  else .unknown

end Household

end Interview

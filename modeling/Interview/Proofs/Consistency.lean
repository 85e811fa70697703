import Interview.Proofs.GraphBuilding

/-!
# How the numbers of a graph fit together

The router, the checklist and the alerts go through a graph by its numbers, and rely on the tables
and lists to agree: what a route leads to has that route, what a part lists is there and belongs to
it, and nothing else lists it. `Graph.IsConsistent` collects this, and `Graph.isConsistent_of_build`
shows it of every graph that is built.

A graph that is built is the graph of a flow (`Graph.build_eq`), where the numbers are positions.
What is listed is therefore in order and each once, and the owners are found by the arrangement of
the flow. Two facts come on top: a loop that has been left has a screen (`Flow.Inhabited`), and the
loops among the sections of a subcategory are its loops (`Flow.loops_sectionsOf`).
-/

namespace Interview

open Interview.Graph

namespace Graph

/-! ## Consistency -/

/-- A look-up leads from a key to the number of the part that has it, and from nothing else to a
number. -/
def Finds {α : Type} (lookUp : String → Option Nat) (key : α → String) (parts : List α) : Prop :=
  ∀ k i, lookUp k = some i ↔ ∃ x, parts[i]? = some x ∧ key x = k

/-- Numbers of some of the parts, in the order of the parts. -/
def Numbers {α : Type} (ids : List Nat) (parts : List α) : Prop :=
  ids.Pairwise (· < ·) ∧ ∀ i ∈ ids, i < parts.length

/-- Each part is listed by one node, which is the one that it belongs to. -/
def ListsOwn {α β : Type} (nodes : List β) (listed : β → List Nat) (parts : List α)
    (belongs : α → β → Prop) : Prop :=
  ∀ (i : Nat) (x : α), parts[i]? = some x → ∃ j node, nodes[j]? = some node ∧ belongs x node ∧
    ∀ (k : Nat) (other : β), nodes[k]? = some other → (i ∈ listed other ↔ k = j)

/-- A section is a topic or loop that is there. -/
def HasSection (G : Graph) : Graph.Section → Prop
  | .topic id => id < G.topics.length
  | .loop id => id < G.loops.length

/-- The tables and lists of a graph agree. -/
structure IsConsistent (G : Graph) : Prop where
  screenIds : Finds G.screenId? Screen.fullRoute G.screens
  subcategoryIds : Finds G.subcategoryId? (·.route) G.subcategories
  topicIds : Finds G.topicId? (·.fullRoute) G.topics
  loopIds : Finds G.loopId? (·.name) G.loops
  ofCategory : ∀ c ∈ G.categories, Numbers c.subcategories G.subcategories
  ofSubcategory : ∀ c ∈ G.subcategories, Numbers c.screens G.screens ∧
    Numbers c.topics G.topics ∧ Numbers c.loops G.loops ∧ ∀ x ∈ c.sections, G.HasSection x
  ofTopic : ∀ t ∈ G.topics, Numbers t.screens G.screens
  ofLoop : ∀ l ∈ G.loops, Numbers l.screens G.screens ∧ Numbers l.topics G.topics
  /-- Each screen is listed by one subcategory, the one whose route it carries. -/
  screenOwner : ListsOwn G.subcategories (·.screens) G.screens fun s c =>
    c.route = s.subcategoryRoute
  /-- Each subcategory is listed by one category, the one whose route it carries. -/
  subcategoryOwner : ListsOwn G.categories (·.subcategories) G.subcategories fun s c =>
    c.route = s.categoryRoute
  /-- A loop lists the screens that name it. -/
  loopMember : ∀ l ∈ G.loops, ∀ (i : Nat) (s : Screen), G.screens[i]? = some s →
    (i ∈ l.screens ↔ s.loopName = some l.name)
  /-- A screen that names a loop knows how the filer is led through it. -/
  loopMembership : ∀ l ∈ G.loops, ∀ s ∈ G.screens, s.loopName = some l.name →
    s.membership = some ⟨l.name, l.autoIterates, l.isInner⟩
  /-- A loop has screens, which stand next to each other in the subcategory of the loop and are
  shown for its collection. -/
  loopBlock : ∀ l ∈ G.loops, ∃ start n, 0 < n ∧ l.screens = List.range' start n ∧
    ∀ i ∈ l.screens, ∃ s, G.screens[i]? = some s ∧
      s.subcategoryRoute = l.subcategoryRoute ∧ s.collection = some l.collection
  /-- The subcategory of a loop lists it and its screens, and has it once among its sections. -/
  loopOwner : ∀ (j : Nat) (l : LoopNode), G.loops[j]? = some l → ∃ c ∈ G.subcategories,
    c.route = l.subcategoryRoute ∧ l.screens ⊆ c.screens ∧ j ∈ c.loops ∧
      c.sections.count (.loop j) = 1

/-! ## Positions -/

section

variable {α β : Type} {p : α → Bool} {xs : List α} {x : α} {i : Nat}

/-- Where keys are distinct, the table of positions finds the nodes made of the elements. -/
theorem finds_indexOn {key : α → String} {nodeKey : β → String} (hdistinct : (xs.map key).Nodup)
    (node : α → β) (hkey : ∀ x, nodeKey (node x) = key x) :
    Finds (indexOn key xs).get? nodeKey (xs.map node) := by
  intro k i
  rw [get?_indexOn hdistinct, List.getElem?_map]
  simp [hkey]

theorem numbers_findIdxs (p : α → Bool) (xs : List α) : Numbers (xs.findIdxs p) xs :=
  ⟨List.pairwise_findIdxs, fun i hi => List.lt_add_of_mem_findIdxs i hi⟩

/-- Only the number of parts matters. -/
theorem Numbers.map {ids : List Nat} (h : Numbers ids xs) (node : α → β) :
    Numbers ids (xs.map node) := by
  refine ⟨h.1, fun i hi => ?_⟩
  rw [List.length_map]
  exact h.2 i hi

theorem mem_findIdxs (hi : xs[i]? = some x) : i ∈ xs.findIdxs p ↔ p x = true := by
  obtain ⟨hlt, rfl⟩ := List.getElem?_eq_some_iff.mp hi
  exact List.mem_findIdxs_iff_pos_getElem hlt

theorem exists_of_mem_findIdxs (hi : i ∈ xs.findIdxs p) : ∃ x, xs[i]? = some x ∧ p x = true := by
  obtain ⟨hlt, hp⟩ := List.mem_findIdxs_iff_exists_getElem_pos.mp hi
  exact ⟨xs[i], List.getElem?_eq_getElem hlt, hp⟩

theorem findIdxs_of_all (hall : ∀ x ∈ xs, p x = true) (start : Nat) :
    xs.findIdxs p start = List.range' start xs.length := by
  induction xs generalizing start with
  | nil => rfl
  | cons x xs ih =>
    rw [List.findIdxs_cons, if_pos (hall x List.mem_cons_self),
      ih (fun y hy => hall y (List.mem_cons_of_mem x hy)), List.length_cons, List.range'_succ]

/-- The positions of a stretch follow each other. -/
theorem findIdxs_of_isStretch (h : IsStretch p xs) :
    ∃ start n, xs.findIdxs p = List.range' start n := by
  obtain ⟨before, inside, past, rfl, hbefore, hinside, hpast⟩ := h
  refine ⟨before.length, inside.length, ?_⟩
  rw [List.findIdxs_append, List.findIdxs_append, List.findIdxs_eq_nil_iff.mpr hbefore,
    List.findIdxs_eq_nil_iff.mpr hpast, List.nil_append, List.append_nil, Nat.zero_add]
  exact findIdxs_of_all hinside before.length

/-- Nodes that list what refers to their keys list their own, if keys are distinct and nothing
refers to a key that is not there. -/
theorem listsOwn_of_key {γ κ : Type} [DecidableEq κ] {owners : List β} (key : β → κ) {ref : α → κ}
    (hdistinct : (owners.map key).Nodup) (href : ∀ x ∈ xs, ∃ y ∈ owners, key y = ref x)
    {node : β → γ} {listed : γ → List Nat} {nodeKey : γ → κ}
    (hlisted : ∀ y, listed (node y) = xs.findIdxs fun x => ref x = key y)
    (hkey : ∀ y, nodeKey (node y) = key y) :
    ListsOwn (owners.map node) listed xs fun x c => nodeKey c = ref x := by
  intro i x hi
  obtain ⟨y, hy, hyx⟩ := href x (List.mem_of_getElem? hi)
  obtain ⟨j, hj⟩ := List.mem_iff_getElem?.mp hy
  have hnode : (owners.map node)[j]? = some (node y) := by
    rw [List.getElem?_map, hj, Option.map_some]
  have hbelongs : nodeKey (node y) = ref x := (hkey y).trans hyx
  refine ⟨j, node y, hnode, hbelongs, ?_⟩
  intro k other hk
  rw [List.getElem?_map, Option.map_eq_some_iff] at hk
  obtain ⟨z, hz, rfl⟩ := hk
  rw [hlisted, mem_findIdxs hi, decide_eq_true_iff]
  constructor
  · intro hzx
    exact position_eq hdistinct hz hj (hzx.symm.trans hyx.symm)
  · rintro rfl
    obtain rfl := Option.some.inj (hz.symm.trans hj)
    exact hyx.symm

end

/-! ## Sections -/

/-- The number of the topic, if it is one. -/
def Section.topicId? : Graph.Section → Option Nat
  | .topic id => some id
  | .loop _ => none

/-- The number of the loop, if it is one. -/
def Section.loopId? : Graph.Section → Option Nat
  | .topic _ => none
  | .loop id => some id

end Graph

namespace Flow

variable {f g : Flow}

/-- The topics among the sections, counted from a number. -/
theorem topics_numbered (s : Subcategory) (m n : Nat) (ds : List Division) :
    (((numbered m n ds).filter fun e => isSectionOf s e.1).map (·.2)).filterMap Section.topicId? =
      (ds.filterMap Division.topic?).findIdxs (fun t => isSectionOf s (.topic t)) m := by
  induction ds generalizing m n with
  | nil => rfl
  | cons d ds ih =>
    cases d with
    | topic t =>
      cases ht : isSectionOf s (.topic t) <;>
        simp [numbered, Division.topic?, Section.topicId?, ht, ← ih (m + 1) n]
    | loop l =>
      cases hl : isSectionOf s (.loop l) <;>
        simp [numbered, List.filterMap_cons, Division.topic?, Section.topicId?, hl, ← ih m (n + 1)]

/-- The loops among the sections, counted from a number. -/
theorem loops_numbered (s : Subcategory) (m n : Nat) (ds : List Division) :
    (((numbered m n ds).filter fun e => isSectionOf s e.1).map (·.2)).filterMap Section.loopId? =
      (ds.filterMap Division.loop?).findIdxs (fun l => isSectionOf s (.loop l)) n := by
  induction ds generalizing m n with
  | nil => rfl
  | cons d ds ih =>
    cases d with
    | topic t =>
      cases ht : isSectionOf s (.topic t) <;>
        simp [numbered, List.filterMap_cons, Division.loop?, Section.loopId?, ht, ← ih (m + 1) n]
    | loop l =>
      cases hl : isSectionOf s (.loop l) <;>
        simp [numbered, Division.loop?, Section.loopId?, hl, ← ih m (n + 1)]

/-- The loops among the sections of a subcategory are its loops. -/
theorem loops_sectionsOf (f : Flow) (s : Subcategory) :
    (f.sectionsOf s).filterMap Section.loopId? = (f.subcategoryNode s).loops := by
  rw [sectionsOf, loops_numbered, subcategoryNode]
  simp only [isSectionOf_loop]
  rfl

/-- Sections are topics and loops that are there. -/
theorem hasSection_of_mem {s : Subcategory} {x : Graph.Section} (hx : x ∈ f.sectionsOf s) :
    f.graph.HasSection x := by
  cases x with
  | topic i =>
    have hi : i ∈ (f.sectionsOf s).filterMap Section.topicId? := List.mem_filterMap.mpr ⟨_, hx, rfl⟩
    rw [sectionsOf, topics_numbered] at hi
    exact ((numbers_findIdxs _ f.topics).map f.topicNode).2 i hi
  | loop j =>
    have hj : j ∈ (f.sectionsOf s).filterMap Section.loopId? := List.mem_filterMap.mpr ⟨_, hx, rfl⟩
    rw [loops_sectionsOf] at hj
    exact ((numbers_findIdxs _ f.loops).map f.loopNode).2 j hj

/-- A loop of a subcategory is one of its sections, once. -/
theorem count_sectionsOf {s : Subcategory} {j : Nat} (hj : j ∈ (f.subcategoryNode s).loops) :
    (f.sectionsOf s).count (.loop j) = 1 := by
  have hcount : (f.sectionsOf s).count (.loop j) =
      ((f.sectionsOf s).filterMap Section.loopId?).count j := by
    rw [List.count_filterMap, List.count]
    congr 1
    funext x
    cases x with
    | topic i => rfl
    | loop i => simp [Section.loopId?]
  rw [hcount, loops_sectionsOf]
  exact List.count_eq_one_of_mem List.nodup_findIdxs hj

/-! ## Loops with screens -/

/-- Every loop has a screen, unless it is still open. -/
def Inhabited (sc : Scope) (f : Flow) : Prop :=
  ∀ l ∈ f.loops, (∃ s ∈ f.screens, s.loopName = some l.name) ∨ sc.loop.map (·.name) = some l.name

/-- A loop that has been left has a screen. -/
theorem kept_inhabited : Kept Inhabited where
  category hf hadd := by
    obtain ⟨-, rfl⟩ := addCategory_eq_ok.mp hadd
    exact hf
  subcategory hf hadd := by
    obtain ⟨c, -, -, -, rfl⟩ := addSubcategory_eq_ok.mp hadd
    exact hf
  topic hf hadd := by
    obtain ⟨r, -, rfl⟩ := addTopic_eq_ok.mp hadd
    split
    · exact hf
    · intro l hl
      rw [loops_concat_topic] at hl
      exact hf l hl
  loop hf hadd := by
    obtain ⟨r, c, fullRoute, -, hnone, -, -, -, rfl⟩ := addLoop_eq_ok.mp hadd
    intro l hl
    rw [loops_concat_loop, List.mem_append, List.mem_singleton] at hl
    rcases hl with hl | rfl
    · -- no loop was open before
      rcases hf l hl with hscreen | hopen
      · exact .inl hscreen
      · rw [hnone] at hopen
        cases hopen
    · exact .inr rfl
  gate hf := hf
  screen hf hadd := by
    obtain ⟨r, -, -, -, -, rfl⟩ := addScreen_eq_ok.mp hadd
    intro l hl
    rcases hf l hl with ⟨s, hs, hname⟩ | hopen
    · exact .inl ⟨s, List.mem_append_left _ hs, hname⟩
    · exact .inr hopen
  assertion hf hadd := by
    obtain ⟨r, -, rfl⟩ := addAssertion_eq_ok.mp hadd
    exact hf
  leaveCategory _ _ _ hg := hg
  leaveSubcategory _ _ _ hg := hg
  leaveTopic _ _ hg := hg
  leaveLoop _ _ _ hg hscreen := by
    intro l hl
    rcases hg l hl with hinside | hopen
    · exact .inl hinside
    · -- the loop that was open is the one that is left
      exact .inl (Option.some.inj hopen ▸ hscreen)
  leaveGate _ _ hg := hg

/-- Every loop of a flow that is built has a screen. -/
theorem exists_screen_of_build {o : Outline} (hbuild : build o = .ok f) {l : Loop}
    (hl : l ∈ f.loops) : ∃ s ∈ f.screens, s.loopName = some l.name := by
  have hempty : Inhabited .outermost (empty o.batches) := fun l hl => nomatch hl
  rcases kept_inhabited.of_build hempty hbuild l hl with hscreen | hopen
  · exact hscreen
  · cases hopen

/-! ## The graph of a flow -/

/-- Each category lists the subcategories at its position. -/
theorem subcategoryOwner_graph (hf : f.Arranged) : ListsOwn f.graph.categories (·.subcategories)
    f.graph.subcategories fun s c => c.route = s.categoryRoute := by
  intro i node hi
  rw [graph, List.getElem?_map, Option.map_eq_some_iff] at hi
  obtain ⟨s, hs, rfl⟩ := hi
  have hcategory : f.categories[s.category]? = some ⟨s.categoryRoute⟩ :=
    hf.categorized s (List.mem_of_getElem? hs)
  have hnode : f.graph.categories[s.category]? =
      some (f.categoryNode s.category ⟨s.categoryRoute⟩) := by
    rw [graph, List.getElem?_mapIdx, hcategory, Option.map_some]
  refine ⟨s.category, _, hnode, rfl, ?_⟩
  intro k other hk
  rw [graph, List.getElem?_mapIdx, Option.map_eq_some_iff] at hk
  obtain ⟨c, -, rfl⟩ := hk
  show i ∈ f.subcategories.findIdxs (·.category = k) ↔ k = s.category
  rw [mem_findIdxs hs, decide_eq_true_iff, eq_comm]

/-- The numbers that a loop lists are those of its screens. -/
theorem exists_of_mem_loopNode {l : Loop} {i : Nat} (hi : i ∈ (f.loopNode l).screens) :
    ∃ s, f.screens[i]? = some s ∧ s ∈ f.screensOfLoop l := by
  obtain ⟨s, hs, hname⟩ := exists_of_mem_findIdxs hi
  exact ⟨s, hs, mem_screensOfLoop.mpr ⟨List.mem_of_getElem? hs, of_decide_eq_true hname⟩⟩

/-- The screens of a loop stand next to each other, in its subcategory. -/
theorem loopBlock_graph (hf : f.Arranged) {l : Loop} (hl : l ∈ f.loops)
    (hscreen : ∃ s ∈ f.screens, s.loopName = some l.name) :
    ∃ start n, 0 < n ∧ (f.loopNode l).screens = List.range' start n ∧
      ∀ i ∈ (f.loopNode l).screens, ∃ s, f.screens[i]? = some s ∧
        s.subcategoryRoute = l.subcategoryRoute ∧ s.collection = some l.collection := by
  obtain ⟨start, n, hrange⟩ := findIdxs_of_isStretch (hf.loopStretch l.name)
  have hlength : n = f.screens.countP (·.loopName = some l.name) := by
    rw [← List.length_findIdxs, hrange, List.length_range']
  have hpos : 0 < n := by
    obtain ⟨s, hs, hname⟩ := hscreen
    rw [hlength, List.countP_pos_iff]
    exact ⟨s, hs, decide_eq_true hname⟩
  refine ⟨start, n, hpos, hrange, ?_⟩
  intro i hi
  obtain ⟨s, hs, hmem⟩ := exists_of_mem_loopNode hi
  obtain ⟨-, hcollection, hroute⟩ := hf.of_mem_screensOfLoop hl hmem
  exact ⟨s, hs, hroute, hcollection⟩

/-- The subcategory of a loop lists it and what it lists. -/
theorem loopOwner_graph (hf : f.Arranged) (hf' : f.Attached) {j : Nat} {l : Loop}
    (hj : f.loops[j]? = some l) : ∃ c ∈ f.graph.subcategories, c.route = l.subcategoryRoute ∧
      (f.loopNode l).screens ⊆ c.screens ∧ j ∈ c.loops ∧ c.sections.count (.loop j) = 1 := by
  have hl := List.mem_of_getElem? hj
  obtain ⟨c, hc, hroute⟩ := hf'.loop hl
  have hlisted : j ∈ (f.subcategoryNode c).loops := by
    show j ∈ f.loops.findIdxs (·.subcategoryRoute = c.route)
    rw [mem_findIdxs hj]
    exact decide_eq_true hroute.symm
  have hscreens : (f.loopNode l).screens ⊆ (f.subcategoryNode c).screens := by
    intro i hi
    obtain ⟨s, hs, hmem⟩ := exists_of_mem_loopNode hi
    obtain ⟨-, -, hsl⟩ := hf.of_mem_screensOfLoop hl hmem
    show i ∈ f.screens.findIdxs (·.subcategoryRoute = c.route)
    rw [mem_findIdxs hs]
    exact decide_eq_true (hsl.trans hroute.symm)
  exact ⟨f.subcategoryNode c, List.mem_map_of_mem hc, hroute, hscreens, hlisted,
    count_sectionsOf hlisted⟩

/-- The graph of a flow is consistent if the flow is arranged, what names parts names those that are
there, and loops have screens. -/
theorem isConsistent_graph (hf : f.Arranged) (hf' : f.Attached)
    (hscreen : ∀ l ∈ f.loops, ∃ s ∈ f.screens, s.loopName = some l.name) :
    f.graph.IsConsistent where
  screenIds _ _ := get?_indexOn hf.screenRoutes
  subcategoryIds := finds_indexOn hf.subcategoryRoutes f.subcategoryNode fun _ => rfl
  topicIds := finds_indexOn hf.topicRoutes f.topicNode fun _ => rfl
  loopIds := finds_indexOn hf.loopNames f.loopNode fun _ => rfl
  ofCategory := by
    intro node hnode
    obtain ⟨i, hlt, rfl⟩ := List.mem_mapIdx.mp hnode
    exact (numbers_findIdxs _ f.subcategories).map f.subcategoryNode
  ofSubcategory := by
    refine List.forall_mem_map.mpr fun s _ => ?_
    have hscreens : Numbers (f.subcategoryNode s).screens f.graph.screens :=
      numbers_findIdxs _ f.screens
    have htopics : Numbers (f.subcategoryNode s).topics f.graph.topics :=
      (numbers_findIdxs _ f.topics).map f.topicNode
    have hloops : Numbers (f.subcategoryNode s).loops f.graph.loops :=
      (numbers_findIdxs _ f.loops).map f.loopNode
    exact ⟨hscreens, htopics, hloops, fun x hx => hasSection_of_mem hx⟩
  ofTopic := List.forall_mem_map.mpr fun t _ => numbers_findIdxs _ f.screens
  ofLoop := by
    refine List.forall_mem_map.mpr fun l _ => ?_
    have hscreens : Numbers (f.loopNode l).screens f.graph.screens := numbers_findIdxs _ f.screens
    have htopics : Numbers (f.loopNode l).topics f.graph.topics :=
      (numbers_findIdxs _ f.topics).map f.topicNode
    exact ⟨hscreens, htopics⟩
  screenOwner := by
    refine listsOwn_of_key Subcategory.route hf.subcategoryRoutes (fun s hs => ?_)
      (fun _ => rfl) fun _ => rfl
    obtain ⟨c, hc, hroute, -⟩ := hf.placed s hs
    exact ⟨c, hc, hroute⟩
  subcategoryOwner := subcategoryOwner_graph hf
  loopMember := List.forall_mem_map.mpr fun l _ i s hs =>
    (mem_findIdxs hs).trans decide_eq_true_iff
  loopMembership := List.forall_mem_map.mpr fun l hl s hs hname =>
    (hf.of_mem_screensOfLoop hl (mem_screensOfLoop.mpr ⟨hs, hname⟩)).1
  loopBlock := List.forall_mem_map.mpr fun l hl => loopBlock_graph hf hl (hscreen l hl)
  loopOwner := by
    intro j node hnode
    rw [graph, List.getElem?_map, Option.map_eq_some_iff] at hnode
    obtain ⟨l, hj, rfl⟩ := hnode
    exact loopOwner_graph hf hf' hj

end Flow

/-- **The tables and lists of every graph that is built agree.** -/
theorem Graph.isConsistent_of_build {o : Outline} {G : Graph} (hbuild : Graph.build o = .ok G) :
    G.IsConsistent := by
  obtain ⟨f, hflow, rfl⟩ := Graph.build_eq_ok.mp hbuild
  have hscreen : ∀ l ∈ f.loops, ∃ s ∈ f.screens, s.loopName = some l.name :=
    fun l hl => Flow.exists_screen_of_build hflow hl
  exact Flow.isConsistent_graph (Flow.arranged_of_build hflow) (Flow.attached_of_build hflow)
    hscreen

/-- The graph of the household, in which the loops stand between single screens, is consistent. -/
theorem Graph.isConsistent_household : Graph.build Household.outline = .ok Household.flow.graph ∧
    Household.flow.graph.loops.map (·.screens) = [[1, 2], [4, 5], [6, 7]] ∧
    Household.flow.graph.IsConsistent := by
  have hbuild : Graph.build Household.outline = .ok Household.flow.graph :=
    Graph.build_eq_ok.mpr ⟨_, Household.build_outline, rfl⟩
  exact ⟨hbuild, rfl, Graph.isConsistent_of_build hbuild⟩

end Interview

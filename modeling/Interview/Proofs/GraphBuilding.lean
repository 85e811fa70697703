import Interview.Proofs.Numbering
import Interview.Proofs.Sites

/-!
# Building graphs and building flows

The graph builder walks through the tree and carries numbers along, the flow builder takes entries
with the names of what is around them. Step by step they do the same: from the graph of a flow, and
a place that matches a scope (`Graph.Place.Matches`), the one gets to the graph of the flow that the
other gets to, or both come upon the same defect (`Flow.Agree`). So the graph of an outline is the
graph of its flow (`Graph.build_eq`).
-/

namespace Interview

open Interview.Graph

/-- A place stands for a scope: its numbers refer to the parts that the scope names, and the
category is the last one. -/
structure Graph.Place.Matches (p : Place) (sc : Scope) (f : Flow) : Prop where
  category : Refers (·.route) f.categories p.category sc.category
  subcategory : Refers (·.route) f.subcategories p.subcategory sc.subcategory
  topic : Refers (·.fullRoute) f.topics p.topic sc.topic
  loop : Refers Loop.membership f.loops p.loop sc.loop
  collection : p.collection = sc.collection
  conditions : p.conditions = sc.conditions
  last : ∀ i, p.category = some i → i = f.categories.length - 1

namespace Flow

variable {f g : Flow} {sc sc' : Scope} {p : Place}

theorem matches_outermost (f : Flow) : Place.outermost.Matches .outermost f :=
  ⟨.none, .none, .none, .none, rfl, rfl, nofun⟩

/-- A place in the graph of a flow stands for the scope that it matches. -/
theorem scope_graph (hp : p.Matches sc f) : f.graph.scope p = sc := by
  have hcategory : (p.category.bind (f.graph.categories[·]?)).map (·.route) = sc.category :=
    hp.category.map_bind fun i c hi => by simp [graph, categoryNode, hi]
  have hsubcategory : (p.subcategory.bind (f.graph.subcategories[·]?)).map (·.route) =
      sc.subcategory :=
    hp.subcategory.map_bind fun i c hi => by simp [graph, subcategoryNode, hi]
  have htopic : (p.topic.bind (f.graph.topics[·]?)).map (·.fullRoute) = sc.topic :=
    hp.topic.map_bind fun i t hi => by simp [graph, topicNode, hi]
  have hloop : (p.loop.bind (f.graph.loops[·]?)).map
      (fun l => ⟨l.name, l.autoIterates, l.isInner⟩) = sc.loop :=
    hp.loop.map_bind fun i l hi => by simp [graph, loopNode, Loop.membership, hi]
  unfold Graph.scope
  rw [hcategory, hsubcategory, htopic, hloop, hp.collection, hp.conditions]

/-- A place goes on to match a scope while the flow grows within the category. -/
theorem matches_of_growsTo (hp : p.Matches sc f) (hgrow : f.GrowsTo g)
    (hcategories : sc.category.isSome = true → g.categories = f.categories) : p.Matches sc g where
  category := hp.category.of_isPrefix hgrow.categories
  subcategory := hp.subcategory.of_isPrefix hgrow.subcategories
  topic := hp.topic.of_isPrefix (hgrow.divisions.filterMap Division.topic?)
  loop := hp.loop.of_isPrefix (hgrow.divisions.filterMap Division.loop?)
  collection := hp.collection
  conditions := hp.conditions
  last i hi := by
    have hsome : sc.category.isSome = true := by
      have hnone := hp.category.isNone_eq
      simpa [hi] using hnone
    rw [hcategories hsome]
    exact hp.last i hi

theorem length_categories (f : Flow) : f.graph.categories.length = f.categories.length :=
  List.length_mapIdx

theorem length_subcategories (f : Flow) :
    f.graph.subcategories.length = f.subcategories.length :=
  List.length_map _

theorem length_topics (f : Flow) : f.graph.topics.length = f.topics.length :=
  List.length_map _

theorem length_loops (f : Flow) : f.graph.loops.length = f.loops.length :=
  List.length_map _

/-! ## Nodes -/

/-- The builders agree: they come upon the same defect, or to a flow and its graph, with a place
that matches the scope. -/
inductive Agree (sc : Scope) :
    Except DefinitionError (Graph × Place) → Except DefinitionError Flow → Prop where
  | error (e : DefinitionError) : Agree sc (throw e) (throw e)
  | ok {g : Flow} {p : Place} (h : p.Matches sc g) : Agree sc (pure (g.graph, p)) (pure g)

theorem agree_category (hf : f.Arranged) (hp : p.Matches sc f) (route : String) :
    Agree (sc.enterCategory route) (f.graph.enterCategory p route) (f.addCategory sc route) := by
  unfold Graph.enterCategory addCategory
  obtain ⟨hcategory, hsubcategory, htopic, hloop, hcollection, hconditions, -⟩ := hp
  generalize p.category = id, sc.category = name at hcategory
  cases hcategory with
  | some hi => exact .error _
  | none =>
    rw [← graph_concat_category hf]
    refine .ok ⟨?_, hsubcategory, htopic, hloop, hcollection, hconditions, fun i hi => ?_⟩
    · rw [length_categories]
      exact .concat (·.route) f.categories (⟨Scope.categoryRoute route⟩ : Category)
    · obtain rfl := Option.some.inj hi
      simp [length_categories]

theorem agree_subcategory (hf : f.Arranged) (hf' : f.Attached) (hp : p.Matches sc f)
    (head : SubcategoryHead) : Agree (sc.enterSubcategory head) (f.graph.enterSubcategory p head)
      (f.addSubcategory sc head) := by
  unfold Graph.enterSubcategory addSubcategory
  rw [scope_graph hp]
  obtain ⟨category, subcategory, topic, loop, collection, conditions⟩ := p
  obtain ⟨categoryRoute, subcategoryRoute, topicRoute, membership, _, _⟩ := sc
  obtain ⟨hcategory, hsubcategory, htopic, hloop, rfl, rfl, hlast⟩ := hp
  cases hcategory with
  | none => exact .error _
  | @some i c hi =>
    cases hsubcategory with
    | some hj => exact .error _
    | none =>
      obtain rfl := hlast i rfl
      generalize hs : Subcategory.place (f.categories.length - 1) c.route head = s
      have hknown : (f.graph.subcategoryIndex.get? s.route).isSome =
          (f.subcategory? s.route).isSome := isSome_get?_indexOn _ _ _
      simp only [Option.getD_some, hs, hknown]
      split
      · exact .error _
      · next hfresh =>
        have hroutes : ∀ c ∈ f.subcategories, c.route ≠ s.route := by
          simpa [subcategory?] using hfresh
        have hcategory : s.category = f.categories.length - 1 := by rw [← hs]; rfl
        have hroute : Scope.below (some c.route) head.route = s.route := by rw [← hs]; rfl
        rw [← graph_concat_subcategory hf hf' hcategory hroutes, length_subcategories]
        refine .ok ⟨.some hi, ?_, htopic, hloop, rfl, rfl, hlast⟩
        show Refers (·.route) (f.subcategories ++ [s]) _ (some (Scope.below _ _))
        rw [hroute]
        exact .concat (·.route) f.subcategories s

theorem agree_topic (hf : f.Arranged) (hp : p.Matches sc f) (route : String) :
    Agree (sc.enterTopic route) (f.graph.enterTopic p route) (f.addTopic sc route) := by
  unfold Graph.enterTopic addTopic
  rw [scope_graph hp]
  rcases hp.subcategory.eq_none_or_exists with ⟨hid, hname⟩ | ⟨i, c, hid, hname, hi⟩
  · rw [hid, hname]
    exact .error _
  · have hsubcategory := hp.subcategory
    rw [hid] at hsubcategory
    simp only [hid, hname, Option.getD_some]
    generalize ht : Topic.place sc c.route route = t
    have hroute : (sc.enterTopic route).topic = some t.fullRoute := by
      rw [← ht, Scope.enterTopic, hname]
      rfl
    have hknown : (f.graph.topicIndex.get? t.fullRoute).isSome = (f.topic? t.fullRoute).isSome :=
      isSome_get?_indexOn _ _ _
    rw [← hknown]
    cases hget : f.graph.topicIndex.get? t.fullRoute with
    | some id =>
      -- the topic is gone on with
      obtain ⟨x, hx, hxroute⟩ := exists_of_get?_indexOn hget
      refine .ok { hp with subcategory := hsubcategory, topic := ?_ }
      rw [hroute, ← hxroute]
      exact .some hx
    | none =>
      have hfresh : ∀ x ∈ f.topics, x.fullRoute ≠ t.fullRoute := by
        simpa [hget, topic?] using hknown
      have hsub : t.subcategoryRoute = c.route := by rw [← ht]; rfl
      have hloop : Refers (·.name) f.loops p.loop t.loop := by
        rw [← ht]
        exact hp.loop.map (·.name)
      rw [← graph_concat_topic hf hi hsub hloop hfresh, length_topics]
      refine .ok { hp with subcategory := hsubcategory, topic := ?_, loop := ?_ }
      · rw [hroute, topics_concat_topic]
        exact .concat (·.fullRoute) f.topics t
      · rw [loops_concat_topic]
        exact hp.loop

theorem agree_loop (hf : f.Arranged) (hf' : f.Attached) (hp : p.Matches sc f) (head : LoopHead) :
    Agree (sc.enterLoop head) (f.graph.enterLoop p head) (f.addLoop sc head) := by
  unfold Graph.enterLoop addLoop
  rw [scope_graph hp]
  rcases hp.subcategory.eq_none_or_exists with ⟨hid, hname⟩ | ⟨i, c, hid, hname, hi⟩
  · rw [hid, hname]
    exact .error _
  · have hsubcategory := hp.subcategory
    have hknown : (f.graph.loopIndex.get? head.name).isSome = (f.loop? head.name).isSome :=
      isSome_get?_indexOn _ _ _
    rw [hid] at hsubcategory
    simp only [hid, hname, Option.getD_some, hknown]
    cases hloop : sc.loop with
    | some parent => exact .error _
    | none =>
      by_cases hfresh : (f.loop? head.name).isSome = true
      · simp only [hfresh, if_true]
        exact .error _
      · have hnames : ∀ x ∈ f.loops, x.name ≠ head.name := by
          simpa [loop?] using hfresh
        simp only [hfresh]
        cases hcollection : sc.loopCollection head with
        | none => exact .error _
        | some collection =>
          cases hback : loopRoute sc c.route head with
          | error e => exact .error e
          | ok fullRoute =>
            show Agree _ (pure (f.graph.pushLoop i (.place c.route fullRoute collection head), _))
              (pure _)
            rw [← graph_concat_loop hf hf' hi rfl hnames, length_loops]
            refine .ok { hp with
              subcategory := hsubcategory
              topic := ?_
              loop := ?_
              collection := hcollection.symm }
            · rw [topics_concat_loop]
              exact hp.topic
            · rw [loops_concat_loop]
              exact .concat Loop.membership f.loops (.place c.route fullRoute collection head)

/-! ## Leaves -/

/-- A loop is left if it has got screens. -/
theorem graph_endLoop (hp : p.Matches sc f) {m : LoopMembership} (hloop : sc.loop = some m) :
    f.graph.leaveLoop p m.name = graph <$> f.endLoop m.name := by
  obtain ⟨hid, hname⟩ | ⟨i, l, hid, hname, hi⟩ := hp.loop.eq_none_or_exists
  · rw [hname] at hloop
    cases hloop
  · obtain rfl := Option.some.inj (hname.symm.trans hloop)
    have hscreens : ((p.loop.bind (f.graph.loops[·]?)).map (·.screens)).getD [] =
        f.screens.findIdxs (·.loopName = some l.name) := by
      simp [hid, graph, loopNode, hi]
    have hnone : f.screens.findIdxs (·.loopName = some l.name) = [] ↔
        ¬ f.screens.any (·.loopName = some l.name) = true := by
      rw [List.findIdxs_eq_nil_iff, List.any_eq_true]
      simp
    unfold Graph.leaveLoop endLoop
    rw [hscreens]
    by_cases hany : f.screens.any (·.loopName = some l.name) = true
    · rw [if_neg fun hnil => hnone.mp hnil hany, Loop.membership, if_pos hany]
      rfl
    · rw [if_pos (hnone.mpr hany), Loop.membership, if_neg hany]
      rfl

theorem graph_addScreen (hf : f.Arranged) (hp : p.Matches sc f) (hsc : sc.IsOpen f)
    (head : ScreenHead) : f.graph.addScreen p head = graph <$> f.addScreen sc head := by
  unfold Graph.addScreen addScreen
  rw [scope_graph hp]
  rcases hp.subcategory.eq_none_or_exists with ⟨hid, hname⟩ | ⟨i, c, hid, hname, hi⟩
  · rw [hid, hname]
    cases p.category <;> rfl
  · -- an open subcategory lies in an open category
    obtain ⟨x, -, -, hcategory⟩ := hsc.subcategory _ hname
    obtain ⟨k, hk⟩ : ∃ k, p.category = some k := by
      have hnone := hp.category.isNone_eq
      rw [hcategory] at hnone
      exact Option.isSome_iff_exists.mp (by simpa using hnone.symm)
    simp only [hid, hname, hk, Option.getD_some]
    generalize hs : Screen.place sc c.route head = s
    have hknown : (f.graph.screenIndex.get? s.fullRoute).isSome = (f.screen? s.fullRoute).isSome :=
      isSome_get?_indexOn _ _ _
    have hpush : graph { f with screens := f.screens ++ [s] } =
        f.graph.pushScreen i p.topic p.loop s := by
      subst hs
      exact graph_concat_screen hf hi rfl hp.topic hp.loop
    rw [← hpush, hknown]
    cases (f.screen? s.fullRoute).isSome with
    | true => rfl
    | false =>
      show (s.checkBatches f.batches >>= _) = graph <$> (s.checkBatches f.batches >>= _)
      cases s.checkBatches f.batches with
      | error e => rfl
      | ok _ =>
        show (s.check >>= _) = graph <$> (s.check >>= _)
        cases s.check <;> rfl

theorem graph_addAssertion (hf : f.Arranged) (hp : p.Matches sc f) (head : AssertionHead) :
    f.graph.addAssertion p head = graph <$> f.addAssertion sc head := by
  unfold Graph.addAssertion addAssertion
  rw [scope_graph hp]
  rcases hp.subcategory.eq_none_or_exists with ⟨hid, hname⟩ | ⟨i, c, hid, hname, hi⟩
  · rw [hid, hname]
    rfl
  · rw [hid, hname]
    exact congrArg Except.ok (graph_concat_assertion hf hi rfl).symm

/-! ## What is kept -/

theorem attached_empty (batches : Batch.Registry) : (empty batches).Attached where
  division _ h := nomatch h
  assertion _ h := nomatch h
  topicLoop _ h := nomatch h

/-- While a flow is built, what names a part names one that is there. -/
theorem kept_attached : Kept fun sc f => (f.Arranged ∧ sc.IsOpen f) ∧ f.Attached where
  category hf hadd := by
    refine ⟨kept_arranged.category hf.1 hadd, ?_⟩
    obtain ⟨-, rfl⟩ := addCategory_eq_ok.mp hadd
    exact { hf.2 with }
  subcategory hf hadd := by
    refine ⟨kept_arranged.subcategory hf.1 hadd, ?_⟩
    obtain ⟨c, -, -, -, rfl⟩ := addSubcategory_eq_ok.mp hadd
    refine { hf.2 with division := fun d hd => ?_, assertion := fun a ha => ?_ }
    · obtain ⟨x, hx, hroute⟩ := hf.2.division d hd
      exact ⟨x, List.mem_append_left _ hx, hroute⟩
    · obtain ⟨x, hx, hroute⟩ := hf.2.assertion a ha
      exact ⟨x, List.mem_append_left _ hx, hroute⟩
  topic hf hadd := by
    refine ⟨kept_arranged.topic hf.1 hadd, ?_⟩
    obtain ⟨r, hsub, rfl⟩ := addTopic_eq_ok.mp hadd
    split
    · exact hf.2
    · obtain ⟨x, hx, hroute, -⟩ := hf.1.2.subcategory r hsub
      refine { hf.2 with
        division := forall_mem_concat hf.2.division ⟨x, hx, hroute⟩
        topicLoop := ?_ }
      rw [topics_concat_topic, loops_concat_topic]
      refine forall_mem_concat hf.2.topicLoop fun name hname => ?_
      obtain ⟨m, hm, rfl⟩ := Option.map_eq_some_iff.mp hname
      obtain ⟨l, hl, rfl, -⟩ := hf.1.2.loop m hm
      exact ⟨l, hl, rfl⟩
  loop hf hadd := by
    refine ⟨kept_arranged.loop hf.1 hadd, ?_⟩
    obtain ⟨r, c, fullRoute, hsub, -, -, -, -, rfl⟩ := addLoop_eq_ok.mp hadd
    obtain ⟨x, hx, hroute, -⟩ := hf.1.2.subcategory r hsub
    refine { hf.2 with
      division := forall_mem_concat hf.2.division ⟨x, hx, hroute⟩
      topicLoop := fun t ht name hname => ?_ }
    rw [topics_concat_loop] at ht
    rw [loops_concat_loop]
    obtain ⟨l, hl, hlname⟩ := hf.2.topicLoop t ht name hname
    exact ⟨l, List.mem_append_left _ hl, hlname⟩
  gate hf := ⟨kept_arranged.gate hf.1, hf.2⟩
  screen hf hadd := by
    refine ⟨kept_arranged.screen hf.1 hadd, ?_⟩
    obtain ⟨r, -, -, -, -, rfl⟩ := addScreen_eq_ok.mp hadd
    exact { hf.2 with }
  assertion hf hadd := by
    refine ⟨kept_arranged.assertion hf.1 hadd, ?_⟩
    obtain ⟨r, hsub, rfl⟩ := addAssertion_eq_ok.mp hadd
    obtain ⟨x, hx, hroute, -⟩ := hf.1.2.subcategory r hsub
    exact { hf.2 with assertion := forall_mem_concat hf.2.assertion ⟨x, hx, hroute⟩ }
  leaveCategory hf hnone hgrow hg := ⟨kept_arranged.leaveCategory hf.1 hnone hgrow hg.1, hg.2⟩
  leaveSubcategory hf hnone hgrow hg :=
    ⟨kept_arranged.leaveSubcategory hf.1 hnone hgrow hg.1, hg.2⟩
  leaveTopic hf hgrow hg := ⟨kept_arranged.leaveTopic hf.1 hgrow hg.1, hg.2⟩
  leaveLoop hf hnone hgrow hg hscreen :=
    ⟨kept_arranged.leaveLoop hf.1 hnone hgrow hg.1 hscreen, hg.2⟩
  leaveGate hf hgrow hg := ⟨kept_arranged.leaveGate hf.1 hgrow hg.1, hg.2⟩

/-- In every flow that is built, what names a part names one that is there. -/
theorem attached_of_build {o : Outline} (hbuild : build o = .ok f) : f.Attached :=
  (kept_attached.of_build
    ⟨⟨arranged_empty o.batches, isOpen_outermost _⟩, attached_empty o.batches⟩ hbuild).2

/-- Within a category no other one is added. -/
theorem categories_of_add {e : Entry} (hcategory : e.scope.category.isSome = true)
    (hadd : f.add e = .ok g) : g.categories = f.categories := by
  obtain ⟨sc, item⟩ := e
  cases item with
  | category route =>
    obtain ⟨hnone, -⟩ := addCategory_eq_ok.mp hadd
    rw [show sc.category = none from hnone] at hcategory
    cases hcategory
  | subcategory head =>
    obtain ⟨c, -, -, -, rfl⟩ := addSubcategory_eq_ok.mp hadd
    rfl
  | topic route =>
    obtain ⟨r, -, rfl⟩ := addTopic_eq_ok.mp hadd
    split <;> rfl
  | loop head =>
    obtain ⟨r, c, fullRoute, -, -, -, -, -, rfl⟩ := addLoop_eq_ok.mp hadd
    rfl
  | loopEnd name =>
    obtain ⟨-, rfl⟩ := endLoop_eq_ok.mp hadd
    rfl
  | screen head =>
    obtain ⟨r, -, -, -, -, rfl⟩ := addScreen_eq_ok.mp hadd
    rfl
  | assertion head =>
    obtain ⟨r, -, rfl⟩ := addAssertion_eq_ok.mp hadd
    rfl

/-- What lies below a category has it in its scope. -/
theorem category_of_mem_allEntries (ns : List Node) (hcategory : sc.category.isSome = true) :
    ∀ e ∈ Node.allEntries sc ns, e.scope.category.isSome = true := by
  induction ns using Node.nodes_induction generalizing sc with
  | nil =>
    intro e he
    rw [Node.allEntries] at he
    cases he
  | cons n ns hchildren hrest =>
    intro e he
    rw [Node.allEntries, Node.entries_eq, List.mem_append, List.mem_append, List.mem_append] at he
    have henter : (sc.enter n).category.isSome = true := by
      cases n with
      | category route children => rfl
      | subcategory | topic | loop | gate | screen | assertion => exact hcategory
    rcases he with (hopening | hinside | hclosing) | hafter
    · have hscope : e.scope = sc := by
        cases n with
        | gate condition children => cases hopening
        | category | subcategory | topic | loop | screen | assertion =>
          rw [List.mem_singleton.mp hopening]
      rw [hscope]
      exact hcategory
    · exact hchildren henter e hinside
    · have hscope : e.scope = sc := by
        cases n with
        | loop head children => rw [List.mem_singleton.mp hclosing]
        | category | subcategory | topic | gate | screen | assertion => cases hclosing
      rw [hscope]
      exact hcategory
    · exact hrest hcategory e hafter

theorem categories_of_foldlM {es : List Entry}
    (hes : ∀ e ∈ es, e.scope.category.isSome = true) (hfold : es.foldlM add f = .ok g) :
    g.categories = f.categories := by
  induction es generalizing f with
  | nil => rw [pure_eq_ok.mp hfold]
  | cons e es ih =>
    obtain ⟨f', hadd, hrest⟩ := bind_eq_ok.mp hfold
    rw [ih (fun x hx => hes x (List.mem_cons_of_mem e hx)) hrest,
      categories_of_add (hes e List.mem_cons_self) hadd]

/-- A place matches its scope again when nodes within it have been taken. -/
theorem matches_of_nodes (hp : p.Matches sc f) (ns : List Node)
    (hfold : (Node.allEntries sc ns).foldlM add f = .ok g) : p.Matches sc g :=
  matches_of_growsTo hp (growsTo_of_foldlM hfold) fun hcategory =>
    categories_of_foldlM (category_of_mem_allEntries ns hcategory) hfold

/-! ## The whole tree -/

/-- The builders go on agreeing when they do after a first step. -/
theorem Agree.bind {x : Except DefinitionError (Graph × Place)} {y : Except DefinitionError Flow}
    (h : Agree sc x y) {k : Graph × Place → Except DefinitionError Graph}
    {k' : Flow → Except DefinitionError Flow}
    (hk : ∀ g p, y = .ok g → p.Matches sc g → k (g.graph, p) = graph <$> k' g) :
    x >>= k = graph <$> (y >>= k') := by
  cases h with
  | error e => rfl
  | ok hp => exact hk _ _ rfl hp

/-- From the graph of a flow, a node leads to the graph of the flow that its entries lead to, if the
nodes below it do. -/
theorem graph_visit (n : Node)
    (hchildren : ∀ {p : Place} {sc : Scope} {f : Flow}, (f.Arranged ∧ sc.IsOpen f) ∧ f.Attached →
      p.Matches sc f → f.graph.visitAll p n.children =
        graph <$> (Node.allEntries sc n.children).foldlM add f)
    (hf : (f.Arranged ∧ sc.IsOpen f) ∧ f.Attached) (hp : p.Matches sc f) :
    f.graph.visit p n = graph <$> (n.entries sc).foldlM add f := by
  cases n with
  | category route children =>
    exact (agree_category hf.1.1 hp route).bind fun g p' hadd hp' =>
      hchildren (kept_attached.category hf hadd) hp'
  | subcategory head children =>
    exact (agree_subcategory hf.1.1 hf.2 hp head).bind fun g p' hadd hp' =>
      hchildren (kept_attached.subcategory hf hadd) hp'
  | topic route children =>
    exact (agree_topic hf.1.1 hp route).bind fun g p' hadd hp' =>
      hchildren (kept_attached.topic hf hadd) hp'
  | loop head children =>
    refine (agree_loop hf.1.1 hf.2 hp head).bind fun g p' hadd hp' => ?_
    -- the end of the loop is taken when the nodes in it have been
    have hinside : g.graph.visitAll p' children =
        graph <$> (Node.allEntries (sc.enterLoop head) children).foldlM add g :=
      hchildren (kept_attached.loop hf hadd) hp'
    show (g.graph.visitAll p' children >>= fun G => G.leaveLoop p' head.name) =
      graph <$> ((Node.allEntries (sc.enterLoop head) children) ++ _).foldlM add g
    rw [hinside, List.foldlM_append]
    cases hfold : (Node.allEntries (sc.enterLoop head) children).foldlM add g with
    | error e => rfl
    | ok g' =>
      show g'.graph.leaveLoop p' head.name = graph <$> (g'.endLoop head.name >>= pure)
      rw [bind_pure, graph_endLoop (matches_of_nodes hp' children hfold) rfl]
  | gate condition children =>
    exact hchildren (kept_attached.gate hf)
      { hp with conditions := congrArg (· ++ [condition]) hp.conditions }
  | screen head =>
    show f.graph.addScreen p head = graph <$> (f.addScreen sc head >>= pure)
    rw [bind_pure, graph_addScreen hf.1.1 hp hf.1.2]
  | assertion head =>
    show f.graph.addAssertion p head = graph <$> (f.addAssertion sc head >>= pure)
    rw [bind_pure, graph_addAssertion hf.1.1 hp]

theorem graph_visitAll (ns : List Node) (hf : (f.Arranged ∧ sc.IsOpen f) ∧ f.Attached)
    (hp : p.Matches sc f) :
    f.graph.visitAll p ns = graph <$> (Node.allEntries sc ns).foldlM add f := by
  induction ns using Node.nodes_induction generalizing p sc f with
  | nil => rfl
  | cons n ns hchildren hrest =>
    rw [Graph.visitAll, graph_visit n hchildren hf hp, Node.allEntries, List.foldlM_append]
    cases hfold : (n.entries sc).foldlM add f with
    | error e => rfl
    | ok g =>
      have hnode : (Node.allEntries sc [n]).foldlM add f = .ok g := by
        rw [Node.allEntries, Node.allEntries, List.append_nil]
        exact hfold
      exact hrest (kept_attached.of_node n hf hfold) (matches_of_nodes hp [n] hnode)

end Flow

/-- **The graph of an outline is the graph of its flow**, and where there is none, the outline has
the same defect for both. -/
theorem Graph.build_eq (o : Outline) : Graph.build o = Flow.graph <$> Flow.build o := by
  unfold Graph.build Flow.build
  have hwalk : (Graph.empty o.batches).visitAll .outermost o.nodes =
      Flow.graph <$> o.entries.foldlM Flow.add (Flow.empty o.batches) :=
    Flow.graph_visitAll o.nodes ⟨⟨Flow.arranged_empty o.batches, Flow.isOpen_outermost _⟩,
      Flow.attached_empty o.batches⟩ (Flow.matches_outermost _)
  rw [hwalk]
  cases o.entries.foldlM Flow.add (Flow.empty o.batches) with
  | error e => rfl
  | ok f =>
    show (if f.screens = [] then throw DefinitionError.emptyFlow else pure f.graph) =
      Flow.graph <$> (if f.screens = [] then throw DefinitionError.emptyFlow else pure f)
    by_cases hnil : f.screens = []
    · rw [if_pos hnil, if_pos hnil]
      rfl
    · rw [if_neg hnil, if_neg hnil]
      rfl

/-- A graph that is built is that of a flow that is built. -/
theorem Graph.build_eq_ok {o : Outline} {G : Graph} :
    Graph.build o = .ok G ↔ ∃ f, Flow.build o = .ok f ∧ f.graph = G := by
  rw [Graph.build_eq]
  cases Flow.build o with
  | error e => simp [Functor.map, Except.map]
  | ok f => simp [Functor.map, Except.map]

end Interview

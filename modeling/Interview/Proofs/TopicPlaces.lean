import Interview.Proofs.Consistency
import Interview.Proofs.Flattening

/-!
# Where topics are listed

A topic is found again by its full route and gone on with wherever it is declared again. So its
place is that of its first declaration, among the sections of a subcategory or among the topics of a
loop, while its screens come from all of them. `Graph.ownsTopics_of_build` says which place that is,
that there is no other, and which screens lie in it. A topic of a loop may have screens outside of
it, and a topic may have screens of another subcategory, whose route and that of the topic there
make up the same full route (`Graph.not_all_screens_owned`).
-/

namespace Interview

open Interview.Graph

namespace Graph

/-! ## Places -/

/-- Of some nodes, the one at a position lists something once, and the others do not. -/
def ListedOnceAt {β : Type} (nodes : List β) (count : β → Nat) (j : Nat) : Prop :=
  ∀ (k : Nat) (node : β), nodes[k]? = some node → count node = if k = j then 1 else 0

/-- The one place in which a topic is listed. -/
inductive HasOnePlace (G : Graph) (i : Nat) (t : TopicNode) : Prop where
  /-- Once among the sections of its subcategory. -/
  | section {j : Nat} {c : SubcategoryNode} (subcategory : G.subcategories[j]? = some c)
      (own : c.route = t.subcategoryRoute)
      (once : ListedOnceAt G.subcategories (·.sections.count (.topic i)) j)
      (noLoop : ∀ l ∈ G.loops, i ∉ l.topics)
  /-- Once among the topics of a loop of its subcategory. -/
  | loop {m : Nat} {l : LoopNode} (loop : G.loops[m]? = some l)
      (own : l.subcategoryRoute = t.subcategoryRoute)
      (once : ListedOnceAt G.loops (·.topics.count i) m)
      (noSection : ∀ c ∈ G.subcategories, Graph.Section.topic i ∉ c.sections)

/-- Where a topic is listed and what is listed with it, given all declarations of topics. -/
structure OwnsTopic (G : Graph) (declared : List Topic) (i : Nat) (t : TopicNode) : Prop where
  /-- The topic is as it is declared first. -/
  first : declared.find? (·.fullRoute = t.fullRoute) = some t.toTopic
  /-- It is one of the topics of its subcategory, and of no other. -/
  subcategory : ∃ j c, G.subcategories[j]? = some c ∧ c.route = t.subcategoryRoute ∧
    ListedOnceAt G.subcategories (·.topics.count i) j
  place : G.HasOnePlace i t
  /-- Unless it is declared in another subcategory as well, its screens lie in its own. -/
  screens : (∀ d ∈ declared, d.fullRoute = t.fullRoute → d.subcategoryRoute = t.subcategoryRoute) →
    ∀ k ∈ t.screens, ∃ s, G.screens[k]? = some s ∧ s.subcategoryRoute = t.subcategoryRoute
  /-- Unless it is declared outside of the loop as well, the screens of a topic of a loop are
  members of the loop. -/
  members : ∀ l ∈ G.loops, i ∈ l.topics →
    (∀ d ∈ declared, d.fullRoute = t.fullRoute → d.loop = some l.name) → t.screens ⊆ l.screens

end Graph

/-! ## Topics of scopes -/

/-- The topic of a scope has been declared, in the same subcategory and in no other loop. -/
def Scope.HasTopicOf (declared : List Topic) (sc : Scope) : Prop :=
  ∀ r, sc.topic = some r → ∃ d ∈ declared, d.fullRoute = r ∧
    sc.subcategory = some d.subcategoryRoute ∧
    ∀ name, d.loop = some name → sc.loop.map (·.name) = some name

namespace Flow

variable {f g : Flow} {declared : List Topic}

/-- Below a node, the topic is that of the scope around it, unless the node declares one. -/
theorem hasTopicOf_enter {sc : Scope} {n : Node} (hsc : sc.HasTopicOf declared)
    (hdeclared : ∀ e ∈ n.opening sc, ∀ t, e.topic? = some t → t ∈ declared)
    (hopening : (n.opening sc).foldlM add f = .ok g) : (sc.enter n).HasTopicOf declared := by
  intro r hr
  cases n with
  | category | gate | screen | assertion => exact hsc r hr
  | topic route children =>
    rw [Node.opening, foldlM_singleton] at hopening
    obtain ⟨s, hs, -⟩ := addTopic_eq_ok.mp hopening
    have hsub : sc.subcategory = some s := hs
    have hmem := hdeclared ⟨sc, .topic route⟩ (List.mem_singleton_self _) _ rfl
    refine ⟨_, hmem, ?_, ?_, fun name hname => hname⟩
    · obtain rfl := Option.some.inj hr
      simp [Topic.place, hsub]
    · show sc.subcategory = some (sc.subcategory.getD "")
      rw [hsub]
      rfl
  | subcategory head children =>
    -- a topic lies in a subcategory, and there is none around
    rw [Node.opening, foldlM_singleton] at hopening
    obtain ⟨c, -, hnone, -⟩ := addSubcategory_eq_ok.mp hopening
    obtain ⟨d, -, -, hsub, -⟩ := hsc r hr
    rw [hnone] at hsub
    cases hsub
  | loop head children =>
    -- a topic that is declared in a loop lies in that loop, and there is none around
    rw [Node.opening, foldlM_singleton] at hopening
    obtain ⟨s, c, fullRoute, -, hnone, -⟩ := addLoop_eq_ok.mp hopening
    obtain ⟨d, hd, hroute, hsub, hloop⟩ := hsc r hr
    refine ⟨d, hd, hroute, hsub, fun name hname => ?_⟩
    have hopen := hloop name hname
    rw [hnone] at hopen
    cases hopen

theorem topic?_opening (n : Node) (around : List Node) :
    (n.opening (scopeAround around)).filterMap Entry.topic? =
      (Site.topic? ⟨n, around⟩).toList := by
  cases n with
  | topic route children =>
    simp [Node.opening, Entry.topic?, Site.topic?, Topic.place, scopeAround, Scope.below,
      Function.comp_def]
  | category | subcategory | loop | gate | screen | assertion => rfl

variable {o : Outline} (hbuild : build o = .ok f)

include hbuild

theorem topics_declared : o.entries.filterMap Entry.topic? = o.sites.filterMap Site.topic? :=
  filterMap_entries hbuild topic?_opening fun _ _ => rfl

/-- A topic of a flow is as it is declared first. -/
theorem find?_declared {t : Topic} (ht : t ∈ f.topics) :
    (o.sites.filterMap Site.topic?).find? (·.fullRoute = t.fullRoute) = some t := by
  obtain ⟨hfold, -⟩ := build_eq_ok.mp hbuild
  rw [← topics_declared hbuild]
  rcases find?_of_mem_topics (arranged_of_build hbuild).topicRoutes hfold ht with hnone | hfirst
  · cases hnone
  · exact hfirst

/-- The topic of a screen is declared in its subcategory, and in its loop if in any. -/
theorem exists_declared_of_screen {s : Screen} (hs : s ∈ f.screens) {r : String}
    (hr : s.topicRoute = some r) : ∃ d ∈ o.sites.filterMap Site.topic?, d.fullRoute = r ∧
      s.subcategoryRoute = d.subcategoryRoute ∧ ∀ name, d.loop = some name →
        s.loopName = some name := by
  obtain ⟨hfold, -⟩ := build_eq_ok.mp hbuild
  have hscopes : ∀ e ∈ o.entries, e.scope.HasTopicOf (o.entries.filterMap Entry.topic?) :=
    forall_scope (R := fun e => ∀ t, e.topic? = some t → t ∈ o.entries.filterMap Entry.topic?)
      hasTopicOf_enter nofun (fun e he t ht => List.mem_filterMap.mpr ⟨e, he, ht⟩) hfold
  have hscreen : s ∈ o.entries.filterMap Entry.screen? := by
    rw [screens_of_foldlM hfold] at hs
    exact hs
  obtain ⟨⟨sc, item⟩, he, hplace⟩ := List.mem_filterMap.mp hscreen
  cases item with
  | screen head =>
    obtain rfl := Option.some.inj hplace
    obtain ⟨d, hd, hroute, hsub, hloop⟩ := hscopes _ he r hr
    rw [topics_declared hbuild] at hd
    refine ⟨d, hd, hroute, ?_, hloop⟩
    show sc.subcategory.getD "" = d.subcategoryRoute
    rw [show sc.subcategory = some d.subcategoryRoute from hsub]
    rfl
  | category | subcategory | topic | loop | loopEnd | assertion => cases hplace

/-- The loop of a topic lies in its subcategory. -/
theorem exists_loop_of_topic {t : Topic} (ht : t ∈ f.topics) {name : String}
    (hname : t.loop = some name) :
    ∃ l ∈ f.loops, l.name = name ∧ l.subcategoryRoute = t.subcategoryRoute := by
  obtain ⟨hfold, -⟩ := build_eq_ok.mp hbuild
  have hdeclared := List.mem_of_find?_eq_some (find?_declared hbuild ht)
  rw [← topics_declared hbuild] at hdeclared
  obtain ⟨⟨sc, item⟩, he, hplace⟩ := List.mem_filterMap.mp hdeclared
  obtain ⟨f₁, f₂, ⟨-, hopen⟩, hadd, hafter⟩ := kept_arranged.of_mem
    ⟨arranged_empty o.batches, isOpen_outermost _⟩ hfold he
  have hgrow := (growsTo_of_add hadd).trans hafter
  cases item with
  | topic route =>
    obtain rfl := Option.some.inj hplace
    obtain ⟨m, hm, rfl⟩ := Option.map_eq_some_iff.mp hname
    obtain ⟨l, hl, rfl, -, hsub⟩ := hopen.loop m hm
    refine ⟨l, hgrow.loops_subset hl, rfl, ?_⟩
    show l.subcategoryRoute = sc.subcategory.getD ""
    rw [show sc.subcategory = some l.subcategoryRoute from hsub]
    rfl
  | category | subcategory | loop | loopEnd | screen | assertion => cases hplace

end Flow

/-! ## Counting -/

/-- A position is found once if the element there is, and else not at all. -/
theorem count_findIdxs {α : Type} {p : α → Bool} {xs : List α} {i : Nat} {x : α}
    (hi : xs[i]? = some x) : (xs.findIdxs p).count i = if p x = true then 1 else 0 := by
  have hmem : i ∈ xs.findIdxs p ↔ p x = true := mem_findIdxs hi
  split
  · next hp => exact List.count_eq_one_of_mem List.nodup_findIdxs (hmem.mpr hp)
  · next hp => exact List.count_eq_zero.mpr fun h => hp (hmem.mp h)

/-- If the owner with a key counts something once and the others not at all, only the node at its
position counts it, where keys are distinct. -/
theorem listedOnceAt_of_key {α β κ : Type} [DecidableEq κ] {owners : List α} {key : α → κ}
    (hdistinct : (owners.map key).Nodup) {j : Nat} {owner : α} (hj : owners[j]? = some owner)
    {node : α → β} {count : β → Nat}
    (hcount : ∀ y, count (node y) = if key y = key owner then 1 else 0) :
    ListedOnceAt (owners.map node) count j := by
  intro k other hk
  rw [List.getElem?_map, Option.map_eq_some_iff] at hk
  obtain ⟨y, hy, rfl⟩ := hk
  rw [hcount]
  by_cases hkey : key y = key owner
  · rw [if_pos hkey, if_pos (position_eq hdistinct hy hj hkey)]
  · rw [if_neg hkey, if_neg]
    rintro rfl
    exact hkey (congrArg key (Option.some.inj (hy.symm.trans hj)))

namespace Flow

variable {f : Flow} {i : Nat} {t : Topic}

/-- A topic outside of loops is a section of its subcategory, once. -/
theorem count_topic_sectionsOf (hi : f.topics[i]? = some t) (s : Subcategory) :
    (f.sectionsOf s).count (.topic i) =
      if t.subcategoryRoute = s.route ∧ t.loop = none then 1 else 0 := by
  have hcount : (f.sectionsOf s).count (.topic i) =
      ((f.sectionsOf s).filterMap Section.topicId?).count i := by
    rw [List.count_filterMap, List.count]
    congr 1
    funext x
    cases x with
    | topic id => simp [Section.topicId?]
    | loop id => rfl
  rw [hcount, sectionsOf, topics_numbered]
  show (f.topics.findIdxs fun t => isSectionOf s (.topic t)).count i = _
  rw [count_findIdxs hi]
  simp [isSectionOf_topic]

/-- A topic of a loop is listed there, once. -/
theorem count_loopNode (hi : f.topics[i]? = some t) (l : Loop) :
    (f.loopNode l).topics.count i = if t.loop = some l.name then 1 else 0 := by
  show (f.topics.findIdxs (·.loop = some l.name)).count i = _
  rw [count_findIdxs hi]
  simp

/-- The subcategory that a topic lists, with its position. -/
theorem exists_subcategoryNode {o : Outline} (hbuild : build o = .ok f) (ht : t ∈ f.topics) :
    ∃ (j : Nat) (c : Subcategory), f.subcategories[j]? = some c ∧ c.route = t.subcategoryRoute ∧
      f.graph.subcategories[j]? = some (f.subcategoryNode c) := by
  obtain ⟨c, hc, hroute⟩ := (attached_of_build hbuild).topic ht
  obtain ⟨j, hj⟩ := List.mem_iff_getElem?.mp hc
  exact ⟨j, c, hj, hroute, by rw [graph, List.getElem?_map, hj, Option.map_some]⟩

/-- A topic of a flow that is built is one of the topics of its subcategory. -/
theorem subcategory_graph {o : Outline} (hbuild : build o = .ok f) (hi : f.topics[i]? = some t) :
    ∃ j c, f.graph.subcategories[j]? = some c ∧ c.route = t.subcategoryRoute ∧
      ListedOnceAt f.graph.subcategories (·.topics.count i) j := by
  obtain ⟨j, c, hj, hroute, hnode⟩ := exists_subcategoryNode hbuild (List.mem_of_getElem? hi)
  refine ⟨j, _, hnode, hroute,
    listedOnceAt_of_key (arranged_of_build hbuild).subcategoryRoutes hj fun y => ?_⟩
  show (f.topics.findIdxs (·.subcategoryRoute = y.route)).count i = _
  rw [count_findIdxs hi, hroute]
  simp [eq_comm]

/-- A topic of a flow that is built is listed in one place. -/
theorem hasOnePlace_graph {o : Outline} (hbuild : build o = .ok f) (hi : f.topics[i]? = some t) :
    f.graph.HasOnePlace i (f.topicNode t) := by
  have hf := arranged_of_build hbuild
  have ht : t ∈ f.topics := List.mem_of_getElem? hi
  cases hloop : t.loop with
  | none =>
    obtain ⟨j, c, hj, hroute, hnode⟩ := exists_subcategoryNode hbuild ht
    refine .section hnode hroute (listedOnceAt_of_key hf.subcategoryRoutes hj fun y => ?_) ?_
    · show (f.sectionsOf y).count (.topic i) = _
      rw [count_topic_sectionsOf hi, hroute]
      simp [hloop, eq_comm]
    · refine List.forall_mem_map.mpr fun l _ hmem => ?_
      have hnone := count_loopNode hi l
      rw [if_neg (by simp [hloop]), List.count_eq_zero] at hnone
      exact hnone hmem
  | some name =>
    obtain ⟨l, hl, rfl, hroute⟩ := exists_loop_of_topic hbuild ht hloop
    obtain ⟨m, hm⟩ := List.mem_iff_getElem?.mp hl
    have hnode : f.graph.loops[m]? = some (f.loopNode l) := by
      rw [graph, List.getElem?_map, hm, Option.map_some]
    refine .loop hnode hroute (listedOnceAt_of_key hf.loopNames hm fun y => ?_) ?_
    · rw [count_loopNode hi, hloop]
      simp [eq_comm]
    · refine List.forall_mem_map.mpr fun s _ hmem => ?_
      have hnone := count_topic_sectionsOf hi s
      rw [if_neg (by simp [hloop]), List.count_eq_zero] at hnone
      exact hnone hmem

end Flow

/-- **Every topic of a graph that is built is listed in one place**, with its screens, as long as it
is declared there only. -/
theorem Graph.ownsTopics_of_build {o : Outline} {G : Graph} (hbuild : Graph.build o = .ok G) :
    ∀ i t, G.topics[i]? = some t → G.OwnsTopic (o.sites.filterMap Site.topic?) i t := by
  obtain ⟨f, hflow, rfl⟩ := Graph.build_eq_ok.mp hbuild
  intro i node hi
  rw [Flow.graph, List.getElem?_map, Option.map_eq_some_iff] at hi
  obtain ⟨t, hi, rfl⟩ := hi
  have ht : t ∈ f.topics := List.mem_of_getElem? hi
  -- the topic of each screen that is listed is declared around it
  have hscreen : ∀ k ∈ (f.topicNode t).screens, ∃ s, f.screens[k]? = some s ∧
      ∃ d ∈ o.sites.filterMap Site.topic?, d.fullRoute = t.fullRoute ∧
        s.subcategoryRoute = d.subcategoryRoute ∧
        ∀ name, d.loop = some name → s.loopName = some name := by
    intro k hk
    obtain ⟨s, hs, htopic⟩ := exists_of_mem_findIdxs hk
    have hmem : s ∈ f.screens := List.mem_of_getElem? hs
    exact ⟨s, hs, Flow.exists_declared_of_screen hflow hmem (of_decide_eq_true htopic)⟩
  refine ⟨Flow.find?_declared hflow ht, Flow.subcategory_graph hflow hi,
    Flow.hasOnePlace_graph hflow hi, ?_, ?_⟩
  · intro hdeclared k hk
    obtain ⟨s, hs, d, hd, hroute, hsub, -⟩ := hscreen k hk
    exact ⟨s, hs, hsub.trans (hdeclared d hd hroute)⟩
  · refine List.forall_mem_map.mpr fun l _ _ hdeclared k hk => ?_
    obtain ⟨s, hs, d, hd, hroute, -, hloop⟩ := hscreen k hk
    show k ∈ f.screens.findIdxs (·.loopName = some l.name)
    rw [mem_findIdxs hs]
    exact decide_eq_true (hloop l.name (hdeclared d hd hroute))

/-! ## Examples -/

namespace Household

/-- The topic of the names is declared in the loop through the people, and again outside of it. -/
def splitOutline : Outline :=
  ⟨.empty, [.category "you" [.subcategory ⟨"family", [], [], false, false, false, none⟩
    [.loop ⟨"people", some "/people", true, false, none, none, none⟩
       [.topic "names" [page "first" none true], .topic "schools" [page "school" none true]],
     .topic "names" [page "last" none true]]]]⟩

/-- Two subcategories have topics with the same full route. -/
def spellingOutline : Outline :=
  ⟨.empty, [.category "you"
    [.subcategory ⟨"family", [], [], false, false, false, none⟩
       [.topic "names/all" [page "first" none true]],
     .subcategory ⟨"family/names", [], [], false, false, false, none⟩
       [.topic "all" [page "last" none true]]]]⟩

/-- The flow of the split outline. -/
def splitFlow : Flow :=
  (Flow.build splitOutline).toOption.getD (.empty .empty)

/-- The flow of the outline with two spellings. -/
def spellingFlow : Flow :=
  (Flow.build spellingOutline).toOption.getD (.empty .empty)

end Household

namespace Graph

open Household

/-- The schools are listed in the loop with their screen. The names are listed in the loop only, but
have a screen outside. -/
theorem ownsTopics_household : Graph.build splitOutline = .ok splitFlow.graph ∧
    ∃ names schools people, splitFlow.graph.topics = [names, schools] ∧
      splitFlow.graph.loops = [people] ∧ people.screens = [0, 1] ∧ names.screens = [0, 2] ∧
      splitFlow.graph.OwnsTopic (splitOutline.sites.filterMap Site.topic?) 0 names ∧
      splitFlow.graph.OwnsTopic (splitOutline.sites.filterMap Site.topic?) 1 schools ∧
      schools.screens ⊆ people.screens := by
  have hbuild : Graph.build splitOutline = .ok splitFlow.graph :=
    Graph.build_eq_ok.mpr ⟨_, rfl, rfl⟩
  have howned := ownsTopics_of_build hbuild
  have hschools := howned 1 _ rfl
  refine ⟨hbuild, _, _, _, rfl, rfl, rfl, rfl, howned 0 _ rfl, hschools, ?_⟩
  exact hschools.members _ List.mem_cons_self (by decide) (by decide)

/-- A topic of a loop may have a screen that is no member of the loop, and a topic may have a screen
of another subcategory. -/
theorem not_all_screens_owned :
    (∃ G t l, Graph.build splitOutline = .ok G ∧ G.topics[0]? = some t ∧ l ∈ G.loops ∧
      0 ∈ l.topics ∧ 2 ∈ t.screens ∧ 2 ∉ l.screens) ∧
    ∃ G t c s, Graph.build spellingOutline = .ok G ∧ G.topics[0]? = some t ∧
      c ∈ G.subcategories ∧ 0 ∈ c.topics ∧ 1 ∈ t.screens ∧ G.screens[1]? = some s ∧
      s.subcategoryRoute ≠ c.route := by
  constructor
  · refine ⟨splitFlow.graph, _, _, Graph.build_eq_ok.mpr ⟨_, rfl, rfl⟩, rfl, List.mem_cons_self, ?_⟩
    decide
  · refine ⟨spellingFlow.graph, _, _, _, Graph.build_eq_ok.mpr ⟨_, rfl, rfl⟩, rfl,
      List.mem_cons_self, ?_, ?_, rfl, ?_⟩
    · decide
    · decide
    · decide

end Graph

end Interview

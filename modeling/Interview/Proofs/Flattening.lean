import Interview.Flow.Flattening
import Interview.Proofs.Entries

/-!
# What is kept of an outline

While a graph is built, a scope is carried along, which is changed by every node that is gone into
and taken over again behind it. Here this is compared with the flattened outline, where it is looked
up for every screen and assertion what is around it. A scope says the same as the nodes around
(`scopeAround`), because subcategories and loops are not nested, and so entry by entry the same
screens and assertions come out (`Flow.filterMap_allEntries`).
-/

namespace Interview

open Interview.Graph

/-! ## Scopes -/

/-- The scope that nodes around make up. -/
def scopeAround (around : List Node) : Scope where
  category := categoryAround around
  subcategory := subcategoryAround around
  topic := topicAround around
  loop := (loopAround around).map fun l => ⟨l.name, l.autoIterates, l.isInner⟩
  collection := collectionAround around
  conditions := gatesAround around

theorem gatesAround_cons (n : Node) (around : List Node) :
    gatesAround (n :: around) = gatesAround around ++ n.gateCondition?.toList := by
  unfold gatesAround
  rw [List.reverse_cons, List.filterMap_append]
  cases n <;> rfl

/-- Outside of subcategories, there is no collection. -/
theorem subjectAround_eq_none {around : List Node} (hout : subcategoryAround around = none) :
    subjectAround around = none := by
  induction around with
  | nil => rfl
  | cons n around ih =>
    cases n with
    | subcategory head children => cases hout
    | category | topic | loop | gate | screen | assertion => exact ih hout

namespace Flow

variable {f g : Flow} {sc : Scope} {around : List Node}

/-- **Going into a node changes the scope as it changes what is around.** -/
theorem enter_scopeAround (hopen : (scopeAround around).IsOpen f) (n : Node)
    (hopening : (n.opening (scopeAround around)).foldlM add f = .ok g) :
    (scopeAround around).enter n = scopeAround (n :: around) := by
  have hgates : gatesAround (n :: around) = gatesAround around ++ n.gateCondition?.toList :=
    gatesAround_cons n around
  cases n with
  | category route children =>
    simp [Scope.enter, Scope.enterCategory, Scope.categoryRoute, scopeAround, collectionAround,
      hgates, Node.gateCondition?]
  | topic route children =>
    simp [Scope.enter, Scope.enterTopic, Scope.below, scopeAround, collectionAround, hgates,
      Node.gateCondition?]
  | gate condition children =>
    simp [Scope.enter, Scope.enterGate, scopeAround, collectionAround, hgates, Node.gateCondition?]
  | screen | assertion =>
    simp [Scope.enter, scopeAround, collectionAround, hgates, Node.gateCondition?]
  | subcategory head children =>
    -- what a subcategory is about replaces nothing, as it lies in no other and in no loop
    rw [Node.opening, foldlM_singleton] at hopening
    obtain ⟨c, -, hsub, -⟩ := addSubcategory_eq_ok.mp hopening
    have hnoloop : loopAround around = none := Option.map_eq_none_iff.mp (loop_none hopen hsub)
    have hsubject : subjectAround around = none := subjectAround_eq_none hsub
    simp [Scope.enter, Scope.enterSubcategory, Scope.below, scopeAround, collectionAround, hgates,
      Node.gateCondition?, hnoloop, hsubject]
  | loop head children =>
    -- the collection so far is that of the subcategory, as the loop lies in no other
    rw [Node.opening, foldlM_singleton] at hopening
    obtain ⟨r, c, fullRoute, -, hloop, -⟩ := addLoop_eq_ok.mp hopening
    have hnoloop : loopAround around = none := Option.map_eq_none_iff.mp hloop
    simp [Scope.enter, Scope.enterLoop, Scope.loopCollection, scopeAround, collectionAround, hgates,
      Node.gateCondition?, hnoloop]

/-! ## Entries and sites -/

/-- **Entries and sites give the same parts** if the opening of each node gives what its site
does. -/
theorem filterMap_allEntries {β : Type} {ofEntry : Entry → Option β} {ofSite : Site → Option β}
    (hopenings : ∀ n around, (n.opening (scopeAround around)).filterMap ofEntry =
      (ofSite ⟨n, around⟩).toList)
    (hends : ∀ sc name, ofEntry ⟨sc, .loopEnd name⟩ = none) {ns : List Node}
    (hf : f.Arranged ∧ (scopeAround around).IsOpen f)
    (htakes : (Node.allEntries (scopeAround around) ns).foldlM add f = .ok g) :
    (Node.allEntries (scopeAround around) ns).filterMap ofEntry =
      (Node.allSites around ns).filterMap ofSite := by
  induction ns using Node.nodes_induction generalizing around f g with
  | nil => rfl
  | cons n ns children rest =>
    obtain ⟨f₂, hfirst, hrest⟩ := takes_cons_iff.mp htakes
    obtain ⟨f₁, hopening, hchildren, -⟩ := takes_node_iff.mp hfirst
    have hf₁ := kept_arranged.of_opening hf n hopening
    have hf₂ := kept_arranged.of_node n hf hfirst
    have henter := enter_scopeAround hf.2 n hopening
    rw [henter] at hchildren hf₁
    have hclosing : (n.closing (scopeAround around)).filterMap ofEntry = [] := by
      cases n with
      | loop head below => simp [Node.closing, hends]
      | category | subcategory | topic | gate | screen | assertion => rfl
    rw [Node.allEntries, Node.allSites, Node.entries_eq, Node.sites_eq, henter]
    simp only [List.filterMap_append, List.filterMap_cons, hopenings, hclosing,
      children hf₁ hchildren, rest hf₂ hrest, List.append_nil]
    cases ofSite ⟨n, around⟩ <;> rfl

end Flow

/-! ## Screens and assertions -/

/-- Names are added to others unless they are among them or have come before. -/
theorem foldl_addName (names more : List String) :
    more.foldl (fun names name => if names.contains name then names else names ++ [name]) names =
      names ++ (more.filter (!names.contains ·)).eraseDups := by
  induction more generalizing names with
  | nil => simp
  | cons name more ih =>
    rw [List.foldl_cons, ih]
    by_cases hknown : name ∈ names
    · simp [hknown]
    · have hfilter : (more.filter (!names.contains ·)).filter (!· == name) =
          more.filter (!(names ++ [name]).contains ·) := by
        rw [List.filter_filter]
        refine List.filter_congr fun other _ => ?_
        simp [Bool.and_comm, beq_eq_decide]
      rw [List.filter_cons_of_pos (by simpa using hknown), List.eraseDups_cons, hfilter]
      simp [hknown]

/-- Batches are listed in the order of their first places. -/
theorem Screen.batchNames_eq (content : List Element) :
    Screen.batchNames content = (content.flatMap (·.batches)).eraseDups := by
  rw [Screen.batchNames, foldl_addName]
  simp

namespace Flow

variable {f g : Flow} {around : List Node}

theorem screen?_opening (n : Node) (around : List Node) :
    (n.opening (scopeAround around)).filterMap Entry.screen? =
      (Site.screen? ⟨n, around⟩).toList := by
  cases n with
  | screen head =>
    simp [Node.opening, Entry.screen?, Site.screen?, Screen.place, scopeAround, Scope.below,
      Screen.batchNames_eq]
  | category | subcategory | topic | loop | gate | assertion => rfl

theorem assertion?_opening (n : Node) (around : List Node) :
    (n.opening (scopeAround around)).filterMap Entry.assertion? =
      (Site.assertion? ⟨n, around⟩).toList := by
  cases n with
  | assertion head => rfl
  | category | subcategory | topic | loop | gate | screen => rfl

/-- What the entries of an outline give is what its sites give. -/
theorem filterMap_entries {o : Outline} (hbuild : build o = .ok f) {β : Type}
    {ofEntry : Entry → Option β} {ofSite : Site → Option β}
    (hopenings : ∀ n around, (n.opening (scopeAround around)).filterMap ofEntry =
      (ofSite ⟨n, around⟩).toList)
    (hends : ∀ sc name, ofEntry ⟨sc, .loopEnd name⟩ = none) :
    o.entries.filterMap ofEntry = o.sites.filterMap ofSite := by
  obtain ⟨hfold, -⟩ := build_eq_ok.mp hbuild
  have hopen : (scopeAround []).IsOpen (.empty o.batches) := isOpen_outermost _
  exact filterMap_allEntries hopenings hends ⟨arranged_empty o.batches, hopen⟩ hfold

theorem screens_of_build {o : Outline} (hbuild : build o = .ok f) :
    f.screens = o.sites.filterMap Site.screen? := by
  obtain ⟨hfold, -⟩ := build_eq_ok.mp hbuild
  rw [screens_of_foldlM hfold, filterMap_entries hbuild screen?_opening fun _ _ => rfl]
  rfl

theorem assertions_of_build {o : Outline} (hbuild : build o = .ok f) :
    f.assertions = o.sites.filterMap Site.assertion? := by
  obtain ⟨hfold, -⟩ := build_eq_ok.mp hbuild
  rw [assertions_of_foldlM hfold, filterMap_entries hbuild assertion?_opening fun _ _ => rfl]
  rfl

end Flow

/-! ## The graph -/

/-- A graph has the screens and assertions of an outline, as they are among the nodes around. -/
structure Graph.Flattens (G : Graph) (o : Outline) : Prop where
  /-- The screens are those that are declared, in their order. -/
  screens : G.screens = o.sites.filterMap Site.screen?
  /-- A topic has the screens that it is the innermost one for, wherever it is declared. -/
  topics : ∀ t ∈ G.topics, t.screens = G.screens.findIdxs (·.topicRoute = some t.fullRoute)
  /-- The assertions of a subcategory are those that are declared in it, in their order. -/
  assertions : ∀ c ∈ G.subcategories,
    c.assertions = (o.sites.filterMap Site.assertion?).filter (·.subcategoryRoute = c.route)

/-- **Every graph that is built flattens its outline.** -/
theorem Graph.flattens_of_build {o : Outline} {G : Graph} (hbuild : Graph.build o = .ok G) :
    G.Flattens o := by
  obtain ⟨f, hflow, rfl⟩ := Graph.build_eq_ok.mp hbuild
  have hassertions := Flow.assertions_of_build hflow
  refine ⟨Flow.screens_of_build hflow, List.forall_mem_map.mpr fun t _ => rfl,
    List.forall_mem_map.mpr fun c _ => ?_⟩
  rw [← hassertions]
  rfl

/-! ## An example

Gates stand around a category, a loop and an assertion, and a topic is interrupted by a loop. -/

namespace Household

/-- The gate around the whole category. -/
def signed : Condition := .fact "/signed" .isTrue

/-- The gate around the loop and an assertion. -/
def adult : Condition := .fact "/adult" .isTrue

/-- A page whose heading and button belong to batches. -/
def batchPage (route : String) (condition : Option Condition) : Node :=
  .screen ⟨route, condition, none, false, false, false,
    [⟨.heading route, [], ["b", "a"]⟩, ⟨.saveAndContinue, [], ["a", "c", "b"]⟩]⟩

/-- An outline with gates at several levels. -/
def gatedOutline : Outline where
  batches := ["a", "b", "c"].foldl
    (fun t name => t.insert name ⟨.content, .complete, none, []⟩) .empty
  nodes := [.gate signed [.category "you"
    [.subcategory ⟨"family", [], [], false, false, false, some "/family"⟩
      [.topic "names" [batchPage "start" (some adult)],
       .gate adult
        [.loop ⟨"people", some "/people", true, false, none, none, none⟩ [batchPage "name" none],
         .assertion ⟨.warning, "adult", [.experimental], none⟩],
       .topic "names" [batchPage "end" none],
       .assertion ⟨.warning, "done", [], none⟩]]]]

/-- The flow of the outline. -/
def gatedFlow : Flow :=
  (Flow.build gatedOutline).toOption.getD (.empty .empty)

end Household

open Household in
/-- The conditions, collections, topics and batches of the screens, and the conditions of the
assertions, are those that stand around them. -/
theorem Graph.flattens_household : Graph.build gatedOutline = .ok gatedFlow.graph ∧
    gatedFlow.graph.screens.map (fun s => (s.fullRoute, s.conditions, s.collection, s.topicRoute)) =
      [("/flow/you/family/start", [signed, adult], some "/family", some "/flow/you/family/names"),
       ("/flow/you/family/name", [signed, adult], some "/people", none),
       ("/flow/you/family/end", [signed], some "/family", some "/flow/you/family/names")] ∧
    gatedFlow.graph.screens.map (·.batches) = [["b", "a", "c"], ["b", "a", "c"], ["b", "a", "c"]] ∧
    gatedFlow.graph.subcategories.map (·.assertions.map (·.conditions)) =
      [[[signed, adult, .experimental], [signed]]] ∧
    gatedFlow.graph.Flattens gatedOutline := by
  have hbuild : Graph.build gatedOutline = .ok gatedFlow.graph :=
    Graph.build_eq_ok.mpr ⟨gatedFlow, rfl, rfl⟩
  exact ⟨hbuild, rfl, rfl, rfl, Graph.flattens_of_build hbuild⟩

end Interview

import Interview.Proofs.GraphBuilding

/-!
# Which outlines a graph is built from

The checks of building are spread over the entries, and each looks at the flow built so far. Here
they are brought together: nodes and what is below them are taken if and only if every one of these
nodes is sound in its place, and no route or name occurs twice, among them and in the flow built so
far (`exists_takes_iff`). For a whole outline this says that it is well-formed. All this is shown of
flows; a graph is built if and only if a flow is (`Graph.build_eq`).
-/

namespace Interview

/-! ## Routes and names -/

/-- What is known by a route or a name that nothing else of its sort has. -/
inductive Naming where
  | subcategory
  | screen
  | loop
deriving DecidableEq

/-- The route or name of a node, if it is of a sort. -/
def Naming.ofSite? : Naming → Site → Option String
  | subcategory => Site.subcategoryRoute?
  | screen => Site.screenRoute?
  | loop => Site.loopName?

namespace Flow

/-- The routes or names of a sort that are taken. -/
def names (f : Flow) : Naming → List String
  | .subcategory => f.subcategories.map (·.route)
  | .screen => f.screens.map (·.fullRoute)
  | .loop => f.loops.map (·.name)

/-- No route or name occurs twice, in a flow and among nodes that are to be taken. -/
def HasRoomFor (f : Flow) (xs : List Site) : Prop :=
  ∀ k, (f.names k ++ xs.filterMap k.ofSite?).Nodup

/-- The flow has become another by taking nodes: their routes and names are taken now. -/
def TakesNames (f g : Flow) (xs : List Site) : Prop :=
  ∀ k, g.names k = f.names k ++ xs.filterMap k.ofSite?

variable {f g h : Flow} {sc : Scope} {around : List Node} {xs ys : List Site}

theorem TakesNames.trans (hfg : f.TakesNames g xs) (hgh : g.TakesNames h ys) :
    f.TakesNames h (xs ++ ys) := by
  intro k
  rw [hgh k, hfg k, List.filterMap_append, List.append_assoc]

/-- There is room for nodes after others if there is room for all of them. -/
theorem TakesNames.hasRoomFor_iff (hfg : f.TakesNames g xs) :
    g.HasRoomFor ys ↔ f.HasRoomFor (xs ++ ys) := by
  refine forall_congr' fun k => ?_
  rw [hfg k, List.filterMap_append, List.append_assoc]

theorem HasRoomFor.left (h : f.HasRoomFor (xs ++ ys)) : f.HasRoomFor xs := by
  intro k
  have hk := h k
  rw [List.filterMap_append, ← List.append_assoc] at hk
  exact hk.sublist (List.sublist_append_left _ _)

theorem Arranged.hasRoomFor_nil (hf : f.Arranged) : f.HasRoomFor [] := by
  intro k
  rw [List.filterMap_nil, List.append_nil]
  cases k with
  | subcategory => exact hf.subcategoryRoutes
  | screen => exact hf.screenRoutes
  | loop => exact hf.loopNames

/-- There is room for a node without a route or name that must differ. -/
theorem Arranged.hasRoomFor_of_none (hf : f.Arranged) {x : Site}
    (h : ∀ k, Naming.ofSite? k x = none) : f.HasRoomFor [x] := by
  intro k
  rw [List.filterMap_cons_none (h k)]
  exact hf.hasRoomFor_nil k

/-- There is room for a node if its route or name is not taken. -/
theorem Arranged.hasRoomFor_iff (hf : f.Arranged) {x : Site} {k : Naming} {name : String}
    (h : ∀ k', Naming.ofSite? k' x = if k' = k then some name else none) :
    f.HasRoomFor [x] ↔ name ∉ f.names k := by
  have hnil (k : Naming) : (f.names k).Nodup := by simpa using hf.hasRoomFor_nil k
  have hname : k.ofSite? x = some name := by rw [h k, if_pos rfl]
  constructor
  · intro hroom hmem
    have hk := hroom k
    rw [List.filterMap_cons_some hname, List.nodup_append] at hk
    exact hk.2.2 name hmem name List.mem_cons_self rfl
  · intro hfresh k'
    by_cases hk : k' = k
    · rw [hk, List.filterMap_cons_some hname, List.filterMap_nil, List.nodup_append]
      refine ⟨hnil k, List.nodup_singleton name, ?_⟩
      rintro a ha b hb rfl
      rw [List.mem_singleton.mp hb] at ha
      exact hfresh ha
    · have hnone : k'.ofSite? x = none := by rw [h k', if_neg hk]
      rw [List.filterMap_cons_none hnone, List.filterMap_nil, List.append_nil]
      exact hnil k'

end Flow

/-! ## One node -/

namespace Site

variable {batches : Batch.Registry} {x : Site}

/-- What is checked of a node before its children are looked at. -/
def IsFit (batches : Batch.Registry) (x : Site) : Prop :=
  x.IsPlaced ∧
    match x.node with
    | .loop head _ => ¬ x.LiesIn .loop ∧
        (head.collection.isSome ∨ ∃ n ∈ x.around, n.subject?.isSome) ∧
        (head.isInner = true → x.LiesIn .topic)
    | .screen head => x.IsSoundScreen batches head
    | _ => True

/-- All that is checked of a node. -/
structure IsSound (batches : Batch.Registry) (x : Site) : Prop where
  placed : x.IsPlaced
  loop : ∀ head children, x.node = .loop head children → x.IsSoundLoop head
  screen : ∀ head, x.node = .screen head → x.IsSoundScreen batches head

/-- After the children of a loop it is checked that there is a screen among them. -/
theorem isSound_iff : x.IsSound batches ↔ x.IsFit batches ∧
    (x.node.kind? = some .loop →
      ∃ y ∈ Node.allSites [] x.node.children, y.node.kind? = some .screen) := by
  obtain ⟨n, around⟩ := x
  constructor
  · rintro ⟨hplaced, hloop, hscreen⟩
    cases n with
    | loop head children =>
      obtain ⟨hnested, hcollection, hinner, hbelow⟩ := hloop head children rfl
      exact ⟨⟨hplaced, hnested, hcollection, hinner⟩, fun _ => hbelow⟩
    | screen head => exact ⟨⟨hplaced, hscreen head rfl⟩, by simp [Node.kind?]⟩
    | category | subcategory | topic | gate | assertion =>
      exact ⟨⟨hplaced, trivial⟩, by simp [Node.kind?]⟩
  · rintro ⟨⟨hplaced, hfit⟩, hbelow⟩
    refine ⟨hplaced, ?_, ?_⟩
    · rintro head children heq
      obtain rfl : n = .loop head children := heq
      obtain ⟨hnested, hcollection, hinner⟩ := hfit
      exact ⟨hnested, hcollection, hinner, hbelow rfl⟩
    · rintro head heq
      obtain rfl : n = .screen head := heq
      exact hfit

end Site

namespace Screen

variable {sc : Scope} {r : String} {head : ScreenHead}

theorem checkHeadings_eq_ok :
    (place sc r head).checkHeadings = .ok () ↔ head.HasHeadings := by
  have hcontent : (place sc r head).content.filter (·.content.isHeading) = head.headings := rfl
  unfold checkHeadings ScreenHead.HasHeadings
  rw [hcontent]
  -- no heading, one, and several
  match head.headings with
  | [] => simp [throw_ne_ok]
  | [heading] =>
    rw [guard_eq_ok, pure_eq_ok]
    simp
  | first :: second :: rest =>
    rw [guard_eq_ok, pure_eq_ok]
    simp

theorem check_eq_ok : (place sc r head).check = .ok () ↔ head.HasHeadings ∧
    (∃ e ∈ head.content, e.content.leavesScreen = true) ∧
    ((∃ e ∈ head.content, e.content.fieldPath.isSome) → sc.topic.isSome) := by
  have hcontent : (place sc r head).content = head.content := rfl
  have htopic : (place sc r head).topicRoute = sc.topic := rfl
  unfold check fieldPaths
  rw [check_bind_eq_ok, checkHeadings_eq_ok, hcontent, htopic]
  simp only [throw_bind, guard_eq_ok, pure_eq_ok, and_true]
  refine and_congr_right fun _ => and_congr ?_ ?_
  · simp
  · cases sc.topic <;> simp [Option.ne_none_iff_isSome]

theorem checkBatches_eq_ok {batches : Batch.Registry} :
    (place sc r head).checkBatches batches = .ok () ↔
      ∀ e ∈ head.content, ∀ name ∈ e.batches, (batches.get? name).isSome := by
  have hcontent : (place sc r head).content = head.content := rfl
  unfold checkBatches
  rw [hcontent]
  cases hfind : (head.content.flatMap (·.batches)).find?
      fun name => (batches.get? name).isNone with
  | none =>
    have hall := List.find?_eq_none.mp hfind
    simp only [pure_eq_ok, true_iff]
    intro e he name hname
    simpa [Option.isSome_iff_ne_none] using hall name (List.mem_flatMap.mpr ⟨e, he, hname⟩)
  | some name =>
    have hnone : batches.get? name = none := by simpa using List.find?_some hfind
    obtain ⟨e, he, hname⟩ := List.mem_flatMap.mp (List.mem_of_find?_eq_some hfind)
    simp only [throw_ne_ok, false_iff]
    intro hall
    simpa [hnone] using hall e he name hname

end Screen

namespace Flow

variable {f g : Flow} {sc : Scope} {around : List Node}

theorem foldlM_singleton (e : Entry) : [e].foldlM add f = f.add e := by
  simp

theorem subcategory?_eq_none {r : String} :
    f.subcategory? r = none ↔ r ∉ f.names .subcategory := by
  simp [subcategory?, names]

theorem screen?_eq_none {r : String} : f.screen? r = none ↔ r ∉ f.names .screen := by
  simp [screen?, names]

theorem loop?_eq_none {name : String} : f.loop? name = none ↔ name ∉ f.names .loop := by
  simp [loop?, names]

/-- A loop that is no inner one returns to its subcategory. -/
theorem exists_loopRoute {r : String} {head : LoopHead} :
    (∃ fullRoute, loopRoute sc r head = .ok fullRoute) ↔
      (head.isInner = true → sc.topic.isSome) := by
  unfold loopRoute
  cases head.isInner with
  | false => simp [pure_eq_ok]
  | true => cases sc.topic <;> simp [pure_eq_ok, throw_ne_ok]

section

variable (hf : f.Arranged) (hsc : sc.Matches around)

include hf hsc

/-! A node is taken if and only if it is fit for its place and its route or name is not taken
yet. -/

theorem addCategory_iff (route : String) (children : List Node) :
    (∃ g, f.addCategory sc route = .ok g) ↔
      Site.IsFit f.batches ⟨.category route children, around⟩ ∧
        f.HasRoomFor [⟨.category route children, around⟩] := by
  have hroom : f.HasRoomFor [⟨.category route children, around⟩] :=
    hf.hasRoomFor_of_none fun k => by cases k <;> rfl
  have hplace := hsc.category_eq_none (.category route children)
  simp only [addCategory_eq_ok, hplace, hroom, and_true, exists_and_left, exists_eq]
  simp [Site.IsFit, Site.IsPlaced, Node.kind?]

theorem addSubcategory_iff (head : SubcategoryHead) (children : List Node) :
    (∃ g, f.addSubcategory sc head = .ok g) ↔
      Site.IsFit f.batches ⟨.subcategory head children, around⟩ ∧
        f.HasRoomFor [⟨.subcategory head children, around⟩] := by
  have hroom := hf.hasRoomFor_iff (x := ⟨.subcategory head children, around⟩)
    (k := .subcategory) fun k => by cases k <;> rfl
  rw [hroom, ← hsc.category]
  simp only [addSubcategory_eq_ok, subcategory?_eq_none, Site.IsFit, Site.IsPlaced, Node.kind?,
    ← hsc.exists_category, ← hsc.subcategory_eq_none]
  constructor
  · rintro ⟨g, c, hc, hsub, hfresh, -⟩
    rw [hc]
    exact ⟨⟨⟨⟨c, rfl⟩, hsub⟩, trivial⟩, hfresh⟩
  · rintro ⟨⟨⟨⟨c, hc⟩, hsub⟩, -⟩, hfresh⟩
    rw [hc] at hfresh
    exact ⟨_, c, hc, hsub, hfresh, rfl⟩

theorem addTopic_iff (route : String) (children : List Node) :
    (∃ g, f.addTopic sc route = .ok g) ↔
      Site.IsFit f.batches ⟨.topic route children, around⟩ ∧
        f.HasRoomFor [⟨.topic route children, around⟩] := by
  have hroom : f.HasRoomFor [⟨.topic route children, around⟩] :=
    hf.hasRoomFor_of_none fun k => by cases k <;> rfl
  simp only [addTopic_eq_ok, hroom, and_true, Site.IsFit, Site.IsPlaced, Node.kind?,
    ← hsc.exists_subcategory]
  constructor
  · rintro ⟨g, r, hr, -⟩
    exact ⟨r, hr⟩
  · rintro ⟨r, hr⟩
    exact ⟨_, r, hr, rfl⟩

theorem addLoop_iff (head : LoopHead) (children : List Node) :
    (∃ g, f.addLoop sc head = .ok g) ↔
      Site.IsFit f.batches ⟨.loop head children, around⟩ ∧
        f.HasRoomFor [⟨.loop head children, around⟩] := by
  have hroom := hf.hasRoomFor_iff (x := ⟨.loop head children, around⟩) (k := .loop)
    fun k => by cases k <;> rfl
  have hcollection (hout : sc.loop = none) : (∃ c, sc.loopCollection head = some c) ↔
      head.collection.isSome ∨ ∃ n ∈ around, n.subject?.isSome := by
    rw [← hsc.collection hout, Scope.loopCollection, ← Option.isSome_iff_exists]
    simp
  have hroute (r : String) : (∃ fullRoute, loopRoute sc r head = .ok fullRoute) ↔
      (head.isInner = true → Site.LiesIn ⟨.loop head children, around⟩ .topic) := by
    rw [exists_loopRoute, hsc.topic]
    rfl
  rw [hroom]
  simp only [addLoop_eq_ok, loop?_eq_none, Site.IsFit, Site.IsPlaced, Node.kind?,
    ← hsc.exists_subcategory, ← hsc.loop_eq_none]
  constructor
  · rintro ⟨g, r, c, fullRoute, hr, hout, hfresh, hc, hfull, -⟩
    have hgiven := (hcollection hout).mp ⟨c, hc⟩
    have hinner := (hroute r).mp ⟨fullRoute, hfull⟩
    exact ⟨⟨⟨r, hr⟩, hout, hgiven, hinner⟩, hfresh⟩
  · rintro ⟨⟨⟨r, hr⟩, hout, hgiven, hinner⟩, hfresh⟩
    obtain ⟨c, hc⟩ := (hcollection hout).mpr hgiven
    obtain ⟨fullRoute, hfull⟩ := (hroute r).mpr hinner
    exact ⟨_, r, c, fullRoute, hr, hout, hfresh, hc, hfull, rfl⟩

theorem addScreen_iff (head : ScreenHead) :
    (∃ g, f.addScreen sc head = .ok g) ↔
      Site.IsFit f.batches ⟨.screen head, around⟩ ∧ f.HasRoomFor [⟨.screen head, around⟩] := by
  have hroom := hf.hasRoomFor_iff (x := ⟨.screen head, around⟩) (k := .screen)
    fun k => by cases k <;> rfl
  have htopic : sc.topic.isSome ↔ Site.LiesIn ⟨.screen head, around⟩ .topic := hsc.topic
  rw [hroom, ← hsc.subcategory]
  simp only [addScreen_eq_ok, screen?_eq_none, Screen.check_eq_ok, Screen.checkBatches_eq_ok,
    Site.IsFit, Site.IsPlaced, Node.kind?, ← hsc.exists_subcategory]
  constructor
  · rintro ⟨g, r, hr, hfresh, hbatches, ⟨hheadings, hexit, hfields⟩, -⟩
    rw [hr]
    exact ⟨⟨⟨r, rfl⟩, hheadings, hexit, fun h => htopic.mp (hfields h), hbatches⟩, hfresh⟩
  · rintro ⟨⟨⟨r, hr⟩, hscreen⟩, hfresh⟩
    rw [hr] at hfresh
    exact ⟨_, r, hr, hfresh, hscreen.batches,
      ⟨hscreen.headings, hscreen.exit, fun h => htopic.mpr (hscreen.fields h)⟩, rfl⟩

theorem addAssertion_iff (head : AssertionHead) :
    (∃ g, f.addAssertion sc head = .ok g) ↔
      Site.IsFit f.batches ⟨.assertion head, around⟩ ∧
        f.HasRoomFor [⟨.assertion head, around⟩] := by
  have hroom : f.HasRoomFor [⟨.assertion head, around⟩] :=
    hf.hasRoomFor_of_none fun k => by cases k <;> rfl
  simp only [addAssertion_eq_ok, hroom, and_true, Site.IsFit, Site.IsPlaced, Node.kind?,
    ← hsc.exists_subcategory]
  constructor
  · rintro ⟨g, r, hr, -⟩
    exact ⟨r, hr⟩
  · rintro ⟨r, hr⟩
    exact ⟨_, r, hr, rfl⟩

/-- The opening of a node is taken if and only if the node is fit for its place and its route or
name is not taken yet. -/
theorem opens_iff (n : Node) : (∃ g, (n.opening sc).foldlM add f = .ok g) ↔
    Site.IsFit f.batches ⟨n, around⟩ ∧ f.HasRoomFor [⟨n, around⟩] := by
  cases n with
  | category route children =>
    rw [Node.opening, foldlM_singleton]
    exact addCategory_iff hf hsc route children
  | subcategory head children =>
    rw [Node.opening, foldlM_singleton]
    exact addSubcategory_iff hf hsc head children
  | topic route children =>
    rw [Node.opening, foldlM_singleton]
    exact addTopic_iff hf hsc route children
  | loop head children =>
    rw [Node.opening, foldlM_singleton]
    exact addLoop_iff hf hsc head children
  | gate condition children =>
    have hroom : f.HasRoomFor [⟨.gate condition children, around⟩] :=
      hf.hasRoomFor_of_none fun k => by cases k <;> rfl
    simp [Node.opening, hroom, pure_eq_ok, Site.IsFit, Site.IsPlaced, Node.kind?]
  | screen head =>
    rw [Node.opening, foldlM_singleton]
    exact addScreen_iff hf hsc head
  | assertion head =>
    rw [Node.opening, foldlM_singleton]
    exact addAssertion_iff hf hsc head

end

/-- What the opening of a node adds to the routes and names. -/
theorem takesNames_of_opening (hsc : sc.Matches around) (n : Node)
    (hopen : (n.opening sc).foldlM add f = .ok g) : f.TakesNames g [⟨n, around⟩] := by
  cases n with
  | category route children =>
    rw [Node.opening, foldlM_singleton] at hopen
    obtain ⟨-, rfl⟩ := addCategory_eq_ok.mp hopen
    intro k
    cases k <;> exact (List.append_nil _).symm
  | subcategory head children =>
    rw [Node.opening, foldlM_singleton] at hopen
    obtain ⟨c, hc, -, -, rfl⟩ := addSubcategory_eq_ok.mp hopen
    have hroute : some c = categoryAround around := hc.symm.trans hsc.category
    intro k
    cases k <;> simp [names, Naming.ofSite?, Site.subcategoryRoute?, Site.screenRoute?,
      Site.loopName?, ← hroute, Subcategory.place, Scope.below, loops]
  | topic route children =>
    rw [Node.opening, foldlM_singleton] at hopen
    obtain ⟨r, hr, rfl⟩ := addTopic_eq_ok.mp hopen
    intro k
    split
    · cases k <;> exact (List.append_nil _).symm
    · cases k <;> simp [names, Naming.ofSite?, Site.subcategoryRoute?, Site.screenRoute?,
        Site.loopName?]
  | loop head children =>
    rw [Node.opening, foldlM_singleton] at hopen
    obtain ⟨r, c, fullRoute, -, -, -, -, -, rfl⟩ := addLoop_eq_ok.mp hopen
    intro k
    cases k <;> simp [names, Naming.ofSite?, Site.subcategoryRoute?, Site.screenRoute?,
      Site.loopName?, Loop.place]
  | gate condition children =>
    obtain rfl := pure_eq_ok.mp hopen
    intro k
    cases k <;> exact (List.append_nil _).symm
  | screen head =>
    rw [Node.opening, foldlM_singleton] at hopen
    obtain ⟨r, hr, -, -, -, rfl⟩ := addScreen_eq_ok.mp hopen
    have hroute : some r = subcategoryAround around := hr.symm.trans hsc.subcategory
    intro k
    cases k <;> simp [names, Naming.ofSite?, Site.subcategoryRoute?, Site.screenRoute?,
      Site.loopName?, ← hroute, Screen.place, Scope.below, loops]
  | assertion head =>
    rw [Node.opening, foldlM_singleton] at hopen
    obtain ⟨r, -, rfl⟩ := addAssertion_eq_ok.mp hopen
    intro k
    cases k <;> exact (List.append_nil _).symm

/-! ## A node and what is below it -/

/-- What is kept by building holds of the children of a node whose opening has been taken. -/
theorem Kept.of_opening {P : Scope → Flow → Prop} (hP : Kept P) (hf : P sc f) (n : Node)
    (hopen : (n.opening sc).foldlM add f = .ok g) : P (sc.enter n) g := by
  cases n with
  | category route children =>
    rw [Node.opening, foldlM_singleton] at hopen
    exact hP.category hf hopen
  | subcategory head children =>
    rw [Node.opening, foldlM_singleton] at hopen
    exact hP.subcategory hf hopen
  | topic route children =>
    rw [Node.opening, foldlM_singleton] at hopen
    exact hP.topic hf hopen
  | loop head children =>
    rw [Node.opening, foldlM_singleton] at hopen
    exact hP.loop hf hopen
  | gate condition children =>
    obtain rfl := pure_eq_ok.mp hopen
    exact hP.gate hf
  | screen head =>
    rw [Node.opening, foldlM_singleton] at hopen
    exact hP.screen hf hopen
  | assertion head =>
    rw [Node.opening, foldlM_singleton] at hopen
    exact hP.assertion hf hopen

/-- The closing of a node adds nothing. -/
theorem eq_of_closing {n : Node} (hclose : (n.closing sc).foldlM add f = .ok g) : g = f := by
  cases n with
  | loop head children =>
    rw [Node.closing, foldlM_singleton] at hclose
    exact (endLoop_eq_ok.mp hclose).2
  | category | subcategory | topic | gate | screen | assertion => exact pure_eq_ok.mp hclose

/-- The steps by which a node is taken: its opening, its children and its closing. -/
theorem takes_node_iff {n : Node} : (n.entries sc).foldlM add f = .ok g ↔
    ∃ f₁, (n.opening sc).foldlM add f = .ok f₁ ∧
      (Node.allEntries (sc.enter n) n.children).foldlM add f₁ = .ok g ∧
      (n.closing sc).foldlM add g = .ok g := by
  rw [Node.entries_eq, List.foldlM_append, bind_eq_ok]
  refine exists_congr fun f₁ => and_congr_right fun _ => ?_
  rw [List.foldlM_append, bind_eq_ok]
  constructor
  · rintro ⟨f₂, hchildren, hclose⟩
    obtain rfl := eq_of_closing hclose
    exact ⟨hchildren, hclose⟩
  · rintro ⟨hchildren, hclose⟩
    exact ⟨g, hchildren, hclose⟩

/-- Nodes are taken one after the other. -/
theorem takes_cons_iff {n : Node} {ns : List Node} :
    (Node.allEntries sc (n :: ns)).foldlM add f = .ok g ↔
      ∃ f₁, (n.entries sc).foldlM add f = .ok f₁ ∧
        (Node.allEntries sc ns).foldlM add f₁ = .ok g := by
  rw [Node.allEntries, List.foldlM_append]
  exact bind_eq_ok

/-- What nodes add to the routes and names. -/
theorem takesNames_of_nodes {ns : List Node} (hsc : sc.Matches around)
    (htakes : (Node.allEntries sc ns).foldlM add f = .ok g) :
    f.TakesNames g (Node.allSites around ns) := by
  induction ns using Node.nodes_induction generalizing sc f g around with
  | nil =>
    obtain rfl := pure_eq_ok.mp htakes
    intro k
    exact (List.append_nil _).symm
  | cons n ns children rest =>
    obtain ⟨f₂, hfirst, hrest⟩ := takes_cons_iff.mp htakes
    obtain ⟨f₁, hopen, hchildren, -⟩ := takes_node_iff.mp hfirst
    rw [Node.allSites, Node.sites_eq]
    have hnode := (takesNames_of_opening hsc n hopen).trans (children (hsc.enter n) hchildren)
    exact hnode.trans (rest hsc hrest)

/-- Within a loop, the screens that are taken belong to it. -/
theorem exists_screen_of_nodes {ns : List Node} {m : LoopMembership} (hm : sc.loop = some m)
    (htakes : (Node.allEntries sc ns).foldlM add f = .ok g)
    (hbelow : ∃ y ∈ Node.allSites [] ns, y.node.kind? = some .screen) :
    ∃ s ∈ g.screens, s.loopName = some m.name := by
  induction ns using Node.nodes_induction generalizing sc f g with
  | nil =>
    obtain ⟨y, hy, -⟩ := hbelow
    exact absurd hy List.not_mem_nil
  | cons n ns children rest =>
    obtain ⟨f₂, hfirst, hrest⟩ := takes_cons_iff.mp htakes
    obtain ⟨y, hy, hscreen⟩ := hbelow
    rcases List.mem_append.mp hy with hy | hy
    · -- the screen is the node or below it
      suffices ∃ s ∈ f₂.screens, s.loopName = some m.name by
        obtain ⟨s, hs, hname⟩ := this
        exact ⟨s, (growsTo_of_foldlM hrest).screens.subset hs, hname⟩
      obtain ⟨f₁, hopen, hchildren, -⟩ := takes_node_iff.mp hfirst
      rw [Node.sites_eq] at hy
      cases n with
      | screen head =>
        rw [Node.opening, foldlM_singleton] at hopen
        obtain ⟨r, -, -, -, -, rfl⟩ := addScreen_eq_ok.mp hopen
        obtain rfl := pure_eq_ok.mp hchildren
        refine ⟨_, List.mem_append_right _ (List.mem_singleton_self _), ?_⟩
        rw [loopName_place, hm]
        rfl
      | loop head below =>
        -- there is no loop within a loop
        rw [Node.opening, foldlM_singleton] at hopen
        obtain ⟨r, c, fullRoute, -, hnone, -⟩ := addLoop_eq_ok.mp hopen
        rw [hm] at hnone
        cases hnone
      | category | subcategory | topic | gate | assertion =>
        rcases List.mem_cons.mp hy with rfl | hy
        · simp [Node.kind?] at hscreen
        · have hscreens := (Node.exists_mem_allSites _ _ _).mp ⟨y, hy, hscreen⟩
          refine children ?_ hchildren hscreens
          exact hm
    · exact rest hm hrest ⟨y, hy, hscreen⟩

/-- Where there is no screen, none is taken. -/
theorem screens_eq_of_nodes {ns : List Node} (hsc : sc.Matches around)
    (htakes : (Node.allEntries sc ns).foldlM add f = .ok g)
    (hnone : ∀ y ∈ Node.allSites around ns, y.node.kind? ≠ some .screen) :
    g.screens = f.screens := by
  have hnames := takesNames_of_nodes hsc htakes .screen
  have hnil : (Node.allSites around ns).filterMap Site.screenRoute? = [] := by
    refine List.filterMap_eq_nil_iff.mpr fun y hy => ?_
    obtain ⟨n, around'⟩ := y
    cases n with
    | screen head => exact absurd rfl (hnone _ hy)
    | category | subcategory | topic | loop | gate | assertion => rfl
  simp only [names, Naming.ofSite?, hnil, List.append_nil] at hnames
  have hlength : f.screens.length = g.screens.length := by
    simpa using (congrArg List.length hnames).symm
  exact ((growsTo_of_foldlM htakes).screens.eq_of_length hlength).symm

/-- The closing of a node is taken if and only if, for a loop, there is a screen below it. -/
theorem closes_iff {n : Node} {f₁ : Flow} (hf : f.Arranged) (hsc : sc.Matches around)
    (hopen : (n.opening sc).foldlM add f = .ok f₁)
    (hchildren : (Node.allEntries (sc.enter n) n.children).foldlM add f₁ = .ok g) :
    (n.closing sc).foldlM add g = .ok g ↔ (n.kind? = some .loop →
      ∃ y ∈ Node.allSites [] n.children, y.node.kind? = some .screen) := by
  cases n with
  | loop head children =>
    rw [Node.closing, foldlM_singleton, add, endLoop_eq_ok]
    constructor
    · rintro ⟨⟨s, hs, hname⟩, -⟩ -
      by_contra hnone
      -- without a screen below, it would have been there before the loop, whose name is new
      have hsame : g.screens = f₁.screens := by
        refine screens_eq_of_nodes (hsc.enter (.loop head children)) hchildren fun y hy hy' => ?_
        exact hnone ((Node.exists_mem_allSites _ _ _).mp ⟨y, hy, hy'⟩)
      rw [Node.opening, foldlM_singleton] at hopen
      obtain ⟨r, c, fullRoute, -, -, hfresh, -, -, rfl⟩ := addLoop_eq_ok.mp hopen
      rw [hsame] at hs
      obtain ⟨m, hm, hmname⟩ := Option.map_eq_some_iff.mp hname
      obtain ⟨l, hl, rfl, -⟩ := hf.member s hs m hm
      exact loop?_eq_none.mp hfresh (List.mem_map.mpr ⟨l, hl, hmname⟩)
    · intro hscreen
      have hloop : (sc.enter (.loop head children)).loop =
          some ⟨head.name, head.autoIterates, head.isInner⟩ := rfl
      exact ⟨exists_screen_of_nodes hloop hchildren (hscreen rfl), rfl⟩
  | category | subcategory | topic | gate | screen | assertion =>
    simp [Node.closing, Node.kind?, pure_eq_ok]

/-- A node and what is below it are taken if and only if all these nodes are sound in their places
and no route or name occurs twice, once this is known of what is below it. -/
theorem exists_takes_node_iff {n : Node} (hf : f.Arranged) (hopen : sc.IsOpen f)
    (hsc : sc.Matches around)
    (hbelow : ∀ {f₁ : Flow}, f₁.Arranged → (sc.enter n).IsOpen f₁ →
      ((∃ g, (Node.allEntries (sc.enter n) n.children).foldlM add f₁ = .ok g) ↔
        (∀ x ∈ Node.allSites (n :: around) n.children, x.IsSound f₁.batches) ∧
          f₁.HasRoomFor (Node.allSites (n :: around) n.children))) :
    (∃ g, (n.entries sc).foldlM add f = .ok g) ↔
      (∀ x ∈ n.sites around, x.IsSound f.batches) ∧ f.HasRoomFor (n.sites around) := by
  rw [Node.sites_eq]
  constructor
  · rintro ⟨g, htakes⟩
    obtain ⟨f₁, hopening, hchildren, hclosing⟩ := takes_node_iff.mp htakes
    obtain ⟨hfit, -⟩ := (opens_iff hf hsc n).mp ⟨f₁, hopening⟩
    obtain ⟨hf₁, hopen₁⟩ := kept_arranged.of_opening ⟨hf, hopen⟩ n hopening
    obtain ⟨hsound, hroom⟩ := (hbelow hf₁ hopen₁).mp ⟨g, hchildren⟩
    have hscreen := (closes_iff hf hsc hopening hchildren).mp hclosing
    have hself := Site.isSound_iff.mpr ⟨hfit, hscreen⟩
    rw [← (growsTo_of_foldlM hopening).batches] at hsound
    refine ⟨List.forall_mem_cons.mpr ⟨hself, hsound⟩, ?_⟩
    exact (takesNames_of_opening hsc n hopening).hasRoomFor_iff.mp hroom
  · rintro ⟨hsound, hroom⟩
    obtain ⟨hself, hrest⟩ := List.forall_mem_cons.mp hsound
    obtain ⟨hfit, hscreen⟩ := Site.isSound_iff.mp hself
    rw [← List.singleton_append] at hroom
    obtain ⟨f₁, hopening⟩ := (opens_iff hf hsc n).mpr ⟨hfit, hroom.left⟩
    obtain ⟨hf₁, hopen₁⟩ := kept_arranged.of_opening ⟨hf, hopen⟩ n hopening
    rw [(growsTo_of_foldlM hopening).batches] at hrest
    have hroom₁ := (takesNames_of_opening hsc n hopening).hasRoomFor_iff.mpr hroom
    obtain ⟨g, hchildren⟩ := (hbelow hf₁ hopen₁).mpr ⟨hrest, hroom₁⟩
    have hclosing := (closes_iff hf hsc hopening hchildren).mpr hscreen
    exact ⟨g, takes_node_iff.mpr ⟨f₁, hopening, hchildren, hclosing⟩⟩

/-- **Nodes and what is below them are taken** if and only if all these nodes are sound in their
places and no route or name occurs twice. -/
theorem exists_takes_iff {ns : List Node} (hf : f.Arranged) (hopen : sc.IsOpen f)
    (hsc : sc.Matches around) :
    (∃ g, (Node.allEntries sc ns).foldlM add f = .ok g) ↔
      (∀ x ∈ Node.allSites around ns, x.IsSound f.batches) ∧
        f.HasRoomFor (Node.allSites around ns) := by
  induction ns using Node.nodes_induction generalizing sc f around with
  | nil =>
    have hnil : (Node.allEntries sc []).foldlM add f = .ok f := rfl
    exact iff_of_true ⟨f, hnil⟩ ⟨by simp [Node.allSites], hf.hasRoomFor_nil⟩
  | cons n ns children rest =>
    have hnode := exists_takes_node_iff hf hopen hsc (n := n)
      fun hf₁ hopen₁ => children hf₁ hopen₁ (hsc.enter n)
    have hnames {g : Flow} (hfirst : (n.entries sc).foldlM add f = .ok g) :
        f.TakesNames g (n.sites around) := by
      obtain ⟨f₁, hopening, hchildren, -⟩ := takes_node_iff.mp hfirst
      rw [Node.sites_eq]
      exact (takesNames_of_opening hsc n hopening).trans
        (takesNames_of_nodes (hsc.enter n) hchildren)
    rw [Node.allEntries, Node.allSites, List.foldlM_append]
    constructor
    · rintro ⟨h, htakes⟩
      obtain ⟨g, hfirst, hrest⟩ := bind_eq_ok.mp htakes
      obtain ⟨hg, hopen'⟩ := kept_arranged.of_node n ⟨hf, hopen⟩ hfirst
      obtain ⟨hsound, -⟩ := hnode.mp ⟨g, hfirst⟩
      obtain ⟨hsounds, hroom⟩ := (rest hg hopen' hsc).mp ⟨h, hrest⟩
      rw [← (growsTo_of_foldlM hfirst).batches] at hsounds
      refine ⟨List.forall_mem_append.mpr ⟨hsound, hsounds⟩, ?_⟩
      exact (hnames hfirst).hasRoomFor_iff.mp hroom
    · rintro ⟨hsound, hroom⟩
      obtain ⟨hself, hsounds⟩ := List.forall_mem_append.mp hsound
      obtain ⟨g, hfirst⟩ := hnode.mpr ⟨hself, hroom.left⟩
      obtain ⟨hg, hopen'⟩ := kept_arranged.of_node n ⟨hf, hopen⟩ hfirst
      rw [(growsTo_of_foldlM hfirst).batches] at hsounds
      have hroom' := (hnames hfirst).hasRoomFor_iff.mpr hroom
      obtain ⟨h, hrest⟩ := (rest hg hopen' hsc).mpr ⟨hsounds, hroom'⟩
      exact ⟨h, bind_eq_ok.mpr ⟨g, hfirst, hrest⟩⟩

/-! ## The whole outline -/

theorem isWellFormed_iff {o : Outline} : o.IsWellFormed ↔
    ((∀ x ∈ o.sites, x.IsSound o.batches) ∧ (empty o.batches).HasRoomFor o.sites) ∧
      ∃ x ∈ o.sites, x.node.kind? = some .screen := by
  constructor
  · intro h
    refine ⟨⟨fun x hx => ⟨h.placed x hx, h.loops x hx, h.screens x hx⟩, fun k => ?_⟩, h.nonempty⟩
    cases k with
    | subcategory => exact h.subcategoryRoutes
    | screen => exact h.screenRoutes
    | loop => exact h.loopNames
  · rintro ⟨⟨hsound, hroom⟩, hscreen⟩
    exact {
      placed := fun x hx => (hsound x hx).placed
      subcategoryRoutes := hroom .subcategory
      screenRoutes := hroom .screen
      loopNames := hroom .loop
      loops := fun x hx => (hsound x hx).loop
      screens := fun x hx => (hsound x hx).screen
      nonempty := hscreen }

/-- A flow has screens if there are some in the outline. -/
theorem screens_ne_nil_iff {o : Outline} (htakes : o.entries.foldlM add (empty o.batches) = .ok f) :
    f.screens ≠ [] ↔ ∃ x ∈ o.sites, x.node.kind? = some .screen := by
  constructor
  · intro hscreens
    by_contra hnone
    refine hscreens (screens_eq_of_nodes Scope.Matches.outermost htakes fun x hx hx' => ?_)
    exact hnone ⟨x, hx, hx'⟩
  · rintro ⟨⟨n, around⟩, hx, hscreen⟩ hnil
    have hnames : f.names .screen = o.sites.filterMap Site.screenRoute? :=
      takesNames_of_nodes Scope.Matches.outermost htakes .screen
    have hempty : o.sites.filterMap Site.screenRoute? = [] := by
      rw [← hnames, names, hnil, List.map_nil]
    cases n with
    | screen head =>
      have hnone := List.filterMap_eq_nil_iff.mp hempty _ hx
      simp [Site.screenRoute?] at hnone
    | category | subcategory | topic | loop | gate | assertion => simp [Node.kind?] at hscreen

/-- A flow is built from the well-formed outlines and from no others. -/
theorem exists_build_iff (o : Outline) : (∃ f, build o = .ok f) ↔ o.IsWellFormed := by
  have htakes : (∃ f, o.entries.foldlM add (empty o.batches) = .ok f) ↔ _ :=
    exists_takes_iff (arranged_empty o.batches) (isOpen_outermost _) Scope.Matches.outermost
  rw [isWellFormed_iff]
  constructor
  · rintro ⟨f, hf⟩
    obtain ⟨hfold, hne⟩ := build_eq_ok.mp hf
    exact ⟨htakes.mp ⟨f, hfold⟩, (screens_ne_nil_iff hfold).mp hne⟩
  · rintro ⟨hsound, hscreen⟩
    obtain ⟨f, hfold⟩ := htakes.mpr hsound
    exact ⟨f, build_eq_ok.mpr ⟨hfold, (screens_ne_nil_iff hfold).mpr hscreen⟩⟩

end Flow

/-- **A graph is built from the well-formed outlines and from no others.** From the others there is
a defect and no graph. -/
theorem Graph.build_iff_isWellFormed (o : Outline) :
    ((∃ G, Graph.build o = .ok G) ↔ o.IsWellFormed) ∧
      ((∃ e, Graph.build o = .error e) ↔ ¬ o.IsWellFormed) := by
  have hbuild : (∃ G, Graph.build o = .ok G) ↔ o.IsWellFormed := by
    rw [← Flow.exists_build_iff o]
    constructor
    · rintro ⟨G, hG⟩
      obtain ⟨f, hf, -⟩ := Graph.build_eq_ok.mp hG
      exact ⟨f, hf⟩
    · rintro ⟨f, hf⟩
      exact ⟨f.graph, Graph.build_eq_ok.mpr ⟨f, hf, rfl⟩⟩
  refine ⟨hbuild, ?_⟩
  rw [← hbuild]
  cases Graph.build o with
  | ok G => simp
  | error e => simp

end Interview

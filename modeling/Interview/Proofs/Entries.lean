import Interview.Proofs.WellFormed

/-!
# What entries add

An entry that is taken adds its part to the end of a list of the flow (`Flow.Adds`). What the part
is can be said of the entry alone, except that a subcategory belongs to the category taken last, and
that a topic is left out if it is known already. So the screens, loops and assertions of a flow are
those of its entries (`Flow.screens_of_foldlM` and the like).
-/

namespace Interview

namespace Entry

/-- The category of an entry. -/
def category? (e : Entry) : Option Category :=
  match e.item with
  | .category route => some ⟨Scope.categoryRoute route⟩
  | _ => none

/-- The subcategory of an entry, in the category at a position. -/
def subcategory? (category : Nat) (e : Entry) : Option Subcategory :=
  match e.item with
  | .subcategory head => some (.place category (e.scope.category.getD "") head)
  | _ => none

/-- The topic of an entry. -/
def topic? (e : Entry) : Option Topic :=
  match e.item with
  | .topic route => some (.place e.scope (e.scope.subcategory.getD "") route)
  | _ => none

/-- The loop of an entry. An inner one returns to its topic. -/
def loop? (e : Entry) : Option Loop :=
  match e.item with
  | .loop head => some (.place (e.scope.subcategory.getD "")
      ((if head.isInner then e.scope.topic else e.scope.subcategory).getD "")
      ((e.scope.loopCollection head).getD "") head)
  | _ => none

/-- The screen of an entry. -/
def screen? (e : Entry) : Option Screen :=
  match e.item with
  | .screen head => some (.place e.scope (e.scope.subcategory.getD "") head)
  | _ => none

/-- The assertion of an entry. -/
def assertion? (e : Entry) : Option Assertion :=
  match e.item with
  | .assertion head => some (.place e.scope (e.scope.subcategory.getD "") head)
  | _ => none

end Entry

namespace Flow

variable {f g : Flow} {e : Entry} {es : List Entry}

/-- What an entry adds to the lists of a flow. -/
structure Adds (f : Flow) (e : Entry) (g : Flow) : Prop where
  categories : g.categories = f.categories ++ e.category?.toList
  /-- The category is the one taken last. -/
  subcategories : g.subcategories =
    f.subcategories ++ (e.subcategory? (f.categories.length - 1)).toList
  /-- A topic that is known already is not added again. -/
  topics : g.topics = f.topics ++
    (e.topic?.filter fun t => (f.topic? t.fullRoute).isNone).toList
  loops : g.loops = f.loops ++ e.loop?.toList
  screens : g.screens = f.screens ++ e.screen?.toList
  assertions : g.assertions = f.assertions ++ e.assertion?.toList

theorem loopRoute_eq_ok {sc : Scope} {r fullRoute : String} {head : LoopHead}
    (hroute : loopRoute sc r head = .ok fullRoute) :
    some fullRoute = if head.isInner then sc.topic else some r := by
  unfold loopRoute at hroute
  cases hinner : head.isInner with
  | false =>
    rw [hinner] at hroute
    exact congrArg some (pure_eq_ok.mp hroute)
  | true =>
    rw [hinner] at hroute
    cases htopic : sc.topic with
    | none => simp [htopic, throw_ne_ok] at hroute
    | some t =>
      rw [htopic] at hroute
      exact congrArg some (pure_eq_ok.mp hroute)

/-- Each entry that is taken adds its part. -/
theorem adds_of_add (hadd : f.add e = .ok g) : f.Adds e g := by
  obtain ⟨sc, item⟩ := e
  cases item with
  | category route =>
    obtain ⟨-, rfl⟩ := addCategory_eq_ok.mp hadd
    constructor <;> simp [Entry.category?, Entry.subcategory?, Entry.topic?, Entry.loop?,
      Entry.screen?, Entry.assertion?, topics, loops]
  | subcategory head =>
    obtain ⟨c, hc, -, -, rfl⟩ := addSubcategory_eq_ok.mp hadd
    constructor <;> simp [Entry.category?, Entry.subcategory?, Entry.topic?, Entry.loop?,
      Entry.screen?, Entry.assertion?, topics, loops, show sc.category = some c from hc]
  | topic route =>
    obtain ⟨r, hr, rfl⟩ := addTopic_eq_ok.mp hadd
    have hsub : sc.subcategory = some r := hr
    have hplace : (Topic.place sc r route).fullRoute = Scope.below (some r) route := rfl
    -- whether the topic is known decides about the list of topics alone
    cases hknown : f.topic? (Scope.below (some r) route) with
    | some t => constructor <;> simp [Entry.category?, Entry.subcategory?, Entry.topic?,
        Entry.loop?, Entry.screen?, Entry.assertion?, hsub, hplace, hknown, Option.filter]
    | none => constructor <;> simp [Entry.category?, Entry.subcategory?, Entry.topic?,
        Entry.loop?, Entry.screen?, Entry.assertion?, hsub, hplace, hknown, Option.filter]
  | loop head =>
    obtain ⟨r, c, fullRoute, hr, -, -, hc, hroute, rfl⟩ := addLoop_eq_ok.mp hadd
    have hsub : sc.subcategory = some r := hr
    have hback : (if head.isInner then sc.topic else some r) = some fullRoute :=
      (loopRoute_eq_ok hroute).symm
    constructor <;> simp [Entry.category?, Entry.subcategory?, Entry.topic?, Entry.loop?,
      Entry.screen?, Entry.assertion?, hsub, hback, show sc.loopCollection head = some c from hc]
  | loopEnd name =>
    obtain ⟨-, rfl⟩ := endLoop_eq_ok.mp hadd
    constructor <;> simp [Entry.category?, Entry.subcategory?, Entry.topic?, Entry.loop?,
      Entry.screen?, Entry.assertion?]
  | screen head =>
    obtain ⟨r, hr, -, -, -, rfl⟩ := addScreen_eq_ok.mp hadd
    constructor <;> simp [Entry.category?, Entry.subcategory?, Entry.topic?, Entry.loop?,
      Entry.screen?, Entry.assertion?, topics, loops, show sc.subcategory = some r from hr]
  | assertion head =>
    obtain ⟨r, hr, rfl⟩ := addAssertion_eq_ok.mp hadd
    constructor <;> simp [Entry.category?, Entry.subcategory?, Entry.topic?, Entry.loop?,
      Entry.screen?, Entry.assertion?, topics, loops, show sc.subcategory = some r from hr]

/-- The screen of an entry names the subcategory around. -/
theorem subcategory_of_screen? (hadd : f.add e = .ok g) {s : Screen} (hs : e.screen? = some s) :
    e.scope.subcategory = some s.subcategoryRoute := by
  obtain ⟨sc, item⟩ := e
  cases item with
  | screen head =>
    obtain ⟨r, hr, -⟩ := addScreen_eq_ok.mp hadd
    have hsub : sc.subcategory = some r := hr
    obtain rfl := Option.some.inj hs
    simp [Screen.place, hsub]
  | category | subcategory | topic | loop | loopEnd | assertion => cases hs

/-- The loop of an entry names the subcategory around. -/
theorem subcategory_of_loop? (hadd : f.add e = .ok g) {l : Loop} (hl : e.loop? = some l) :
    e.scope.subcategory = some l.subcategoryRoute := by
  obtain ⟨sc, item⟩ := e
  cases item with
  | loop head =>
    obtain ⟨r, c, fullRoute, hr, -⟩ := addLoop_eq_ok.mp hadd
    have hsub : sc.subcategory = some r := hr
    obtain rfl := Option.some.inj hl
    simp [Loop.place, hsub]
  | category | subcategory | topic | loopEnd | screen | assertion => cases hl

/-! ## Several entries -/

/-- If each entry adds its part to the end of a list, several entries add theirs in order. -/
theorem list_of_foldlM {β : Type} {list : Flow → List β} {part? : Entry → Option β}
    (hpart : ∀ {f g : Flow} {e : Entry}, f.Adds e g → list g = list f ++ (part? e).toList)
    (hfold : es.foldlM add f = .ok g) : list g = list f ++ es.filterMap part? := by
  induction es generalizing f with
  | nil =>
    obtain rfl := pure_eq_ok.mp hfold
    exact (List.append_nil _).symm
  | cons e es ih =>
    obtain ⟨f', hadd, hrest⟩ := bind_eq_ok.mp hfold
    rw [ih hrest, hpart (adds_of_add hadd), List.append_assoc, List.filterMap_cons]
    cases part? e <;> rfl

theorem screens_of_foldlM (hfold : es.foldlM add f = .ok g) :
    g.screens = f.screens ++ es.filterMap Entry.screen? :=
  list_of_foldlM (fun h => h.screens) hfold

theorem loops_of_foldlM (hfold : es.foldlM add f = .ok g) :
    g.loops = f.loops ++ es.filterMap Entry.loop? :=
  list_of_foldlM (fun h => h.loops) hfold

theorem assertions_of_foldlM (hfold : es.foldlM add f = .ok g) :
    g.assertions = f.assertions ++ es.filterMap Entry.assertion? :=
  list_of_foldlM (fun h => h.assertions) hfold

/-- A topic is known before an entry is taken, or it is that of the entry. -/
theorem Adds.mem_topics (h : f.Adds e g) {t : Topic} (ht : t ∈ g.topics) :
    t ∈ f.topics ∨ e.topic? = some t := by
  rw [h.topics, List.mem_append] at ht
  rcases ht with hknown | hadded
  · exact .inl hknown
  · exact .inr (Option.filter_eq_some_iff.mp (Option.mem_toList.mp hadded)).1

/-- After the entry of a topic, one with its route is known. -/
theorem Adds.exists_topic (h : f.Adds e g) {t : Topic} (he : e.topic? = some t) :
    ∃ u ∈ g.topics, u.fullRoute = t.fullRoute ∧ (u ∈ f.topics ∨ u = t) := by
  cases hfind : f.topic? t.fullRoute with
  | some u =>
    have hu : u ∈ f.topics := List.mem_of_find?_eq_some hfind
    have hroute : u.fullRoute = t.fullRoute := by simpa using List.find?_some hfind
    exact ⟨u, h.topics ▸ List.mem_append_left _ hu, hroute, .inl hu⟩
  | none =>
    have hadded : t ∈ g.topics := by simp [h.topics, he, hfind, Option.filter]
    exact ⟨t, hadded, rfl, .inr rfl⟩

/-- A topic that is added is that of the first entry with its route. -/
theorem find?_of_mem_topics (hg : (g.topics.map (·.fullRoute)).Nodup)
    (hfold : es.foldlM add f = .ok g) {t : Topic} (ht : t ∈ g.topics) : t ∈ f.topics ∨
      (es.filterMap Entry.topic?).find? (·.fullRoute = t.fullRoute) = some t := by
  induction es generalizing f with
  | nil =>
    obtain rfl := pure_eq_ok.mp hfold
    exact .inl ht
  | cons e es ih =>
    obtain ⟨f', hadd, hrest⟩ := bind_eq_ok.mp hfold
    have hadds := adds_of_add hadd
    have hlater := ih hrest
    cases he : e.topic? with
    | none =>
      rw [List.filterMap_cons_none he]
      refine hlater.imp_left fun hknown => ?_
      rcases hadds.mem_topics hknown with hbefore | hadded
      · exact hbefore
      · rw [he] at hadded
        cases hadded
    | some d =>
      rw [List.filterMap_cons_some he, List.find?_cons]
      obtain ⟨u, hu, hroute, hsource⟩ := hadds.exists_topic he
      by_cases hsame : d.fullRoute = t.fullRoute
      · -- the topic with this route is known by now, and there is only one
        have hmem : u ∈ g.topics := (growsTo_of_foldlM hrest).topics_subset hu
        obtain rfl := List.inj_on_of_nodup_map hg hmem ht (hroute.trans hsame)
        simp only [hsame, decide_true]
        exact hsource.imp_right fun h => congrArg some h.symm
      · simp only [hsame, decide_false]
        refine hlater.imp_left fun hknown => ?_
        rcases hadds.mem_topics hknown with hbefore | hadded
        · exact hbefore
        · rw [he] at hadded
          exact absurd (congrArg Topic.fullRoute (Option.some.inj hadded)) hsame

/-! ## Scopes of entries -/

variable {sc : Scope} {n : Node} {ns : List Node}

theorem mem_allEntries_cons : e ∈ Node.allEntries sc (n :: ns) ↔
    e ∈ n.opening sc ∨ e ∈ Node.allEntries (sc.enter n) n.children ∨ e ∈ n.closing sc ∨
      e ∈ Node.allEntries sc ns := by
  rw [Node.allEntries, Node.entries_eq]
  simp only [List.mem_append, or_assoc]

theorem scope_of_mem_opening (he : e ∈ n.opening sc) : e.scope = sc := by
  cases n with
  | gate condition children => cases he
  | category | subcategory | topic | loop | screen | assertion => rw [List.mem_singleton.mp he]

theorem scope_of_mem_closing (he : e ∈ n.closing sc) : e.scope = sc := by
  cases n with
  | loop head children => rw [List.mem_singleton.mp he]
  | category | subcategory | topic | gate | screen | assertion => cases he

/-- The only entry of an opening is taken with it. -/
theorem add_of_mem_opening (he : e ∈ n.opening sc)
    (hopening : (n.opening sc).foldlM add f = .ok g) : f.add e = .ok g := by
  cases n with
  | gate condition children => cases he
  | category | subcategory | topic | loop | screen | assertion =>
    rw [List.mem_singleton.mp he, ← foldlM_singleton]
    exact hopening

/-- The only entry of a closing is taken with it. -/
theorem add_of_mem_closing (he : e ∈ n.closing sc)
    (hclosing : (n.closing sc).foldlM add f = .ok g) : f.add e = .ok g := by
  cases n with
  | loop head children =>
    rw [List.mem_singleton.mp he, ← foldlM_singleton]
    exact hclosing
  | category | subcategory | topic | gate | screen | assertion => cases he

/-- What is kept by building holds of every entry when it is taken. -/
theorem Kept.of_mem {P : Scope → Flow → Prop} (hP : Kept P) (hf : P sc f)
    (htakes : (Node.allEntries sc ns).foldlM add f = .ok g) {e : Entry}
    (he : e ∈ Node.allEntries sc ns) :
    ∃ f₁ f₂, P e.scope f₁ ∧ f₁.add e = .ok f₂ ∧ f₂.GrowsTo g := by
  induction ns using Node.nodes_induction generalizing sc f g with
  | nil =>
    rw [Node.allEntries] at he
    cases he
  | cons n ns children rest =>
    obtain ⟨f₂, hfirst, hrest⟩ := takes_cons_iff.mp htakes
    obtain ⟨f₁, hopening, hchildren, hclosing⟩ := takes_node_iff.mp hfirst
    have hinside := growsTo_of_foldlM hchildren
    have hafter := growsTo_of_foldlM hrest
    have hf₂ := hP.of_node n hf hfirst
    rcases mem_allEntries_cons.mp he with he | he | he | he
    · rw [scope_of_mem_opening he]
      exact ⟨f, f₁, hf, add_of_mem_opening he hopening, hinside.trans hafter⟩
    · obtain ⟨f', f'', hf', hadd, hgrow⟩ := children (hP.of_opening hf n hopening) hchildren he
      exact ⟨f', f'', hf', hadd, hgrow.trans hafter⟩
    · rw [scope_of_mem_closing he]
      exact ⟨f₂, f₂, hf₂, add_of_mem_closing he hclosing, hafter⟩
    · exact rest hf₂ hrest he

/-- What holds of a scope and goes on to hold below the nodes that are gone into holds of the scopes
of all entries. -/
theorem forall_scope {Q : Scope → Prop} {R : Entry → Prop}
    (henter : ∀ {sc n f g}, Q sc → (∀ e ∈ n.opening sc, R e) →
      (n.opening sc).foldlM add f = .ok g → Q (sc.enter n))
    (hsc : Q sc) (hR : ∀ e ∈ Node.allEntries sc ns, R e)
    (htakes : (Node.allEntries sc ns).foldlM add f = .ok g) :
    ∀ e ∈ Node.allEntries sc ns, Q e.scope := by
  induction ns using Node.nodes_induction generalizing sc f g with
  | nil =>
    intro e he
    rw [Node.allEntries] at he
    cases he
  | cons n ns children rest =>
    intro e he
    obtain ⟨f₂, hfirst, hrest⟩ := takes_cons_iff.mp htakes
    obtain ⟨f₁, hopening, hchildren, -⟩ := takes_node_iff.mp hfirst
    have hinside : Q (sc.enter n) :=
      henter hsc (fun e he => hR e (mem_allEntries_cons.mpr (.inl he))) hopening
    rcases mem_allEntries_cons.mp he with he | he | he | he
    · rw [scope_of_mem_opening he]
      exact hsc
    · exact children hinside
        (fun e he => hR e (mem_allEntries_cons.mpr (.inr (.inl he)))) hchildren e he
    · rw [scope_of_mem_closing he]
      exact hsc
    · exact rest hsc
        (fun e he => hR e (mem_allEntries_cons.mpr (.inr (.inr (.inr he))))) hrest e he

/-- A view of flows that each entry changes in its own way is changed by several entries one after
the other. -/
theorem Kept.foldl_of_nodes {P : Scope → Flow → Prop} (hP : Kept P) {σ : Type} {view : Flow → σ}
    {step : σ → Entry → σ}
    (hstep : ∀ {f g : Flow} {e : Entry}, P e.scope f → f.add e = .ok g → view g = step (view f) e)
    (hf : P sc f) (htakes : (Node.allEntries sc ns).foldlM add f = .ok g) :
    view g = (Node.allEntries sc ns).foldl step (view f) := by
  induction ns using Node.nodes_induction generalizing sc f g with
  | nil =>
    obtain rfl := pure_eq_ok.mp htakes
    rfl
  | cons n ns children rest =>
    obtain ⟨f₂, hfirst, hrest⟩ := takes_cons_iff.mp htakes
    obtain ⟨f₁, hopening, hchildren, hclosing⟩ := takes_node_iff.mp hfirst
    have hf₁ := hP.of_opening hf n hopening
    have hf₂ := hP.of_node n hf hfirst
    have hopened : view f₁ = (n.opening sc).foldl step (view f) := by
      cases n with
      | gate condition below =>
        obtain rfl := pure_eq_ok.mp hopening
        rfl
      | category | subcategory | topic | loop | screen | assertion =>
        exact hstep (e := ⟨sc, _⟩) hf (add_of_mem_opening (List.mem_singleton_self _) hopening)
    have hclosed : view f₂ = (n.closing sc).foldl step (view f₂) := by
      cases n with
      | loop head below =>
        exact hstep (e := ⟨sc, _⟩) hf₂ (add_of_mem_closing (List.mem_singleton_self _) hclosing)
      | category | subcategory | topic | gate | screen | assertion => rfl
    rw [Node.allEntries, Node.entries_eq, List.foldl_append, List.foldl_append, List.foldl_append,
      ← hopened, ← children hf₁ hchildren, ← hclosed]
    exact rest hf₂ hrest

end Flow

end Interview

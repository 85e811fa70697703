import Interview.Flow.Graph
import Interview.Proofs.Arrangement
import Mathlib.Data.List.Induction

/-!
# The graph of a flow

A flow names what a part belongs to, a graph numbers what belongs to a part. `Flow.graph` numbers
the parts of a flow: what belongs to a part has the positions of those that name it. When a part is
added to the flow, the graph changes as the graph builder changes it (`Flow.graph_concat_screen` and
the like), provided that parts are told apart by their keys and that nothing belongs to a part
before it is there.
-/

namespace Interview

open Interview.Graph

/-! ## Tables of positions -/

/-- The table that leads from the keys of some elements to their positions. -/
def indexOn {α : Type} (key : α → String) (xs : List α) : Table Nat :=
  xs.zipIdx.foldl (fun t e => t.insert (key e.1) e.2) .empty

section

variable {α : Type} {key : α → String} {xs : List α} {x : α}

/-- Elements are told apart by keys that are distinct, and so are their positions. -/
theorem position_eq {κ : Type} {key : α → κ} (hdistinct : (xs.map key).Nodup) {i j : Nat} {y : α}
    (hx : xs[i]? = some x) (hy : xs[j]? = some y) (hkey : key x = key y) : i = j := by
  have hlt : i < (xs.map key).length := by simpa using (List.getElem?_eq_some_iff.mp hx).1
  refine (List.getElem?_inj hlt hdistinct).mp ?_
  rw [List.getElem?_map, List.getElem?_map, hx, hy, Option.map_some, Option.map_some, hkey]

theorem indexOn_concat : indexOn key (xs ++ [x]) = (indexOn key xs).insert (key x) xs.length := by
  simp [indexOn, List.zipIdx_append]

/-- The elements that a table of positions leads to. -/
theorem exists_of_get?_indexOn {k : String} {i : Nat} (h : (indexOn key xs).get? k = some i) :
    ∃ x, xs[i]? = some x ∧ key x = k := by
  induction xs using List.reverseRecOn with
  | nil => cases h
  | append_singleton xs x ih =>
    rw [indexOn_concat, Table.get?_insert] at h
    split at h
    · next hk =>
      obtain rfl := Option.some.inj h
      exact ⟨x, by simp, hk.symm⟩
    · obtain ⟨y, hy, hkey⟩ := ih h
      exact ⟨y, by rw [List.getElem?_append_left (List.getElem?_eq_some_iff.mp hy).1, hy], hkey⟩

theorem get?_indexOn_isSome {k : String} :
    ((indexOn key xs).get? k).isSome ↔ ∃ x ∈ xs, key x = k := by
  induction xs using List.reverseRecOn with
  | nil => simp [indexOn]
  | append_singleton xs x ih =>
    rw [indexOn_concat, Table.get?_insert]
    by_cases hk : k = key x
    · simp [hk]
    · have hne : key x ≠ k := fun h => hk h.symm
      simp [hk, hne, ih]

/-- A table of positions knows a key if a search finds it. -/
theorem isSome_get?_indexOn (key : α → String) (xs : List α) (k : String) :
    ((indexOn key xs).get? k).isSome = (xs.find? (key · = k)).isSome := by
  rw [Bool.eq_iff_iff, get?_indexOn_isSome, List.find?_isSome]
  simp

/-- Where keys are distinct, a table of positions leads from each key to its element. -/
theorem get?_indexOn (hdistinct : (xs.map key).Nodup) {k : String} {i : Nat} :
    (indexOn key xs).get? k = some i ↔ ∃ x, xs[i]? = some x ∧ key x = k := by
  constructor
  · exact exists_of_get?_indexOn
  · rintro ⟨x, hx, rfl⟩
    obtain ⟨j, hj⟩ := Option.isSome_iff_exists.mp
      (get?_indexOn_isSome.mpr ⟨x, List.mem_of_getElem? hx, rfl⟩)
    obtain ⟨y, hy, hkey⟩ := exists_of_get?_indexOn hj
    rw [hj, position_eq hdistinct hy hx hkey]

end

/-! ## Lists that are changed in one place -/

/-- A change at the place of one element, where elements are told apart by keys. -/
theorem modify_map {α β κ : Type} {key : α → κ} {old new : α → β} {change : β → β} {xs : List α}
    (hdistinct : (xs.map key).Nodup) {i : Nat} {x : α} (hi : xs[i]? = some x)
    (hat : change (old x) = new x) (helse : ∀ y ∈ xs, key y ≠ key x → old y = new y) :
    (xs.map old).modify i change = xs.map new := by
  refine List.ext_getElem? fun j => ?_
  rw [List.getElem?_modify, List.getElem?_map, List.getElem?_map]
  by_cases hij : i = j
  · subst hij
    simp [hi, hat]
  · cases hj : xs[j]? with
    | none => rfl
    | some y =>
      have hkey : key y ≠ key x := fun heq => hij (position_eq hdistinct hi hj heq.symm)
      simp [hij, helse y (List.mem_of_getElem? hj) hkey]

/-- A number refers to the element with a key, where there is one. -/
inductive Refers {α κ : Type} (key : α → κ) (xs : List α) : Option Nat → Option κ → Prop where
  | none : Refers key xs none none
  | some {i : Nat} {x : α} (h : xs[i]? = some x) : Refers key xs (some i) (some (key x))

namespace Refers

variable {α κ : Type} {key : α → κ} {xs ys : List α} {id : Option Nat} {name : Option κ}

theorem isNone_eq (h : Refers key xs id name) : name.isNone = id.isNone := by
  cases h <;> rfl

theorem eq_none_or_exists (h : Refers key xs id name) : id = Option.none ∧ name = Option.none ∨
    ∃ i x, id = Option.some i ∧ name = Option.some (key x) ∧ xs[i]? = Option.some x := by
  cases h with
  | none => exact .inl ⟨rfl, rfl⟩
  | some h => exact .inr ⟨_, _, rfl, rfl, h⟩

/-- What a number refers to stays when elements are added. -/
theorem of_isPrefix (h : Refers key xs id name) (hgrow : xs <+: ys) : Refers key ys id name := by
  cases h with
  | none => exact .none
  | some h =>
    obtain ⟨rest, rfl⟩ := hgrow
    exact .some (by rw [List.getElem?_append_left (List.getElem?_eq_some_iff.mp h).1, h])

/-- The element added last is referred to by the number of those before. -/
theorem concat (key : α → κ) (xs : List α) (x : α) :
    Refers key (xs ++ [x]) (Option.some xs.length) (Option.some (key x)) :=
  .some (by simp)

/-- A part of the key refers as well. -/
theorem map {ρ : Type} (part : κ → ρ) (h : Refers key xs id name) :
    Refers (fun x => part (key x)) xs id (name.map part) := by
  cases h with
  | none => exact .none
  | some h => exact .some h

/-- The key is found at the number. -/
theorem map_bind {β : Type} {nodes : List β} {nodeKey : β → κ} (h : Refers key xs id name)
    (hnodes : ∀ (i : Nat) (x : α), xs[i]? = Option.some x →
      (nodes[i]?).map nodeKey = Option.some (key x)) :
    (id.bind (nodes[·]?)).map nodeKey = name := by
  cases h with
  | none => rfl
  | some h => exact hnodes _ _ h

end Refers

namespace Flow

variable {f : Flow}

/-! ## Numbers -/

/-- Divisions with their numbers: topics and loops are counted on their own. -/
def numbered : Nat → Nat → List Division → List (Division × Graph.Section)
  | _, _, [] => []
  | topics, loops, .topic t :: rest =>
    (.topic t, .topic topics) :: numbered (topics + 1) loops rest
  | topics, loops, .loop l :: rest => (.loop l, .loop loops) :: numbered topics (loops + 1) rest

theorem numbered_concat (m n : Nat) (ds : List Division) (d : Division) :
    numbered m n (ds ++ [d]) = numbered m n ds ++
      numbered (m + (ds.filterMap Division.topic?).length)
        (n + (ds.filterMap Division.loop?).length) [d] := by
  induction ds generalizing m n with
  | nil => rfl
  | cons e ds ih =>
    cases e with
    | topic t =>
      simp [numbered, ih, List.filterMap_cons, Division.topic?, Division.loop?,
        Nat.add_right_comm m 1, Nat.add_assoc]
    | loop l =>
      simp [numbered, ih, List.filterMap_cons, Division.topic?, Division.loop?,
        Nat.add_right_comm n 1, Nat.add_assoc]

theorem map_fst_numbered (m n : Nat) (ds : List Division) :
    (numbered m n ds).map Prod.fst = ds := by
  induction ds generalizing m n with
  | nil => rfl
  | cons d ds ih =>
    cases d with
    | topic t => exact congrArg (Division.topic t :: ·) (ih (m + 1) n)
    | loop l => exact congrArg (Division.loop l :: ·) (ih m (n + 1))

/-- Whether a division is a section of a subcategory: one that is no part of a loop. -/
def isSectionOf (s : Subcategory) (d : Division) : Bool :=
  d.subcategoryRoute = s.route && d.isOutermost

theorem isSectionOf_topic (s : Subcategory) (t : Topic) :
    isSectionOf s (.topic t) = (decide (t.subcategoryRoute = s.route) && t.loop.isNone) := rfl

theorem isSectionOf_loop (s : Subcategory) (l : Loop) :
    isSectionOf s (.loop l) = decide (l.subcategoryRoute = s.route) :=
  Bool.and_true _

/-- The numbers of the sections of a subcategory. -/
def sectionsOf (f : Flow) (s : Subcategory) : List Graph.Section :=
  ((numbered 0 0 f.divisions).filter fun e => isSectionOf s e.1).map (·.2)

theorem sectionsOf_concat_topic (f : Flow) (t : Topic) (s : Subcategory) :
    sectionsOf { f with divisions := f.divisions ++ [.topic t] } s = f.sectionsOf s ++
      if isSectionOf s (.topic t) then [.topic f.topics.length] else [] := by
  by_cases h : isSectionOf s (.topic t) = true
  · simp [sectionsOf, numbered_concat, numbered, topics, h]
  · simp [sectionsOf, numbered_concat, numbered, h]

theorem sectionsOf_concat_loop (f : Flow) (l : Loop) (s : Subcategory) :
    sectionsOf { f with divisions := f.divisions ++ [.loop l] } s = f.sectionsOf s ++
      if isSectionOf s (.loop l) then [.loop f.loops.length] else [] := by
  by_cases h : isSectionOf s (.loop l) = true
  · simp [sectionsOf, numbered_concat, numbered, loops, h]
  · simp [sectionsOf, numbered_concat, numbered, h]

/-- A category, with the positions of its subcategories. -/
def categoryNode (f : Flow) (i : Nat) (c : Category) : CategoryNode :=
  ⟨c, f.subcategories.findIdxs (·.category = i)⟩

/-- A subcategory, with the positions of its parts. -/
def subcategoryNode (f : Flow) (s : Subcategory) : SubcategoryNode :=
  { toSubcategory := s
    screens := f.screens.findIdxs (·.subcategoryRoute = s.route)
    topics := f.topics.findIdxs (·.subcategoryRoute = s.route)
    loops := f.loops.findIdxs (·.subcategoryRoute = s.route)
    sections := f.sectionsOf s
    assertions := f.assertionsOf s }

/-- A topic, with the positions of its screens. -/
def topicNode (f : Flow) (t : Topic) : TopicNode :=
  ⟨t, f.screens.findIdxs (·.topicRoute = some t.fullRoute)⟩

/-- A loop, with the positions of its parts. -/
def loopNode (f : Flow) (l : Loop) : LoopNode :=
  ⟨l, f.screens.findIdxs (·.loopName = some l.name), f.topics.findIdxs (·.loop = some l.name)⟩

/-- The graph of a flow. -/
def graph (f : Flow) : Graph where
  categories := f.categories.mapIdx f.categoryNode
  subcategories := f.subcategories.map f.subcategoryNode
  topics := f.topics.map f.topicNode
  loops := f.loops.map f.loopNode
  screens := f.screens
  batches := f.batches
  subcategoryIndex := indexOn (·.route) f.subcategories
  topicIndex := indexOn (·.fullRoute) f.topics
  loopIndex := indexOn (·.name) f.loops
  screenIndex := indexOn (·.fullRoute) f.screens

/-! ## Parts that are added -/

/-- What names a subcategory or a loop names one that is there. -/
structure Attached (f : Flow) : Prop where
  division : ∀ d ∈ f.divisions, ∃ c ∈ f.subcategories, c.route = d.subcategoryRoute
  assertion : ∀ a ∈ f.assertions, ∃ c ∈ f.subcategories, c.route = a.subcategoryRoute
  topicLoop : ∀ t ∈ f.topics, ∀ name, t.loop = some name → ∃ l ∈ f.loops, l.name = name

theorem Attached.topic (hf : f.Attached) {t : Topic} (ht : t ∈ f.topics) :
    ∃ c ∈ f.subcategories, c.route = t.subcategoryRoute := by
  obtain ⟨d, hd, hdt⟩ := List.mem_filterMap.mp ht
  cases d with
  | topic t' =>
    obtain rfl := Option.some.inj hdt
    exact hf.division _ hd
  | loop l => cases hdt

theorem Attached.loop (hf : f.Attached) {l : Loop} (hl : l ∈ f.loops) :
    ∃ c ∈ f.subcategories, c.route = l.subcategoryRoute := by
  obtain ⟨d, hd, hdl⟩ := List.mem_filterMap.mp hl
  cases d with
  | topic t => cases hdl
  | loop l' =>
    obtain rfl := Option.some.inj hdl
    exact hf.division _ hd

/-- A category has no subcategories at first. -/
theorem graph_concat_category (hf : f.Arranged) (c : Category) :
    graph { f with categories := f.categories ++ [c] } = f.graph.pushCategory c := by
  have hbare : f.categoryNode f.categories.length c = .bare c := by
    unfold categoryNode CategoryNode.bare
    congr 1
    refine List.findIdxs_eq_nil_iff.mpr fun s hs => ?_
    have hlt := (List.getElem?_eq_some_iff.mp (hf.categorized s hs)).1
    exact decide_eq_false (Nat.ne_of_lt hlt)
  unfold graph pushCategory
  congr 1
  rw [List.mapIdx_concat, ← hbare]
  rfl

/-- Nothing belongs to a subcategory that is not there. -/
theorem subcategoryNode_bare (hf : f.Arranged) (hf' : f.Attached) {s : Subcategory}
    (hfresh : ∀ c ∈ f.subcategories, c.route ≠ s.route) : f.subcategoryNode s = .bare s := by
  -- what belongs to a subcategory names one that is there
  have hne {r : String} (h : ∃ c ∈ f.subcategories, c.route = r) : ¬ r = s.route := by
    rintro rfl
    obtain ⟨c, hc, hroute⟩ := h
    exact hfresh c hc hroute
  unfold subcategoryNode SubcategoryNode.bare
  congr 1
  · refine List.findIdxs_eq_nil_iff.mpr fun x hx => decide_eq_false ?_
    obtain ⟨c, hc, hroute, -⟩ := hf.placed x hx
    exact hne ⟨c, hc, hroute⟩
  · exact List.findIdxs_eq_nil_iff.mpr fun t ht => decide_eq_false (hne (hf'.topic ht))
  · exact List.findIdxs_eq_nil_iff.mpr fun l hl => decide_eq_false (hne (hf'.loop hl))
  · refine List.map_eq_nil_iff.mpr (List.filter_eq_nil_iff.mpr fun e he => ?_)
    have hd : e.1 ∈ f.divisions := by
      rw [← map_fst_numbered 0 0 f.divisions]
      exact List.mem_map_of_mem he
    simp [isSectionOf, hne (hf'.division _ hd)]
  · exact List.filter_eq_nil_iff.mpr fun a ha => by simpa using hne (hf'.assertion a ha)

/-- A subcategory belongs to the category at its position. -/
theorem graph_concat_subcategory (hf : f.Arranged) (hf' : f.Attached) {i : Nat} {s : Subcategory}
    (hcategory : s.category = i) (hfresh : ∀ c ∈ f.subcategories, c.route ≠ s.route) :
    graph { f with subcategories := f.subcategories ++ [s] } = f.graph.pushSubcategory i s := by
  subst hcategory
  unfold graph pushSubcategory
  congr 1
  · refine List.ext_getElem? fun i => ?_
    rw [List.getElem?_modify, List.getElem?_mapIdx, List.getElem?_mapIdx]
    cases f.categories[i]? with
    | none => rfl
    | some c =>
      by_cases hi : s.category = i
      · simp [categoryNode, hi]
      · simp [categoryNode, hi]
  · rw [List.map_append, List.map_singleton, ← subcategoryNode_bare hf hf' hfresh]
    rfl
  · rw [indexOn_concat, List.length_map]

/-- An assertion belongs to a subcategory. -/
theorem graph_concat_assertion (hf : f.Arranged) {i : Nat} {c : Subcategory}
    (hi : f.subcategories[i]? = some c) {a : Assertion} (ha : a.subcategoryRoute = c.route) :
    graph { f with assertions := f.assertions ++ [a] } = f.graph.pushAssertion i a := by
  unfold graph pushAssertion
  congr 1
  refine (modify_map hf.subcategoryRoutes hi ?_ fun y _ hy => ?_).symm
  · simp [subcategoryNode, assertionsOf, sectionsOf, topics, loops, ha]
  · simp [subcategoryNode, assertionsOf, sectionsOf, topics, loops, ha, Ne.symm hy]

/-- A screen belongs to a subcategory and, if it names them, to a topic and a loop. -/
theorem graph_concat_screen (hf : f.Arranged) {i : Nat} {c : Subcategory}
    (hi : f.subcategories[i]? = some c) {s : Screen} (hs : s.subcategoryRoute = c.route)
    {topic loop : Option Nat} (htopic : Refers (·.fullRoute) f.topics topic s.topicRoute)
    (hloop : Refers Loop.membership f.loops loop s.membership) :
    graph { f with screens := f.screens ++ [s] } = f.graph.pushScreen i topic loop s := by
  unfold graph pushScreen
  congr 1
  · refine (modify_map hf.subcategoryRoutes hi ?_ fun y _ hy => ?_).symm
    · simp [subcategoryNode, assertionsOf, sectionsOf, topics, loops, hs]
    · simp [subcategoryNode, assertionsOf, sectionsOf, topics, loops, hs, Ne.symm hy]
  · generalize hroute : s.topicRoute = route at htopic
    cases htopic with
    | none => exact List.map_congr_left fun t _ => by simp [topicNode, hroute]
    | some ht =>
      refine (modify_map hf.topicRoutes ht ?_ fun t _ ht => ?_).symm
      · simp [topicNode, hroute]
      · simp [topicNode, hroute, Ne.symm ht]
  · generalize hmember : s.membership = m at hloop
    cases hloop with
    | none =>
      refine List.map_congr_left fun l _ => ?_
      simp [loopNode, topics, Screen.loopName, hmember]
    | some hl =>
      refine (modify_map hf.loopNames hl ?_ fun l _ hl => ?_).symm
      · simp [loopNode, topics, Screen.loopName, hmember, Loop.membership]
      · simp [loopNode, topics, Screen.loopName, hmember, Loop.membership, Ne.symm hl]
  · rw [indexOn_concat]

/-- A loop belongs to a subcategory. -/
theorem graph_concat_loop (hf : f.Arranged) (hf' : f.Attached) {i : Nat} {c : Subcategory}
    (hi : f.subcategories[i]? = some c) {l : Loop} (hl : l.subcategoryRoute = c.route)
    (hfresh : ∀ x ∈ f.loops, x.name ≠ l.name) :
    graph { f with divisions := f.divisions ++ [.loop l] } = f.graph.pushLoop i l := by
  have hbare : f.loopNode l = .bare l := by
    unfold loopNode LoopNode.bare
    congr 1
    · refine List.findIdxs_eq_nil_iff.mpr fun s hs => decide_eq_false fun hname => ?_
      obtain ⟨m, hm, hmname⟩ := Option.map_eq_some_iff.mp hname
      obtain ⟨x, hx, rfl, -⟩ := hf.member s hs m hm
      exact hfresh x hx hmname
    · refine List.findIdxs_eq_nil_iff.mpr fun t ht => decide_eq_false fun hname => ?_
      obtain ⟨x, hx, hxname⟩ := hf'.topicLoop t ht _ hname
      exact hfresh x hx hxname
  unfold graph pushLoop
  congr 1
  · refine (modify_map hf.subcategoryRoutes hi ?_ fun y _ hy => ?_).symm
    · simp [subcategoryNode, assertionsOf, sectionsOf_concat_loop, isSectionOf_loop, hl]
    · simp [subcategoryNode, assertionsOf, sectionsOf_concat_loop, isSectionOf_loop, hl, Ne.symm hy]
  · simp [topicNode]
  · rw [loops_concat_loop, List.map_append, List.map_singleton, ← hbare]
    simp [loopNode]
  · simp
  · rw [loops_concat_loop, indexOn_concat, List.length_map]

/-- A topic belongs to a subcategory and, if it names one, to a loop. -/
theorem graph_concat_topic (hf : f.Arranged) {i : Nat} {c : Subcategory}
    (hi : f.subcategories[i]? = some c) {t : Topic} (ht : t.subcategoryRoute = c.route)
    {loop : Option Nat} (hloop : Refers (·.name) f.loops loop t.loop)
    (hfresh : ∀ x ∈ f.topics, x.fullRoute ≠ t.fullRoute) :
    graph { f with divisions := f.divisions ++ [.topic t] } = f.graph.pushTopic i loop t := by
  have hbare : f.topicNode t = .bare t := by
    unfold topicNode TopicNode.bare
    congr 1
    refine List.findIdxs_eq_nil_iff.mpr fun s hs => decide_eq_false fun hroute => ?_
    obtain ⟨x, hx, hxroute⟩ := hf.topicKnown s hs _ hroute
    exact hfresh x hx hxroute
  have hout := hloop.isNone_eq
  unfold graph pushTopic
  congr 1
  · refine (modify_map hf.subcategoryRoutes hi ?_ fun y _ hy => ?_).symm
    · cases hnone : loop.isNone <;>
        simp [subcategoryNode, assertionsOf, sectionsOf_concat_topic, isSectionOf_topic, ht, hout,
          hnone]
    · simp [subcategoryNode, assertionsOf, sectionsOf_concat_topic, isSectionOf_topic, ht,
        Ne.symm hy]
  · rw [topics_concat_topic, List.map_append, List.map_singleton, ← hbare]
    simp [topicNode]
  · rw [loops_concat_topic]
    generalize hname : t.loop = name at hloop
    cases hloop with
    | none => exact List.map_congr_left fun l _ => by simp [loopNode, hname]
    | some hl =>
      refine (modify_map hf.loopNames hl ?_ fun l _ hl => ?_).symm
      · simp [loopNode, hname]
      · simp [loopNode, hname, Ne.symm hl]
  · rw [topics_concat_topic, indexOn_concat, List.length_map]
  · simp

end Flow

end Interview

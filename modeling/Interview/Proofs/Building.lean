import Interview.Flow.Build

/-!
# What building does

A flow is built entry by entry. The first half of this file says, for each kind of entry, when it
is taken and what it adds: the lists of the flow only ever grow at their ends. The second half
follows the tree: what every entry keeps, on the way down into a node and on the way up out of it,
holds of every flow that is built (`Flow.Kept.of_build`).
-/

namespace Interview

/-- A bind succeeds iff both of its steps do. -/
theorem bind_eq_ok {ε α β : Type} {x : Except ε α} {k : α → Except ε β} {b : β} :
    x >>= k = .ok b ↔ ∃ a, x = .ok a ∧ k a = .ok b := by
  cases x with
  | error e => simp [bind, Except.bind]
  | ok a => simp [bind, Except.bind]

/-- A bind fails iff its first step does, or the second one after it. -/
theorem bind_eq_error {ε α β : Type} {x : Except ε α} {k : α → Except ε β} {e : ε} :
    x >>= k = .error e ↔ x = .error e ∨ ∃ a, x = .ok a ∧ k a = .error e := by
  cases x with
  | error e => simp [bind, Except.bind]
  | ok a => simp [bind, Except.bind]

/-- A check succeeds before a step iff both do. -/
theorem check_bind_eq_ok {ε β : Type} {x : Except ε Unit} {k : Unit → Except ε β} {b : β} :
    x >>= k = .ok b ↔ x = .ok () ∧ k () = .ok b := by
  cases x with
  | error e => simp [bind, Except.bind]
  | ok a => simp [bind, Except.bind]

theorem throw_ne_ok {ε α : Type} {e : ε} {a : α} : (throw e : Except ε α) ≠ .ok a := by
  intro h
  cases h

theorem pure_eq_ok {ε α : Type} {a b : α} : (pure a : Except ε α) = .ok b ↔ b = a := by
  simp [pure, Except.pure, eq_comm]

theorem map_eq_ok {ε α β : Type} {x : Except ε α} {g : α → β} {b : β} :
    x.map g = .ok b ↔ ∃ a, x = .ok a ∧ g a = b := by
  cases x with
  | error e => simp [Except.map]
  | ok a => simp [Except.map]

theorem mapError_eq_ok {ε ε' α : Type} {x : Except ε α} {g : ε → ε'} {a : α} :
    x.mapError g = .ok a ↔ x = .ok a := by
  cases x with
  | error e =>
    constructor
    · intro h
      cases h
    · intro h
      cases h
  | ok b =>
    constructor
    · intro h
      cases h
      rfl
    · intro h
      cases h
      rfl

theorem throw_bind {ε α β : Type} {e : ε} {k : α → Except ε β} :
    (throw e >>= k) = (throw e : Except ε β) := rfl

/-- A guard lets through what does not meet its condition. -/
theorem guard_eq_ok {ε α : Type} {c : Prop} [Decidable c] {e : ε} {x : Except ε α} {a : α} :
    (if c then throw e else x) = .ok a ↔ ¬ c ∧ x = .ok a := by
  by_cases hc : c
  · simp [hc, throw_ne_ok]
  · simp [hc]

section Decided

variable {ε α : Type} {x : Except ε α} {gives : α → Prop} {fails : ε → Prop}
  (hgives : ∀ a, gives a → x = .ok a) (hfails : ∀ e, fails e → x = .error e)
  (htotal : (∃ a, gives a) ∨ ∃ e, fails e)
include hgives hfails htotal

/-- Where it is described when there is a result and when there is an error, and one of both is
always so, there are no other results. -/
theorem eq_ok_iff_of_total {a : α} : x = .ok a ↔ gives a := by
  constructor
  · intro h
    rcases htotal with ⟨b, hb⟩ | ⟨e, he⟩
    · obtain rfl := Except.ok.inj ((hgives b hb).symm.trans h)
      exact hb
    · cases (hfails e he).symm.trans h
  · exact hgives a

/-- There are no other errors either. -/
theorem eq_error_iff_of_total {e : ε} : x = .error e ↔ fails e := by
  constructor
  · intro h
    rcases htotal with ⟨b, hb⟩ | ⟨e', he⟩
    · cases (hgives b hb).symm.trans h
    · obtain rfl := Except.error.inj ((hfails e' he).symm.trans h)
      exact he
  · exact hfails e

end Decided

namespace Flow

variable {f g h : Flow} {sc : Scope}

/-! ## Entries that are taken -/

theorem addCategory_eq_ok {route : String} :
    f.addCategory sc route = .ok g ↔ sc.category = none ∧
      g = { f with categories := f.categories ++ [⟨Scope.categoryRoute route⟩] } := by
  unfold addCategory
  cases sc.category with
  | none => simp [pure_eq_ok]
  | some c => simp [throw_ne_ok]

theorem addSubcategory_eq_ok {head : SubcategoryHead} :
    f.addSubcategory sc head = .ok g ↔ ∃ c, sc.category = some c ∧ sc.subcategory = none ∧
      f.subcategory? (Scope.below (some c) head.route) = none ∧
      g = { f with
        subcategories := f.subcategories ++ [.place (f.categories.length - 1) c head] } := by
  unfold addSubcategory
  cases hc : sc.category with
  | none => simp [throw_ne_ok]
  | some c =>
    cases hs : sc.subcategory with
    | some s => simp [throw_ne_ok]
    | none =>
      cases hf : f.subcategory? (Scope.below (some c) head.route) with
      | some s => simp [Subcategory.place, hf, throw_ne_ok]
      | none => simp [Subcategory.place, hf, pure_eq_ok]

theorem addTopic_eq_ok {route : String} :
    f.addTopic sc route = .ok g ↔ ∃ r, sc.subcategory = some r ∧
      g = if (f.topic? (Scope.below (some r) route)).isSome then f
        else { f with divisions := f.divisions ++ [.topic (.place sc r route)] } := by
  unfold addTopic
  cases hs : sc.subcategory with
  | none => simp [throw_ne_ok]
  | some r =>
    cases hf : f.topic? (Scope.below (some r) route) with
    | some t => simp [Topic.place, hf, pure_eq_ok]
    | none => simp [Topic.place, hf, pure_eq_ok]

theorem addLoop_eq_ok {head : LoopHead} :
    f.addLoop sc head = .ok g ↔ ∃ r c fullRoute, sc.subcategory = some r ∧ sc.loop = none ∧
      f.loop? head.name = none ∧ sc.loopCollection head = some c ∧
      loopRoute sc r head = .ok fullRoute ∧
      g = { f with divisions := f.divisions ++ [.loop (.place r fullRoute c head)] } := by
  unfold addLoop
  cases hs : sc.subcategory with
  | none => simp [throw_ne_ok]
  | some r =>
    cases hl : sc.loop with
    | some parent => simp [throw_ne_ok]
    | none =>
      cases hf : f.loop? head.name with
      | some l => simp [throw_ne_ok]
      | none =>
        cases hc : sc.loopCollection head with
        | none => simp [throw_ne_ok]
        | some c => simp [-bind_pure_comp, bind_eq_ok, pure_eq_ok]

theorem endLoop_eq_ok {name : String} :
    f.endLoop name = .ok g ↔ (∃ s ∈ f.screens, s.loopName = some name) ∧ g = f := by
  unfold endLoop
  by_cases hany : ∃ s ∈ f.screens, s.loopName = some name
  · simp [hany, pure_eq_ok]
  · simp [hany, throw_ne_ok]

theorem addScreen_eq_ok {head : ScreenHead} :
    f.addScreen sc head = .ok g ↔ ∃ r, sc.subcategory = some r ∧
      f.screen? (Scope.below (some r) head.route) = none ∧
      (Screen.place sc r head).checkBatches f.batches = .ok () ∧
      (Screen.place sc r head).check = .ok () ∧
      g = { f with screens := f.screens ++ [.place sc r head] } := by
  unfold addScreen
  cases hs : sc.subcategory with
  | none => simp [throw_ne_ok]
  | some r =>
    cases hf : f.screen? (Scope.below (some r) head.route) with
    | some s => simp [Screen.place, hf, bind_eq_ok, throw_ne_ok]
    | none =>
      -- the checks speak of the screen as it is placed, the look-up of its route
      have hroute : (Screen.place sc r head).fullRoute = Scope.below (some r) head.route := rfl
      simp [-bind_pure_comp, hroute, hf, check_bind_eq_ok, pure_eq_ok]

theorem addAssertion_eq_ok {head : AssertionHead} :
    f.addAssertion sc head = .ok g ↔ ∃ r, sc.subcategory = some r ∧
      g = { f with assertions := f.assertions ++ [.place sc r head] } := by
  unfold addAssertion
  cases hs : sc.subcategory with
  | none => simp [throw_ne_ok]
  | some r => simp [pure_eq_ok]

/-! ## Growth -/

/-- Every list of the one flow goes on in the other. -/
structure GrowsTo (f g : Flow) : Prop where
  categories : f.categories <+: g.categories
  subcategories : f.subcategories <+: g.subcategories
  divisions : f.divisions <+: g.divisions
  assertions : f.assertions <+: g.assertions
  screens : f.screens <+: g.screens
  batches : f.batches = g.batches

namespace GrowsTo

theorem refl (f : Flow) : f.GrowsTo f :=
  ⟨List.prefix_rfl, List.prefix_rfl, List.prefix_rfl, List.prefix_rfl, List.prefix_rfl, rfl⟩

theorem trans (hfg : f.GrowsTo g) (hgh : g.GrowsTo h) : f.GrowsTo h :=
  ⟨hfg.categories.trans hgh.categories, hfg.subcategories.trans hgh.subcategories,
    hfg.divisions.trans hgh.divisions, hfg.assertions.trans hgh.assertions,
    hfg.screens.trans hgh.screens, hfg.batches.trans hgh.batches⟩

theorem loops_subset (hfg : f.GrowsTo g) : f.loops ⊆ g.loops :=
  (hfg.divisions.filterMap Division.loop?).subset

theorem topics_subset (hfg : f.GrowsTo g) : f.topics ⊆ g.topics :=
  (hfg.divisions.filterMap Division.topic?).subset

end GrowsTo

/-- Taking an entry adds to the ends of lists. -/
theorem growsTo_of_add {e : Entry} (hadd : f.add e = .ok g) : f.GrowsTo g := by
  obtain ⟨sc, item⟩ := e
  cases item with
  | category route =>
    obtain ⟨-, rfl⟩ := addCategory_eq_ok.mp hadd
    exact { GrowsTo.refl f with categories := List.prefix_append _ _ }
  | subcategory head =>
    obtain ⟨c, -, -, -, rfl⟩ := addSubcategory_eq_ok.mp hadd
    exact { GrowsTo.refl f with subcategories := List.prefix_append _ _ }
  | topic route =>
    obtain ⟨r, -, rfl⟩ := addTopic_eq_ok.mp hadd
    split
    · exact GrowsTo.refl f
    · exact { GrowsTo.refl f with divisions := List.prefix_append _ _ }
  | loop head =>
    obtain ⟨r, c, fullRoute, -, -, -, -, -, rfl⟩ := addLoop_eq_ok.mp hadd
    exact { GrowsTo.refl f with divisions := List.prefix_append _ _ }
  | loopEnd name =>
    obtain ⟨-, rfl⟩ := endLoop_eq_ok.mp hadd
    exact GrowsTo.refl g
  | screen head =>
    obtain ⟨r, -, -, -, -, rfl⟩ := addScreen_eq_ok.mp hadd
    exact { GrowsTo.refl f with screens := List.prefix_append _ _ }
  | assertion head =>
    obtain ⟨r, -, rfl⟩ := addAssertion_eq_ok.mp hadd
    exact { GrowsTo.refl f with assertions := List.prefix_append _ _ }

theorem growsTo_of_foldlM {es : List Entry} (hfold : es.foldlM add f = .ok g) :
    f.GrowsTo g := by
  induction es generalizing f with
  | nil =>
    rw [pure_eq_ok.mp hfold]
    exact GrowsTo.refl f
  | cons e es ih =>
    obtain ⟨f', hadd, hrest⟩ := bind_eq_ok.mp hfold
    exact (growsTo_of_add hadd).trans (ih hrest)

/-- A flow is built if all entries are taken and there is a screen. -/
theorem build_eq_ok {o : Outline} : build o = .ok f ↔
    o.entries.foldlM add (empty o.batches) = .ok f ∧ f.screens ≠ [] := by
  unfold build
  rw [bind_eq_ok]
  constructor
  · rintro ⟨g, hfold, hcheck⟩
    obtain ⟨hne, hpure⟩ := guard_eq_ok.mp hcheck
    obtain rfl := pure_eq_ok.mp hpure
    exact ⟨hfold, hne⟩
  · rintro ⟨hfold, hne⟩
    exact ⟨f, hfold, guard_eq_ok.mpr ⟨hne, rfl⟩⟩

/-! ## Following the tree -/

/-- A property of a scope and the flow built so far is *kept* if every entry that is taken brings it
to the scope below, and if it holds again of a scope when everything below has been taken. -/
structure Kept (P : Scope → Flow → Prop) : Prop where
  category : ∀ {sc f g route}, P sc f → f.addCategory sc route = .ok g →
    P (sc.enterCategory route) g
  subcategory : ∀ {sc f g head}, P sc f → f.addSubcategory sc head = .ok g →
    P (sc.enterSubcategory head) g
  topic : ∀ {sc f g route}, P sc f → f.addTopic sc route = .ok g → P (sc.enterTopic route) g
  loop : ∀ {sc f g head}, P sc f → f.addLoop sc head = .ok g → P (sc.enterLoop head) g
  gate : ∀ {sc f condition}, P sc f → P (sc.enterGate condition) f
  screen : ∀ {sc f g head}, P sc f → f.addScreen sc head = .ok g → P sc g
  assertion : ∀ {sc f g head}, P sc f → f.addAssertion sc head = .ok g → P sc g
  leaveCategory : ∀ {sc f g route}, P sc f → sc.category = none → f.GrowsTo g →
    P (sc.enterCategory route) g → P sc g
  leaveSubcategory : ∀ {sc f g head}, P sc f → sc.subcategory = none → f.GrowsTo g →
    P (sc.enterSubcategory head) g → P sc g
  leaveTopic : ∀ {sc f g route}, P sc f → f.GrowsTo g → P (sc.enterTopic route) g → P sc g
  leaveLoop : ∀ {sc f g head}, P sc f → sc.loop = none → f.GrowsTo g →
    P (sc.enterLoop head) g → (∃ s ∈ g.screens, s.loopName = some head.name) → P sc g
  leaveGate : ∀ {sc f g condition}, P sc f → f.GrowsTo g → P (sc.enterGate condition) g → P sc g

namespace Kept

variable {P : Scope → Flow → Prop}

mutual

/-- A kept property holds after a node if it holds before it. -/
theorem of_node (hP : Kept P) : ∀ (n : Node) {sc : Scope} {f g : Flow}, P sc f →
    (n.entries sc).foldlM add f = .ok g → P sc g
  | .category route children, sc, f, g, hf, hfold => by
    obtain ⟨f', hadd, hrest⟩ := bind_eq_ok.mp hfold
    have hgrow := (growsTo_of_add hadd).trans (growsTo_of_foldlM hrest)
    exact hP.leaveCategory hf (addCategory_eq_ok.mp hadd).1 hgrow
      (of_nodes hP children (hP.category hf hadd) hrest)
  | .subcategory head children, sc, f, g, hf, hfold => by
    obtain ⟨f', hadd, hrest⟩ := bind_eq_ok.mp hfold
    have hgrow := (growsTo_of_add hadd).trans (growsTo_of_foldlM hrest)
    obtain ⟨c, -, hnone, -, -⟩ := addSubcategory_eq_ok.mp hadd
    exact hP.leaveSubcategory hf hnone hgrow
      (of_nodes hP children (hP.subcategory hf hadd) hrest)
  | .topic route children, sc, f, g, hf, hfold => by
    obtain ⟨f', hadd, hrest⟩ := bind_eq_ok.mp hfold
    have hgrow := (growsTo_of_add hadd).trans (growsTo_of_foldlM hrest)
    exact hP.leaveTopic hf hgrow (of_nodes hP children (hP.topic hf hadd) hrest)
  | .loop head children, sc, f, g, hf, hfold => by
    -- the last entry of a loop adds nothing, but shows that there is a screen in it
    rw [Node.entries, List.cons_append] at hfold
    obtain ⟨f', hadd, hrest⟩ := bind_eq_ok.mp hfold
    rw [List.foldlM_append] at hrest
    obtain ⟨f'', hinner, hlast⟩ := bind_eq_ok.mp hrest
    obtain ⟨g', hend, hpure⟩ := bind_eq_ok.mp hlast
    obtain rfl := pure_eq_ok.mp hpure
    obtain ⟨hscreen, rfl⟩ := endLoop_eq_ok.mp hend
    obtain ⟨r, c, fullRoute, -, hnone, -⟩ := addLoop_eq_ok.mp hadd
    have hgrow := (growsTo_of_add hadd).trans (growsTo_of_foldlM hinner)
    exact hP.leaveLoop hf hnone hgrow (of_nodes hP children (hP.loop hf hadd) hinner) hscreen
  | .gate condition children, sc, f, g, hf, hfold =>
    hP.leaveGate hf (growsTo_of_foldlM hfold) (of_nodes hP children (hP.gate hf) hfold)
  | .screen head, sc, f, g, hf, hfold => by
    obtain ⟨f', hadd, hpure⟩ := bind_eq_ok.mp hfold
    obtain rfl := pure_eq_ok.mp hpure
    exact hP.screen hf hadd
  | .assertion head, sc, f, g, hf, hfold => by
    obtain ⟨f', hadd, hpure⟩ := bind_eq_ok.mp hfold
    obtain rfl := pure_eq_ok.mp hpure
    exact hP.assertion hf hadd

/-- A kept property holds after several nodes if it holds before them. -/
theorem of_nodes (hP : Kept P) : ∀ (ns : List Node) {sc : Scope} {f g : Flow}, P sc f →
    (Node.allEntries sc ns).foldlM add f = .ok g → P sc g
  | [], sc, f, g, hf, hfold => by
    obtain rfl := pure_eq_ok.mp hfold
    exact hf
  | n :: ns, sc, f, g, hf, hfold => by
    rw [Node.allEntries, List.foldlM_append] at hfold
    obtain ⟨f', hnode, hrest⟩ := bind_eq_ok.mp hfold
    exact of_nodes hP ns (of_node hP n hf hnode) hrest

end

/-- **What is kept holds of every flow that is built**, in the outermost scope, if it holds of the
flow without parts. -/
theorem of_build (hP : Kept P) {o : Outline} (hempty : P .outermost (empty o.batches))
    (hbuild : build o = .ok f) : P .outermost f := by
  obtain ⟨hfold, -⟩ := build_eq_ok.mp hbuild
  exact of_nodes hP o.nodes hempty hfold

end Kept

end Flow

end Interview

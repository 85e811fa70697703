import Interview.Proofs.ChecklistViews
import Interview.Proofs.Deletion
import Mathlib.Data.List.ModifyLast

/-!
# Sections without influence

The checklist leaves out the categories that the settings exclude and the subcategories whose
conditions for being displayed fail. Such a section has no influence on the rest: if it is taken out
of the outline, the checklist stays the same (`Flow.checklist_of_deletion`).

What is shown is followed along the entries of the outline (`Flow.shownByCategory_of_build`). It is
changed by entries of displayed categories and subcategories only, so those of the section that is
taken out do not change it (`Flow.showing_of_leftOut`), and the screens and loops that are taken
out with it lie in subcategories that are not displayed.
-/

namespace Interview

variable {f g : Flow} {ctx : Context} {facts : String → Fact} {submission : Option Submission}

/-- A section that the checklist leaves out: a category that the settings exclude, or a subcategory
whose conditions for being displayed fail for the item that it is about. -/
def Node.IsLeftOut (ctx : Context) (facts : String → Fact) : Node → Prop
  | .category route _ => ctx.settings.excludes (Scope.categoryRoute route) = true
  | .subcategory head _ =>
    let item := head.collection.bind fun path => (facts path).referencedItem
    (Condition.allHold ctx item head.displayOnlyIf).run facts = false
  | _ => False

theorem Node.IsLeftOut.isSection {n : Node} (h : n.IsLeftOut ctx facts) : n.IsSection := by
  cases n with
  | category route children => exact .inl rfl
  | subcategory head children => exact .inr rfl
  | topic | loop | gate | screen | assertion => exact h.elim

/-! ## What entries show -/

/-- What is shown after an entry: a category that is displayed is shown without subcategories at
first, and a subcategory that is displayed goes to the last one. -/
def Entry.showing (ctx : Context) (facts : String → Fact)
    (shown : List (String × List Subcategory)) (e : Entry) : List (String × List Subcategory) :=
  match e.item with
  | .category route =>
    if ctx.settings.excludes (Scope.categoryRoute route) then shown
    else shown ++ [(Scope.categoryRoute route, [])]
  | .subcategory head =>
    let s := Subcategory.place 0 (e.scope.category.getD "") head
    if Flow.isDisplayed ctx facts s then shown.modifyLast fun c => (c.1, c.2 ++ [s]) else shown
  | _ => shown

namespace Flow

theorem shownAmong_concat (xs : List Subcategory) (s : Subcategory) :
    shownAmong ctx facts (xs ++ [s]) = shownAmong ctx facts xs ++
      if isShown ctx facts s then [unplaced s] else [] := by
  unfold shownAmong
  rw [List.filter_append, List.map_append]
  cases hshown : isShown ctx facts s <;> simp [hshown]

/-- What is shown depends on the categories and subcategories alone. -/
theorem shownByCategory_congr (hcategories : g.categories = f.categories)
    (hsubcategories : g.subcategories = f.subcategories) :
    g.shownByCategory ctx facts = f.shownByCategory ctx facts := by
  unfold shownByCategory shownOf displayedCategories subcategoriesOf
  rw [hcategories, hsubcategories]

/-- A category that is added is displayed after the others, unless it is excluded. -/
theorem displayedCategories_concat {settings : Settings} {cs : List Category} {c : Category}
    (hcategories : g.categories = cs ++ [c]) : g.displayedCategories settings =
      (cs.zipIdx.filter fun (category, _) => !settings.excludes category.route) ++
        if settings.excludes c.route then [] else [(c, cs.length)] := by
  unfold displayedCategories
  rw [hcategories, List.zipIdx_append, List.filter_append]
  cases h : settings.excludes c.route <;> simp [h]

/-- A category has no subcategories at first. -/
theorem shownByCategory_category (hf : f.Arranged) {c : Category}
    (hcategories : g.categories = f.categories ++ [c])
    (hsubcategories : g.subcategories = f.subcategories) :
    g.shownByCategory ctx facts =
      if ctx.settings.excludes c.route then f.shownByCategory ctx facts
      else f.shownByCategory ctx facts ++ [(c.route, [])] := by
  have hnone : f.subcategoriesOf f.categories.length = [] := by
    refine List.filter_eq_nil_iff.mpr ?_
    intro s hs
    have hlt := (List.getElem?_eq_some_iff.mp (hf.categorized s hs)).1
    simpa using Nat.ne_of_lt hlt
  have hsame : g.shownOf ctx facts = f.shownOf ctx facts := by
    unfold shownOf subcategoriesOf
    rw [hsubcategories]
  unfold shownByCategory
  rw [displayedCategories_concat hcategories, List.map_append, hsame]
  cases ctx.settings.excludes c.route with
  | true => simp [displayedCategories]
  | false => simp [displayedCategories, shownOf, hnone, shownAmong]

/-- A subcategory that is displayed goes to the last category that is displayed. -/
theorem shownByCategory_subcategory {c : Category} {cs : List Category} {s : Subcategory}
    (hlast : f.categories = cs ++ [c]) (hcategories : g.categories = f.categories)
    (hsubcategories : g.subcategories = f.subcategories ++ [s]) (hs : s.category = cs.length)
    (hroute : s.categoryRoute = c.route) : g.shownByCategory ctx facts =
      if isDisplayed ctx facts s then
        (f.shownByCategory ctx facts).modifyLast fun c => (c.1, c.2 ++ [unplaced s])
      else f.shownByCategory ctx facts := by
  have hbefore : ∀ p ∈ cs.zipIdx, g.shownOf ctx facts p = f.shownOf ctx facts p := by
    intro p hp
    have hlt : p.2 < cs.length := by
      simpa using (List.mem_zipIdx hp).2.1
    have hother : g.subcategoriesOf p.2 = f.subcategoriesOf p.2 := by
      unfold subcategoriesOf
      rw [hsubcategories, List.filter_append]
      simp [hs, Nat.ne_of_gt hlt]
    unfold shownOf
    rw [hother]
  have hat : g.subcategoriesOf cs.length = f.subcategoriesOf cs.length ++ [s] := by
    unfold subcategoriesOf
    rw [hsubcategories, List.filter_append]
    simp [hs]
  have hinit : ∀ q, (cs.zipIdx.filter q).map (g.shownOf ctx facts) =
      (cs.zipIdx.filter q).map (f.shownOf ctx facts) := fun q =>
    List.map_congr_left fun p hp => hbefore p (List.mem_filter.mp hp).1
  unfold shownByCategory isDisplayed
  rw [displayedCategories_concat (hcategories.trans hlast), displayedCategories_concat hlast,
    List.map_append, List.map_append, hroute, hinit]
  cases ctx.settings.excludes c.route with
  | true => simp
  | false =>
    cases hshown : isShown ctx facts s with
    | true => simp [shownOf, hat, shownAmong_concat, hshown, List.modifyLast_concat]
    | false => simp [shownOf, hat, shownAmong_concat, hshown]

/-- **What is shown is changed by each entry alone**, whatever the flow that takes it. -/
theorem shownByCategory_add {e : Entry} (hf : f.Arranged ∧ e.scope.IsOpen f)
    (hadd : f.add e = .ok g) : g.shownByCategory ctx facts =
      e.showing ctx facts (f.shownByCategory ctx facts) := by
  obtain ⟨sc, item⟩ := e
  have hadds := adds_of_add hadd
  cases item with
  | category route =>
    obtain ⟨-, rfl⟩ := addCategory_eq_ok.mp hadd
    exact shownByCategory_category hf.1 rfl rfl
  | subcategory head =>
    obtain ⟨c, hc, -, -, rfl⟩ := addSubcategory_eq_ok.mp hadd
    have hcategory : sc.category = some c := hc
    -- the category that the subcategory lies in is the last one
    obtain ⟨cs, hlast⟩ := List.getLast?_eq_some_iff.mp (hf.2.category c hcategory)
    have hlength : f.categories.length - 1 = cs.length := by simp [hlast]
    have hplace : Entry.showing ctx facts (f.shownByCategory ctx facts) ⟨sc, .subcategory head⟩ =
        if isDisplayed ctx facts (.place (f.categories.length - 1) c head) then
          (f.shownByCategory ctx facts).modifyLast fun shown =>
            (shown.1, shown.2 ++ [unplaced (.place (f.categories.length - 1) c head)])
        else f.shownByCategory ctx facts := by
      simp only [Entry.showing, hcategory, Option.getD_some]
      rfl
    rw [hplace]
    exact shownByCategory_subcategory hlast rfl rfl hlength rfl
  | topic route =>
    obtain ⟨r, -, rfl⟩ := addTopic_eq_ok.mp hadd
    split
    · rfl
    · exact shownByCategory_congr rfl rfl
  | loop head =>
    obtain ⟨r, c, fullRoute, -, -, -, -, -, rfl⟩ := addLoop_eq_ok.mp hadd
    exact shownByCategory_congr rfl rfl
  | loopEnd name =>
    obtain ⟨-, rfl⟩ := endLoop_eq_ok.mp hadd
    rfl
  | screen head =>
    obtain ⟨r, -, -, -, -, rfl⟩ := addScreen_eq_ok.mp hadd
    exact shownByCategory_congr rfl rfl
  | assertion head =>
    obtain ⟨r, -, rfl⟩ := addAssertion_eq_ok.mp hadd
    exact shownByCategory_congr rfl rfl

theorem shownByCategory_of_build {o : Outline} (hbuild : build o = .ok f) :
    f.shownByCategory ctx facts = o.entries.foldl (Entry.showing ctx facts) [] := by
  obtain ⟨hfold, -⟩ := build_eq_ok.mp hbuild
  exact kept_arranged.foldl_of_nodes shownByCategory_add
    ⟨arranged_empty o.batches, isOpen_outermost _⟩ hfold

end Flow

/-! ## Sections that are left out -/

/-- A scope lies in a category that is excluded or in a subcategory that is not displayed. -/
def Scope.IsHidden (ctx : Context) (facts : String → Fact) (f : Flow) (sc : Scope) : Prop :=
  (∃ c, sc.category = some c ∧ ctx.settings.excludes c = true) ∨
    ∃ s ∈ f.subcategories, sc.subcategory = some s.route ∧ Flow.isDisplayed ctx facts s = false

namespace Flow

variable {f₁ f₂ : Flow} {sc : Scope} {n : Node} {e : Entry}

/-- What lies below something hidden is hidden. -/
theorem isHidden_enter (hsc : sc.IsHidden ctx facts f)
    (hopening : (n.opening sc).foldlM add f₁ = .ok f₂) : (sc.enter n).IsHidden ctx facts f := by
  cases n with
  | category route children =>
    rw [Node.opening, foldlM_singleton] at hopening
    have hnone := (addCategory_eq_ok.mp hopening).1
    rcases hsc with ⟨c, hc, -⟩ | hsubcategory
    · rw [hnone] at hc
      cases hc
    · exact .inr hsubcategory
  | subcategory head children =>
    rw [Node.opening, foldlM_singleton] at hopening
    obtain ⟨c, -, hnone, -⟩ := addSubcategory_eq_ok.mp hopening
    rcases hsc with hcategory | ⟨s, -, hs, -⟩
    · exact .inl hcategory
    · rw [hnone] at hs
      cases hs
  | topic | loop | gate | screen | assertion => exact hsc

/-- An entry that is hidden shows nothing. -/
theorem showing_of_isHidden (hsc : e.scope.IsHidden ctx facts f) (hopen : e.scope.IsOpen f₁)
    (hadd : f₁.add e = .ok f₂) (shown : List (String × List Subcategory)) :
    e.showing ctx facts shown = shown := by
  obtain ⟨sc, item⟩ := e
  cases item with
  | category route =>
    -- categories are not nested, and lie in no subcategory
    have hnone : sc.category = none := (addCategory_eq_ok.mp hadd).1
    rcases hsc with ⟨c, hc, -⟩ | ⟨s, -, hs, -⟩
    · cases hnone.symm.trans hc
    · cases (subcategory_none hopen hnone).symm.trans hs
  | subcategory head =>
    obtain ⟨c, hcategory, hnone, -⟩ := addSubcategory_eq_ok.mp hadd
    rcases hsc with ⟨c', hc, hexcluded⟩ | ⟨s, -, hs, -⟩
    · have hroute : sc.category = some c' := hc
      simp [Entry.showing, isDisplayed, Subcategory.place, hroute, hexcluded]
    · cases hnone.symm.trans hs
  | topic | loop | loopEnd | screen | assertion => rfl

/-- The subcategory of an entry that is hidden is not displayed. -/
theorem exists_hidden_of_isHidden (hsc : e.scope.IsHidden ctx facts f) (hopen : e.scope.IsOpen f₁)
    (hgrow : f₁.GrowsTo f) {r : String} (hr : e.scope.subcategory = some r) :
    ∃ s ∈ f.subcategories, s.route = r ∧ isDisplayed ctx facts s = false := by
  rcases hsc with ⟨c, hc, hexcluded⟩ | ⟨s, hs, hroute, hhidden⟩
  · obtain ⟨s, hs, hroute, hcategory⟩ := hopen.subcategory r hr
    obtain rfl := Option.some.inj (hc.symm.trans hcategory)
    exact ⟨s, hgrow.subcategories.subset hs, hroute, by simp [isDisplayed, hexcluded]⟩
  · exact ⟨s, hs, Option.some.inj (hroute.symm.trans hr), hhidden⟩

theorem itemAt_eq (s : Subcategory) :
    itemAt facts s = s.collection.bind fun path => (facts path).referencedItem := by
  unfold itemAt contextItem
  cases s.collection <;> simp

/-- A subcategory that is left out is not displayed. -/
theorem isDisplayed_place {head : SubcategoryHead} {children : List Node}
    (hn : (Node.subcategory head children).IsLeftOut ctx facts) (i : Nat) (c : String) :
    isDisplayed ctx facts (.place i c head) = false := by
  have hhidden : isShown ctx facts (.place i c head) = false := by
    unfold isShown
    rw [itemAt_eq]
    exact hn
  simp [isDisplayed, hhidden]

section

variable (hn : n.IsLeftOut ctx facts) (hf : f₁.Arranged ∧ sc.IsOpen f₁)
  (htakes : (n.entries sc).foldlM add f₁ = .ok f₂) (hgrow : f₂.GrowsTo f)

include hn htakes hgrow

/-- Below a section that is left out everything is hidden. -/
theorem isHidden_of_leftOut : (sc.enter n).IsHidden ctx facts f := by
  obtain ⟨g, hopening, hchildren, -⟩ := takes_node_iff.mp htakes
  cases n with
  | category route children => exact .inl ⟨_, rfl, hn⟩
  | subcategory head children =>
    rw [Node.opening, foldlM_singleton] at hopening
    obtain ⟨c, hc, -, -, rfl⟩ := addSubcategory_eq_ok.mp hopening
    have hafter := (growsTo_of_foldlM hchildren).trans hgrow
    refine .inr ⟨.place (f₁.categories.length - 1) c head, ?_, ?_, ?_⟩
    · exact hafter.subcategories.subset (List.mem_append_right _ (List.mem_singleton_self _))
    · show some (Scope.below sc.category head.route) = _
      rw [show sc.category = some c from hc]
      rfl
    · exact isDisplayed_place hn _ c
  | topic | loop | gate | screen | assertion => exact hn.elim

include hf in
/-- The entries of a section that is left out: the first one shows nothing, the others are
hidden. -/
theorem of_mem_entries (he : e ∈ n.entries sc) : e ∈ n.opening sc ∨
    e.scope.IsHidden ctx facts f ∧ ∃ g₁ g₂, e.scope.IsOpen g₁ ∧ g₁.add e = .ok g₂ ∧
      g₁.GrowsTo f := by
  obtain ⟨g, hopening, hchildren, -⟩ := takes_node_iff.mp htakes
  have hclosing : n.closing sc = [] := by
    cases n with
    | loop head children => exact hn.elim
    | category | subcategory | topic | gate | screen | assertion => rfl
  rw [Node.entries_eq, hclosing, List.append_nil, List.mem_append] at he
  refine he.imp_right fun hinside => ?_
  have hhidden : e.scope.IsHidden ctx facts f :=
    forall_scope (R := fun _ => True) (fun hsc _ => isHidden_enter hsc)
      (isHidden_of_leftOut hn htakes hgrow) (fun _ _ => trivial) hchildren e hinside
  obtain ⟨g₁, g₂, ⟨-, hopen⟩, hadd, hafter⟩ :=
    kept_arranged.of_mem (kept_arranged.of_opening hf n hopening) hchildren hinside
  exact ⟨hhidden, g₁, g₂, hopen, hadd, ((growsTo_of_add hadd).trans hafter).trans hgrow⟩

include hf in
/-- The entries of a section that is left out show nothing. -/
theorem showing_of_leftOut (he : e ∈ n.entries sc) (shown : List (String × List Subcategory)) :
    e.showing ctx facts shown = shown := by
  rcases of_mem_entries hn hf htakes hgrow he with hfirst | ⟨hhidden, g₁, g₂, hopen, hadd, -⟩
  · cases n with
    | category route children =>
      have hexcluded : ctx.settings.excludes (Scope.categoryRoute route) = true := hn
      rw [List.mem_singleton.mp hfirst]
      simp [Entry.showing, hexcluded]
    | subcategory head children =>
      rw [List.mem_singleton.mp hfirst]
      simp [Entry.showing, isDisplayed_place hn]
    | topic | loop | gate | screen | assertion => exact hn.elim
  · exact showing_of_isHidden hhidden hopen hadd shown

include hf in
/-- The parts of a section that is left out lie in subcategories that are not displayed. -/
theorem exists_hidden_of_part {β : Type} {part? : Entry → Option β} {route : β → String}
    (hroute : ∀ {f g : Flow} {e : Entry}, f.add e = .ok g → ∀ {x : β}, part? e = some x →
      e.scope.subcategory = some (route x))
    {x : β} (hx : x ∈ (n.entries sc).filterMap part?) :
    ∃ s ∈ f.subcategories, s.route = route x ∧ isDisplayed ctx facts s = false := by
  obtain ⟨e, he, hpart⟩ := List.mem_filterMap.mp hx
  rcases of_mem_entries hn hf htakes hgrow he with hfirst | ⟨hhidden, g₁, g₂, hopen, hadd, hafter⟩
  · -- the section itself lies in no subcategory
    obtain ⟨g, hopening, -⟩ := takes_node_iff.mp htakes
    have hnone := subcategory_eq_none_of_opening hf.2 hn.isSection hopening
    have hsome := hroute (add_of_mem_opening hfirst hopening) hpart
    rw [scope_of_mem_opening hfirst, hnone] at hsome
    cases hsome
  · exact exists_hidden_of_isHidden hhidden hopen hafter (hroute hadd hpart)

end

/-! ## The checklist of the rest -/

/-- Steps that change nothing do so one after the other as well. -/
theorem foldl_of_unchanged {σ α : Type} {step : σ → α → σ} {xs : List α}
    (hsame : ∀ x ∈ xs, ∀ a, step a x = a) (a : σ) : xs.foldl step a = a := by
  induction xs with
  | nil => rfl
  | cons x xs ih =>
    rw [List.foldl_cons, hsame x List.mem_cons_self a]
    exact ih fun y hy => hsame y (List.mem_cons_of_mem x hy)

/-- What is left out by a filter may be taken out before. -/
theorem filter_of_none {α : Type} {p : α → Bool} {before inside after : List α}
    (hnone : ∀ x ∈ inside, p x = false) :
    (before ++ inside ++ after).filter p = (before ++ after).filter p := by
  have hinside : inside.filter p = [] :=
    List.filter_eq_nil_iff.mpr fun x hx => by simp [hnone x hx]
  rw [List.filter_append, List.filter_append, hinside, List.append_nil, List.filter_append]

/-- Screens and loops that are taken out are not missed by a subcategory that none of them lies
in. -/
theorem sameSection_of_parts {f' : Flow} {s : Subcategory} (hf : f.Arranged)
    {screens screens' screens'' : List Screen} {loops loops' loops'' : List Loop}
    (hscreens : f.screens = screens ++ screens' ++ screens'')
    (hrest : f'.screens = screens ++ screens'')
    (hloops : f.loops = loops ++ loops' ++ loops'') (hrest' : f'.loops = loops ++ loops'')
    (houtside : ∀ x ∈ screens', x.subcategoryRoute ≠ s.route)
    (houtside' : ∀ l ∈ loops', l.subcategoryRoute ≠ s.route) : SameSection f f' s where
  screens := by
    unfold screensOf
    rw [hscreens, hrest]
    exact filter_of_none fun x hx => decide_eq_false (houtside x hx)
  loops := by
    unfold loopsOf
    rw [hloops, hrest']
    exact filter_of_none fun l hl => decide_eq_false (houtside' l hl)
  members := by
    intro l hl
    obtain ⟨hl, hroute⟩ := mem_loopsOf.mp hl
    -- the screens of a loop lie in its subcategory
    have hother : ∀ x ∈ screens', x.loopName ≠ some l.name := by
      intro x hx hname
      have hmem : x ∈ f.screens := by
        rw [hscreens]
        exact List.mem_append_left _ (List.mem_append_right _ hx)
      obtain ⟨-, -, hsame⟩ := hf.of_mem_screensOfLoop hl (mem_screensOfLoop.mpr ⟨hmem, hname⟩)
      exact houtside x hx (hsame.trans hroute)
    unfold screensOfLoop
    rw [hscreens, hrest]
    exact filter_of_none fun x hx => decide_eq_false (hother x hx)

/-- A subcategory that is shown in a displayed category is displayed. -/
theorem exists_displayed_of_shown (hf : f.Arranged) {c : String × List Subcategory}
    (hc : c ∈ f.shownByCategory ctx facts) {s : Subcategory} (hs : s ∈ c.2) :
    ∃ t ∈ f.subcategories, isDisplayed ctx facts t = true ∧ s = unplaced t := by
  obtain ⟨category, hcategory, rfl⟩ := List.mem_map.mp hc
  obtain ⟨t, ht, rfl⟩ := List.mem_map.mp hs
  have hmem : t ∈ f.displayed ctx facts := by
    rw [← flatMap_displayedCategories hf]
    exact List.mem_flatMap.mpr ⟨category, hcategory, ht⟩
  obtain ⟨ht, hdisplayed⟩ := List.mem_filter.mp hmem
  exact ⟨t, ht, hdisplayed, rfl⟩

/-- **A section that is left out has no influence**: without it a flow is built as well, if there is
still a screen, and the checklist is the same. -/
theorem checklist_of_deletion {o : Outline} {ns : List Node} (hbuild : build o = .ok f)
    (hdeletion : Node.Deletion n o.nodes ns) (hn : n.IsLeftOut ctx facts)
    (hscreen : ∃ x ∈ Node.allSites [] ns, x.node.kind? = some .screen) :
    ∃ f', build { o with nodes := ns } = .ok f' ∧ ∀ submission,
      (f'.checklist ctx submission).run facts = (f.checklist ctx submission).run facts := by
  obtain ⟨f', hbuild'⟩ := exists_build_of_deletion hbuild hdeletion hn.isSection hscreen
  refine ⟨f', hbuild', fun submission => ?_⟩
  have hf := arranged_of_build hbuild
  obtain ⟨hfold, -⟩ := build_eq_ok.mp hbuild
  obtain ⟨hfold', -⟩ := build_eq_ok.mp hbuild'
  obtain ⟨before, sc, after, f₁, f₂, hentries, hrest, hf₁, htakes, hgrow⟩ :=
    exists_entries_eq kept_arranged hdeletion ⟨arranged_empty o.batches, isOpen_outermost _⟩ hfold
  change o.entries = _ at hentries
  change Outline.entries { o with nodes := ns } = _ at hrest
  have hshown : f.shownByCategory ctx facts = f'.shownByCategory ctx facts := by
    have hnothing := foldl_of_unchanged fun e he => showing_of_leftOut hn hf₁ htakes hgrow he
    rw [shownByCategory_of_build hbuild, shownByCategory_of_build hbuild', hentries, hrest,
      List.foldl_append, List.foldl_append, List.foldl_append, hnothing]
  have hscreens := screens_of_foldlM hfold
  have hscreens' := screens_of_foldlM hfold'
  have hloops := loops_of_foldlM hfold
  have hloops' := loops_of_foldlM hfold'
  rw [hentries, List.filterMap_append, List.filterMap_append] at hscreens hloops
  rw [hrest, List.filterMap_append] at hscreens' hloops'
  refine (run_checklist_congr hshown fun c hc s hs => ?_).symm
  obtain ⟨t, ht, hdisplayed, rfl⟩ := exists_displayed_of_shown hf hc hs
  -- a subcategory that is displayed is not one of those that are not
  have hother {r : String} (hr : ∃ u ∈ f.subcategories, u.route = r ∧
      isDisplayed ctx facts u = false) : r ≠ t.route := by
    rintro rfl
    obtain ⟨u, hu, hroute, hhidden⟩ := hr
    obtain rfl := List.inj_on_of_nodup_map hf.subcategoryRoutes hu ht hroute
    rw [hdisplayed] at hhidden
    cases hhidden
  refine sameSection_of_parts hf hscreens hscreens' hloops hloops' ?_ ?_
  · intro x hx
    exact hother (exists_hidden_of_part hn hf₁ htakes hgrow subcategory_of_screen? hx)
  · intro l hl
    exact hother (exists_hidden_of_part hn hf₁ htakes hgrow subcategory_of_loop? hl)

end Flow

/-! ### A household without guests

The section about guests stands between those about the family and about work, below a gate. It is
not displayed, and the settings exclude the last category. -/

namespace Household

/-- The section about guests, for those who have some. -/
def guests : Node :=
  .subcategory ⟨"guests", [], [.fact "/hasGuests" .isTrue], false, false, false, none⟩
    [page "guest" none true,
     .loop ⟨"stays", some "/stays", false, false, none, none, none⟩ [page "stay" none true]]

/-- The page for those who cannot go on. -/
def knockout : Node :=
  .category "knockout" [.subcategory ⟨"sorry", [], [], false, false, false, none⟩
    [page "sorry" none true]]

/-- The family and work, with some sections between them and some categories after them. -/
def sectionNodes (between after : List Node) : List Node :=
  .category "you" [
    .subcategory ⟨"family", [], [], false, false, false, none⟩ [page "start" none true],
    .gate (.fact "/isOpen" .isTrue) between,
    .subcategory ⟨"work", [], [], false, false, false, none⟩ [page "work" none true]] :: after

/-- The outline with the guests and the page for those who cannot go on. -/
def sectionOutline : Outline :=
  ⟨.empty, sectionNodes [guests] [knockout]⟩

/-- The flow of the outline. -/
def sectionFlow : Flow :=
  (Flow.build sectionOutline).toOption.getD (.empty .empty)

end Household

namespace Flow

open Household in
/-- Neither the guests nor the page for those who cannot go on are missed. -/
theorem checklist_of_deletion_household : build sectionOutline = .ok sectionFlow ∧
    ((sectionFlow.checklist default none).run (Household.facts [])).map
      (fun c => (c.route, c.rows.map (·.subcategoryRoute))) =
        [("/flow/you", ["/flow/you/family", "/flow/you/work"])] ∧
    (∃ f', build ⟨.empty, sectionNodes [] [knockout]⟩ = .ok f' ∧ ∀ submission,
      (f'.checklist default submission).run (Household.facts []) =
        (sectionFlow.checklist default submission).run (Household.facts [])) ∧
    ∃ f', build ⟨.empty, sectionNodes [guests] []⟩ = .ok f' ∧ ∀ submission,
      (f'.checklist default submission).run (Household.facts []) =
        (sectionFlow.checklist default submission).run (Household.facts []) := by
  have hbuild : build sectionOutline = .ok sectionFlow := rfl
  have hguests : Node.Deletion guests sectionOutline.nodes (sectionNodes [] [knockout]) :=
    .inside (.category "you" _) _ (.later _ (.inside (.gate _ _) _ (.here [])))
  have hknockout : Node.Deletion knockout sectionOutline.nodes (sectionNodes [guests] []) :=
    .later _ (.here [])
  refine ⟨hbuild, rfl, ?_, ?_⟩
  · refine checklist_of_deletion hbuild hguests ?_ ⟨_, .tail _ (.tail _ (.head _)), rfl⟩
    show (Condition.allHold default none _).run (Household.facts []) = false
    rfl
  · refine checklist_of_deletion hbuild hknockout ?_ ⟨_, .tail _ (.tail _ (.head _)), rfl⟩
    show Settings.default.excludes _ = true
    decide

end Flow

end Interview

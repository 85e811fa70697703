import Interview.Proofs.Passes

/-!
# Which items of a loop are shown

A filer who comes to a loop that leads from item to item is shown its items one after the other, in
the order of the collection. The loop is come into for the first item only: if none of its screens
is reached for that one, it is passed over, whatever there is to show for the others. It is
restarted for each next item, and the restart fails at the first one for which there is nothing to
show. So the items that can be shown are those before the first one without a screen
(`shownMembers`). They are taken up as long as each pass ends on a screen that is routed to
automatically, as only from there the loop is sure to be restarted (`takenUpMembers`).
-/

namespace Interview

variable {f : Flow} {ctx : Context} {facts : String → Fact} {l : Loop}

namespace Flow

/-! ## On the way to a loop -/

/-- Outside of loops that lead from item to item, no item is carried in a loop. -/
def DropsItem (f : Flow) (loop item : Option String) : Prop :=
  ∀ l ∈ f.loops, l.autoIterates = false → loop = some l.name → item = none

/-- A run is still before a loop, in its subcategory. -/
structure IsOnTheWay (f : Flow) (l : Loop) (p : Screen × Option String) : Prop where
  before : p.1 ∈ f.screensBefore l
  subcategory : p.1.subcategoryRoute = l.subcategoryRoute
  dropsItem : f.DropsItem p.1.loopName p.2

variable (facts) in
theorem dropsItem_looking (hf : f.Arranged) {t : ScanState} (ht : f.DropsItem t.loop t.item)
    {s : Screen} (hs : s ∈ f.screens) :
    f.DropsItem (t.looking facts s).loop (t.looking facts s).item := by
  intro l hl hauto hloop
  rw [ScanState.looking_loop] at hloop
  have hiterates : s.isAutoIterating = false :=
    (hf.isAutoIterating_of_mem hl (mem_screensOfLoop.mpr ⟨hs, hloop⟩)).trans hauto
  by_cases hsame : s.loopName = t.loop
  · rw [ScanState.looking_inside hsame (.inr hiterates)]
    exact ht l hl hauto (hsame.symm.trans hloop)
  · -- the loop changes, and with it the item goes
    rw [ScanState.looking_leaving (Ne.symm hsame) hiterates]

variable (facts) in
theorem dropsItem_past (hf : f.Arranged) {t : ScanState} (ht : f.DropsItem t.loop t.item)
    {xs : List Screen} (hxs : ∀ s ∈ xs, s ∈ f.screens) :
    f.DropsItem (t.past facts xs).loop (t.past facts xs).item := by
  induction xs generalizing t with
  | nil => exact ht
  | cons s xs ih =>
    exact ih (dropsItem_looking facts hf ht (hxs s List.mem_cons_self))
      fun x hx => hxs x (List.mem_cons_of_mem s hx)

/-- What comes before a screen that is before a loop comes before it and the loop, in this order. -/
theorem sublist_of_mem_screensBefore (hf : f.Arranged) {s t x : Screen}
    (hst : [s, t].Sublist f.screens) (ht : t ∈ f.screensBefore l) (hx : x ∈ f.screensOfLoop l) :
    [s, t, x].Sublist f.screens := by
  obtain ⟨past, heq, -⟩ := hf.exists_screens_eq l
  have hnodup : f.screens.Nodup := List.Nodup.of_map _ hf.screenRoutes
  rw [heq, List.append_assoc] at hst hnodup ⊢
  have hleft : ([s] ++ [t]).Sublist (f.screensBefore l) :=
    sublist_left hst fun hmem => (List.nodup_append.mp hnodup).2.2 t ht t hmem rfl
  exact hleft.append (List.singleton_sublist.mpr (List.mem_append_left past hx))

/-- Between a screen of the subcategory of a loop and the loop, the subcategory goes on. -/
theorem subcategoryRoute_eq_of_sublist (hf : f.Arranged) (hl : l ∈ f.loops) {s t x : Screen}
    (hst : [s, t].Sublist f.screens) (ht : t ∈ f.screensBefore l) (hx : x ∈ f.screensOfLoop l)
    (hs : s.subcategoryRoute = l.subcategoryRoute) : t.subcategoryRoute = l.subcategoryRoute := by
  have hroute := (hf.subcategoryStretch l.subcategoryRoute).mem_between
    (sublist_of_mem_screensBefore hf hst ht hx) (by simpa using hs)
    (by simpa using (hf.of_mem_screensOfLoop hl hx).2.2)
  simpa using hroute

/-- A loop that begins before another is before it. -/
theorem mem_screensBefore_of_loopName (hf : f.Arranged) {s t x : Screen}
    (hs : s ∈ f.screensBefore l) (ht : t ∈ f.screens) (hloop : s.loopName = t.loopName)
    (hin : t.loopName.isSome = true) (hx : x ∈ f.screensOfLoop l) : t ∈ f.screensBefore l := by
  have hne : t.loopName ≠ some l.name := hloop ▸ loopName_ne_of_mem_screensBefore hs
  obtain ⟨past, heq, -⟩ := hf.exists_screens_eq l
  rw [heq] at ht
  rcases List.mem_append.mp ht with ht | ht
  · rcases List.mem_append.mp ht with ht | ht
    · exact ht
    · exact absurd (mem_screensOfLoop.mp ht).2 hne
  · -- otherwise the other loop would lie in between
    have hsub : [s, x, t].Sublist f.screens := by
      rw [heq]
      exact ((List.singleton_sublist.mpr hs).append (List.singleton_sublist.mpr hx)).append
        (List.singleton_sublist.mpr ht)
    have hbetween := hf.loopName_between hsub hloop hin
    exact absurd (hbetween.symm.trans (mem_screensOfLoop.mp hx).2) hne

/-- Steps that do not get past the screens before a loop stay on the way. -/
theorem isOnTheWay_of_leads (hf : f.Arranged) (hl : l ∈ f.loops) {x : Screen}
    (hx : x ∈ f.screensOfLoop l) {p q : Screen × Option String} (hp : f.IsOnTheWay l p)
    (hleads : f.Leads ctx facts false p q) (hq : q.1 ∈ f.screensBefore l) :
    f.IsOnTheWay l q := by
  obtain ⟨s, item⟩ := p
  obtain ⟨t, item'⟩ := q
  have hs : s ∈ f.screens := (List.takeWhile_sublist _).subset hp.before
  have hnext : (f.next ctx s item false).run facts = .ok ⟨.screen t, item'⟩ := hleads
  rcases run_next_eq_screen hf hs hnext with
    ⟨l', hl', i, i', hauto, hlast, rfl, rfl, -, hfirst⟩ | ⟨xs, hxs, hscan⟩
  · have hsl' := mem_screensOfLoop_of_lastAt hlast
    have htl' := mem_screensOfLoop_of_firstAt hfirst
    refine ⟨hq, ?_, fun l'' hl'' hauto'' hloop => ?_⟩
    · rw [(hf.of_mem_screensOfLoop hl' htl').2.2, ← (hf.of_mem_screensOfLoop hl' hsl').2.2]
      exact hp.subcategory
    · -- the screen belongs to one loop only
      have htl'' : t ∈ f.screensOfLoop l'' :=
        mem_screensOfLoop.mpr ⟨(mem_screensOfLoop.mp htl').1, hloop⟩
      have hboth := (hf.isAutoIterating_of_mem hl' htl').symm.trans
        (hf.isAutoIterating_of_mem hl'' htl'')
      rw [hauto, hauto''] at hboth
      cases hboth
  · obtain ⟨before, after, hlater, rfl, -⟩ := run_scan_eq_some hscan
    have hsub := sublist_of_later hf hs hxs hlater
    refine ⟨hq, ?_, ?_⟩
    · have hst : [s, t].Sublist f.screens :=
        List.Sublist.trans ((List.sublist_append_right before [t]).cons_cons s) hsub
      exact subcategoryRoute_eq_of_sublist hf hl hst hq hx hp.subcategory
    · have hpast : f.DropsItem (ScanState.past facts ⟨s.loopName, item⟩ before).loop
          (ScanState.past facts ⟨s.loopName, item⟩ before).item :=
        dropsItem_past facts hf hp.dropsItem
          fun y hy => hsub.subset (List.mem_cons_of_mem s (List.mem_append_left [t] hy))
      have hdrops := dropsItem_looking facts hf hpast (hsub.subset (by simp) : t ∈ f.screens)
      rwa [ScanState.looking_loop] at hdrops

/-- All of a run that starts on the way to a loop and does not get past the screens before it is on
the way. -/
theorem isOnTheWay_of_isRun (hf : f.Arranged) (hl : l ∈ f.loops) {x : Screen}
    (hx : x ∈ f.screensOfLoop l) {start : Screen × Option String}
    {ps : List (Screen × Option String)} (hstart : f.IsOnTheWay l start)
    (hrun : f.IsRun ctx facts false start ps) (hbefore : ∀ p ∈ ps, p.1 ∈ f.screensBefore l) :
    ∀ p ∈ ps, f.IsOnTheWay l p :=
  hrun.forall_mem hstart fun _ q hq hleads hp =>
    isOnTheWay_of_leads hf hl hx hp hleads (hbefore q hq)

/-! ## The end of the way -/

/-- How a run gets past the screens before a loop: a restart of an earlier loop fails, or a scan
finds nothing before the loop. -/
theorem error_or_scan_of_isOnTheWay (hf : f.Arranged) (hl : l ∈ f.loops) {x : Screen}
    (hx : x ∈ f.screensOfLoop l) {p : Screen × Option String} (hp : f.IsOnTheWay l p)
    (hleaves : ∀ q, f.Leads ctx facts false p q → q.1 ∉ f.screensBefore l) :
    (∃ l' ∈ f.loops, l'.name ≠ l.name ∧ ∃ i,
      (f.next ctx p.1 p.2 false).run facts = .error (.noScreenForItem l'.name i)) ∨
    (f.endOfLoop ctx p.1 p.2).run facts = .ok none ∧
      (scan ctx ⟨p.1.loopName, p.2⟩ (p.1.later (f.screensBefore l))).run facts = none := by
  obtain ⟨s, item⟩ := p
  have hprefix : (f.screensBefore l).Sublist f.screens := List.takeWhile_sublist _
  have hs : s ∈ f.screens := hprefix.subset hp.before
  by_cases hend : (f.endOfLoop ctx s item).run facts = .ok none
  · right
    refine ⟨hend, ?_⟩
    cases hscan : (scan ctx ⟨s.loopName, item⟩ (s.later (f.screensBefore l))).run facts with
    | none => rfl
    | some found =>
      -- the scan would lead to a screen before the loop
      obtain ⟨t, item'⟩ := found
      obtain ⟨before, after, hlater, -, -⟩ := run_scan_eq_some hscan
      obtain ⟨past, hscreens, hbefore, -⟩ := exists_later_screensBefore hf hp.before
      have ht : t ∈ f.screensBefore l := hbefore t (hlater ▸ by simp)
      have hst : [s, t].Sublist f.screens :=
        List.Sublist.trans ((List.sublist_append_right before [t]).cons_cons s)
          (sublist_of_later hf hs hprefix hlater)
      have hsub := subcategoryRoute_eq_of_sublist hf hl hst ht hx hp.subcategory
      have hleads : f.Leads ctx facts false (s, item) (t, item') := by
        show (f.next ctx s item false).run facts = .ok ⟨.screen t, item'⟩
        rw [run_next, hend, hscreens, run_scan_append, hscan, Option.some_or]
        exact run_leave_same _ _ (hp.subcategory.trans hsub.symm)
      exact absurd ht (hleaves _ hleads)
  · left
    obtain ⟨l', hl', i, rfl, hsl', hlast, hafter⟩ := exists_of_run_endOfLoop hf hs hend
    have hname := (mem_screensOfLoop.mp hsl').2
    have hauto : l'.autoIterates = true := by
      cases hauto : l'.autoIterates with
      | true => rfl
      | false => exact absurd (hp.dropsItem l' hl' hauto hname) (Option.some_ne_none i)
    have hne : l'.name ≠ l.name := fun h =>
      loopName_ne_of_mem_screensBefore hp.before (hname.trans (congrArg some h))
    refine ⟨l', hl', hne, ?_⟩
    rw [hafter, afterPass, if_pos hauto] at hend
    cases hnext : itemAfter i (facts l'.collection).items with
    | none => simp [hnext] at hend
    | some i' =>
      cases hfirst : f.firstAt ctx facts l' i' with
      | none => exact ⟨i', run_next_restart_error hf hl' hauto hlast hnext hfirst false⟩
      | some t =>
        -- the restart would lead to a screen before the loop
        have ht := mem_screensOfLoop.mp (mem_screensOfLoop_of_firstAt hfirst)
        exact absurd (mem_screensBefore_of_loopName hf hp.before ht.1 (hname.trans ht.2.symm)
          (by rw [ht.2]; rfl) hx) (hleaves _ (leads_restart hf hl' hauto hlast hnext hfirst false))

/-! ## The members that are shown -/

/-- The items of a loop before the first one for which it has nothing to show. -/
def shownMembers (f : Flow) (ctx : Context) (facts : String → Fact) (l : Loop) : List String :=
  (facts l.collection).items.takeWhile fun i => (f.firstAt ctx facts l i).isSome

/-- The items of a loop from the first one on for which it has nothing to show. -/
def remainingMembers (f : Flow) (ctx : Context) (facts : String → Fact) (l : Loop) : List String :=
  (facts l.collection).items.dropWhile fun i => (f.firstAt ctx facts l i).isSome

variable (f ctx facts l) in
theorem shownMembers_append_remainingMembers :
    f.shownMembers ctx facts l ++ f.remainingMembers ctx facts l = (facts l.collection).items :=
  List.takeWhile_append_dropWhile

theorem exists_firstAt_of_mem_shownMembers {i : String} (hi : i ∈ f.shownMembers ctx facts l) :
    ∃ first, f.firstAt ctx facts l i = some first :=
  Option.isSome_iff_exists.mp (List.all_eq_true.mp List.all_takeWhile i hi)

theorem firstAt_of_remainingMembers {i : String}
    (hi : (f.remainingMembers ctx facts l).head? = some i) : f.firstAt ctx facts l i = none := by
  have hhead := List.head?_dropWhile_not (fun i => (f.firstAt ctx facts l i).isSome)
    (facts l.collection).items
  unfold remainingMembers at hi
  rw [hi] at hhead
  simpa using hhead

/-- The items of a loop that are taken up: those that are shown, up to and with the first one whose
pass does not end on a screen that is routed to automatically. -/
def takenUpMembers (f : Flow) (ctx : Context) (facts : String → Fact) (l : Loop) : List String :=
  (f.shownMembers ctx facts l).takeWhile (f.isPassable ctx facts l) ++
    ((f.shownMembers ctx facts l).dropWhile (f.isPassable ctx facts l)).take 1

variable (f ctx facts l) in
theorem takenUpMembers_isPrefix :
    f.takenUpMembers ctx facts l <+: f.shownMembers ctx facts l := by
  have hprefix := (List.prefix_append_right_inj
    ((f.shownMembers ctx facts l).takeWhile (f.isPassable ctx facts l))).mpr
    (List.take_prefix 1 ((f.shownMembers ctx facts l).dropWhile (f.isPassable ctx facts l)))
  rwa [List.takeWhile_append_dropWhile] at hprefix

/-- Every item that is taken up and has a successor among them can be passed. -/
theorem isPassable_of_mem_dropLast {i : String}
    (hi : i ∈ (f.takenUpMembers ctx facts l).dropLast) : f.isPassable ctx facts l i = true := by
  unfold takenUpMembers at hi
  cases hrest : (f.shownMembers ctx facts l).dropWhile (f.isPassable ctx facts l) with
  | nil =>
    rw [hrest, List.take_nil, List.append_nil] at hi
    exact List.mem_takeWhile_imp (List.dropLast_subset _ hi)
  | cons j rest =>
    rw [hrest, List.take_succ_cons, List.take_zero, List.dropLast_concat] at hi
    exact List.mem_takeWhile_imp hi

/-- If all that are taken up can be passed, all that are shown are taken up. -/
theorem takenUpMembers_eq_shownMembers
    (h : ∀ i ∈ f.takenUpMembers ctx facts l, f.isPassable ctx facts l i = true) :
    f.takenUpMembers ctx facts l = f.shownMembers ctx facts l := by
  unfold takenUpMembers at h ⊢
  cases hrest : (f.shownMembers ctx facts l).dropWhile (f.isPassable ctx facts l) with
  | nil =>
    have hsplit := List.takeWhile_append_dropWhile (p := f.isPassable ctx facts l)
      (l := f.shownMembers ctx facts l)
    rwa [hrest] at hsplit
  | cons j rest =>
    -- the one that the items are split at cannot be passed
    have hj := List.head?_dropWhile_not (f.isPassable ctx facts l) (f.shownMembers ctx facts l)
    rw [hrest] at h hj
    have hpassable : f.isPassable ctx facts l j = true := h j (by simp)
    exact absurd (hpassable.symm.trans hj) (by decide)

/-- The first item is taken up if a screen can be shown for it. -/
theorem exists_takenUpMembers_eq {i : String} {items : List String}
    (hitems : (facts l.collection).items = i :: items) {first : Screen}
    (hfirst : f.firstAt ctx facts l i = some first) :
    ∃ members, f.takenUpMembers ctx facts l = i :: members := by
  have hshown : f.shownMembers ctx facts l =
      i :: items.takeWhile fun i => (f.firstAt ctx facts l i).isSome := by
    rw [shownMembers, hitems, List.takeWhile_cons_of_pos (by rw [hfirst]; rfl)]
  unfold takenUpMembers
  rw [hshown, List.takeWhile_cons, List.dropWhile_cons]
  split
  · exact ⟨_, rfl⟩
  · exact ⟨[], rfl⟩

/-- A list of places shows some items of a loop one after the other, and nothing else: each on at
least one screen, on screens that can be shown for it, and in the order of the loop. -/
inductive ShowsMembers (f : Flow) (ctx : Context) (facts : String → Fact) (l : Loop) :
    List String → List (Screen × Option String) → Prop
  | nil : ShowsMembers f ctx facts l [] []
  | cons {i : String} {members : List String} {xs : List Screen}
      {ps : List (Screen × Option String)} (hne : xs ≠ [])
      (horder : xs.Sublist (f.screensOfLoop l))
      (havail : ∀ s ∈ xs, s.availableAt ctx facts (some i) = true)
      (hrest : ShowsMembers f ctx facts l members ps) :
      ShowsMembers f ctx facts l (i :: members) (xs.map (·, some i) ++ ps)

theorem showsMembers_passFrom (hf : f.Arranged) {i : String} {s : Screen}
    (hs : s ∈ f.screensOfLoop l) (havail : s.availableAt ctx facts (some i) = true)
    {members : List String} {ps : List (Screen × Option String)}
    (hrest : f.ShowsMembers ctx facts l members ps) :
    f.ShowsMembers ctx facts l (i :: members) (f.passFrom ctx facts l i s ++ ps) := by
  obtain ⟨before, after, heq⟩ := List.append_of_mem hs
  refine .cons (List.cons_ne_nil _ _) ?_ ?_ hrest
  · rw [later_screensOfLoop hf heq, heq]
    exact (List.filter_sublist.cons_cons s).trans (List.sublist_append_right before _)
  · refine List.forall_mem_cons.mpr ⟨havail, fun x hx => ?_⟩
    exact (Bool.and_eq_true_iff.mp (List.mem_filter.mp hx).2).2

theorem showsMembers_passes (hf : f.Arranged) {members : List String}
    (hmembers : ∀ i ∈ members, ∃ first, f.firstAt ctx facts l i = some first) :
    f.ShowsMembers ctx facts l members (f.passes ctx facts l members) := by
  induction members with
  | nil => exact .nil
  | cons i members ih =>
    obtain ⟨first, hfirst⟩ := hmembers i List.mem_cons_self
    have hrest := ih fun j hj => hmembers j (List.mem_cons_of_mem i hj)
    rw [passes_cons hfirst]
    exact showsMembers_passFrom hf (mem_screensOfLoop_of_firstAt hfirst) (List.find?_some hfirst)
      hrest

/-- Without items no screen of a loop that leads from item to item is reached. -/
theorem find?_eq_none_of_items_nil (hf : f.Arranged) (hl : l ∈ f.loops)
    (hauto : l.autoIterates = true) (hitems : (facts l.collection).items = [])
    (item : Option String) : (f.screensOfLoop l).find? (·.reachedAt ctx facts item) = none := by
  refine List.find?_eq_none.mpr fun s hs => ?_
  have havail : s.availableAt ctx facts item = false :=
    availableAt_eq_false_of_items_nil ((hf.isAutoIterating_of_mem hl hs).trans hauto)
      (hf.of_mem_screensOfLoop hl hs).2.1 hitems
  simp [Screen.reachedAt, havail]

/-- Going on from the end of the way: the loop is come into for its first item, and the items are
taken up. What is shown ends with the pass over the last of them. -/
theorem exists_shown_of_scan (hf : f.Arranged) (hl : l ∈ f.loops) (hauto : l.autoIterates = true)
    (hdistinct : (facts l.collection).items.Nodup) {p : Screen × Option String}
    (hp : f.IsOnTheWay l p) (hend : (f.endOfLoop ctx p.1 p.2).run facts = .ok none)
    (hscan : (scan ctx ⟨p.1.loopName, p.2⟩ (p.1.later (f.screensBefore l))).run facts = none)
    {i : String} {items : List String} (hitems : (facts l.collection).items = i :: items)
    {t : Screen} (ht : (f.screensOfLoop l).find? (·.reachedAt ctx facts (some i)) = some t) :
    ∃ qs last, (qs ++ [last]).IsChain (f.Leads ctx facts false) ∧
      (∀ q ∈ (qs ++ [last]).head?, f.Leads ctx facts false p q) ∧
      f.ShowsMembers ctx facts l (f.takenUpMembers ctx facts l) (qs ++ [last]) ∧
      ∃ done j rest s, (facts l.collection).items = f.takenUpMembers ctx facts l ++ rest ∧
        (facts l.collection).items = done ++ j :: rest ∧ j ∈ f.takenUpMembers ctx facts l ∧
        s ∈ f.screensOfLoop l ∧ s.availableAt ctx facts (some j) = true ∧
        (f.passFrom ctx facts l j s).getLast? = some last := by
  have hmem := List.mem_of_find?_eq_some ht
  have hreached : t.reachedAt ctx facts (some i) = true := List.find?_some ht
  have havail := (Bool.and_eq_true_iff.mp hreached).2
  obtain ⟨first, hfirst⟩ := exists_firstAt hmem havail
  obtain ⟨members, hmembers⟩ := exists_takenUpMembers_eq hitems hfirst
  -- the items that are taken up come first among all items
  obtain ⟨rest, hrest⟩ : f.takenUpMembers ctx facts l <+: (facts l.collection).items :=
    (f.takenUpMembers_isPrefix ctx facts l).trans (List.takeWhile_prefix _)
  have hshown : ∀ j ∈ members, ∃ first, f.firstAt ctx facts l j = some first := by
    intro j hj
    refine exists_firstAt_of_mem_shownMembers ((f.takenUpMembers_isPrefix ctx facts l).subset ?_)
    rw [hmembers]
    exact List.mem_cons_of_mem i hj
  have hpassable : ∀ j ∈ (i :: members).dropLast, f.isPassable ctx facts l j = true :=
    fun j hj => isPassable_of_mem_dropLast (hmembers ▸ hj)
  have hsplit : (facts l.collection).items = [] ++ i :: (members ++ rest) := by
    rw [← hrest, hmembers]
    rfl
  obtain ⟨hchain, done, j, s, hdone, hj, hs, hsavail, hlast⟩ :=
    isChain_passes hf hl hauto hdistinct hsplit hmem havail hshown hpassable
  obtain ⟨qs, last, hqs⟩ : ∃ qs last,
      f.passFrom ctx facts l i t ++ f.passes ctx facts l members = qs ++ [last] :=
    ⟨_, _, (List.dropLast_append_getLast (by simp [passFrom])).symm⟩
  refine ⟨qs, last, ?_, ?_, ?_, done, j, rest, s, hrest.symm, hdone, ?_, hs, hsavail, ?_⟩
  · rw [← hqs]
    exact hchain
  · intro q hq
    rw [← hqs] at hq
    obtain rfl : (t, some i) = q := by simpa [passFrom] using hq
    exact leads_entry hf hl hauto hp.before hp.subcategory hend hscan (by rw [hitems]; rfl) ht
  · rw [← hqs, hmembers]
    exact showsMembers_passFrom hf hmem havail (showsMembers_passes hf hshown)
  · rw [hmembers]
    exact List.mem_of_getLast? hj
  · rw [← hlast, hqs]
    exact List.getLast?_concat

/-- **The members that are shown.** A run that starts before a loop, in its subcategory and outside
of loops, and has gone past the screens before the loop, has failed in an earlier loop, or passes
over the loop because none of its screens is reached for the first item, or shows the items that are
taken up one after the other. If these are all items, it then leaves the loop. If the pass over each
of them ends on a screen that is routed to automatically, they are all that come before the first
item for which there is nothing to show, and there the run fails. -/
theorem members_shown_in_order {o : Outline} (hbuild : build o = .ok f) (hl : l ∈ f.loops)
    (hauto : l.autoIterates = true) (hdistinct : (facts l.collection).items.Nodup)
    {c : Screen} {item : Option String} (hc : c ∈ f.screensBefore l)
    (hsub : c.subcategoryRoute = l.subcategoryRoute) (hout : c.membership = none)
    {ps : List (Screen × Option String)} {p : Screen × Option String}
    (hrun : f.IsRun ctx facts false (c, item) (ps ++ [p]))
    (hbefore : ∀ q ∈ ps ++ [p], q.1 ∈ f.screensBefore l)
    (hpast : ∀ q, f.Leads ctx facts false p q → q.1 ∉ f.screensBefore l) :
    (∃ l' ∈ f.loops, l'.name ≠ l.name ∧ ∃ i,
      (f.next ctx p.1 p.2 false).run facts = .error (.noScreenForItem l'.name i)) ∨
    ((∀ i ∈ (facts l.collection).items.head?, ∀ s ∈ f.screensOfLoop l,
        s.reachedAt ctx facts (some i) = false) ∧
      ∀ q, f.Leads ctx facts false p q → q.1 ∉ f.screensOfLoop l) ∨
    ∃ qs last, f.IsRun ctx facts false (c, item) (ps ++ [p] ++ (qs ++ [last])) ∧
      f.ShowsMembers ctx facts l (f.takenUpMembers ctx facts l) (qs ++ [last]) ∧
      (f.takenUpMembers ctx facts l = (facts l.collection).items →
        ∀ q, f.Leads ctx facts false last q → q.1 ∉ f.screensOfLoop l) ∧
      ((∀ i ∈ f.takenUpMembers ctx facts l, f.isPassable ctx facts l i = true) →
        f.takenUpMembers ctx facts l = f.shownMembers ctx facts l ∧
        ∀ i, (f.remainingMembers ctx facts l).head? = some i →
          (f.next ctx last.1 last.2 false).run facts = .error (.noScreenForItem l.name i)) := by
  have hf := arranged_of_build hbuild
  by_cases hx : ∃ x, x ∈ f.screensOfLoop l
  · obtain ⟨x, hx⟩ := hx
    have hstart : f.IsOnTheWay l (c, item) :=
      ⟨hc, hsub, fun l' _ _ hloop => by simp [Screen.loopName, hout] at hloop⟩
    have hp : f.IsOnTheWay l p :=
      isOnTheWay_of_isRun hf hl hx hstart hrun hbefore p List.mem_concat_self
    rcases error_or_scan_of_isOnTheWay hf hl hx hp hpast with herror | ⟨hend, hscan⟩
    · exact .inl herror
    right
    cases hentry : (f.screensOfLoop l).find?
        (·.reachedAt ctx facts (facts l.collection).items.head?) with
    | none =>
      left
      refine ⟨fun i hi s hs => ?_, fun q hleads =>
        not_mem_of_leads_over hf hl hauto hp.before hend hscan hentry hleads⟩
      rw [Option.mem_def.mp hi] at hentry
      simpa using List.find?_eq_none.mp hentry s hs
    | some t =>
      right
      obtain ⟨i, items, hitems⟩ : ∃ i items, (facts l.collection).items = i :: items := by
        refine List.exists_cons_of_ne_nil fun hnil => ?_
        rw [find?_eq_none_of_items_nil hf hl hauto hnil] at hentry
        cases hentry
      rw [hitems] at hentry
      obtain ⟨qs, last, hchain, hleads, hshows, done, j, rest, s, hall, hdone, hj, hs, havail,
        hlast⟩ := exists_shown_of_scan hf hl hauto hdistinct hp hend hscan hitems hentry
      have hnext := itemAfter_eq hdistinct hdone
      refine ⟨qs, last, ⟨?_, ?_⟩, hshows, fun heq q hq => ?_, fun hpassable => ?_⟩
      · rw [List.head?_append, hrun.starts, Option.some_or]
      · refine hrun.leads.append hchain fun x hx y hy => ?_
        obtain rfl : p = x := by simpa using hx
        exact hleads y hy
      · have hrest : rest = [] := by simpa [heq] using hall
        rw [hrest] at hnext
        exact not_mem_of_leads_end hf hl hauto hs hlast hnext hq
      · have hshown := takenUpMembers_eq_shownMembers hpassable
        refine ⟨hshown, fun k hk => ?_⟩
        -- what is left begins with an item for which there is nothing to show
        have hrest : rest = f.remainingMembers ctx facts l := by
          rw [← f.shownMembers_append_remainingMembers ctx facts l, hshown] at hall
          exact (List.append_cancel_left hall).symm
        rw [hrest, hk] at hnext
        exact run_next_error_of_end hf hl hauto hs havail (hpassable j hj) hlast hnext
          (firstAt_of_remainingMembers hk) false
  · -- a loop without screens shows nothing
    right
    left
    exact ⟨fun _ _ s hs => absurd ⟨s, hs⟩ hx, fun q _ hq => hx ⟨q.1, hq⟩⟩

/-- The people of the household are shown one after the other, and then the loop is left. -/
theorem members_shown_household :
    let facts := Household.facts ["/people/#ann/isNew", "/people/#bob/isStudent"]
    ∃ qs last, Household.flow.IsRun default facts false (Household.screen 0, none)
        ((Household.screen 0, none) :: (qs ++ [last])) ∧
      Household.flow.ShowsMembers default facts Household.people ["ann", "bob"] (qs ++ [last]) ∧
      ∀ q, Household.flow.Leads default facts false last q →
        q.1 ∉ Household.flow.screensOfLoop Household.people := by
  intro facts
  have hnext : (Household.flow.next default (Household.screen 0) none false).run facts =
      .ok ⟨.screen (Household.screen 1), some "ann"⟩ := rfl
  have hrun : Household.flow.IsRun default facts false (Household.screen 0, none)
      ([] ++ [(Household.screen 0, none)]) := ⟨rfl, .singleton _⟩
  have hmembers := members_shown_in_order (l := Household.people) Household.build_outline
    (by decide) rfl (by decide) (by decide) rfl rfl hrun (by decide) (fun q hleads => by
      obtain ⟨hscreen, -⟩ := Arrival.mk.inj (Except.ok.inj (hnext.symm.trans hleads))
      rw [← Destination.screen.inj hscreen]
      decide)
  rcases hmembers with ⟨l, -, -, i, herror⟩ | ⟨hnone, -⟩ | ⟨qs, last, hrun, hshows, hleaves, -⟩
  · cases hnext.symm.trans herror
  · exact absurd (hnone "ann" rfl (Household.screen 1) (by decide)) (by decide)
  · exact ⟨qs, last, hrun, hshows, hleaves rfl⟩

/-- **Not every member is shown** before a run gets past the loop: if there is nothing to show for
the first member, all are passed over. If there is nothing to show for a later one, the loop fails
there, and if a pass ends on a screen that the filer is not led to, the next member is not taken
up. -/
theorem not_every_member_shown :
    (¬ ∀ (o : Outline) (f : Flow) (ctx : Context) (facts : String → Fact) (l : Loop) (c : Screen)
        (item : Option String) (ps : List (Screen × Option String)) (p : Screen × Option String),
      build o = .ok f → l ∈ f.loops → l.autoIterates = true →
      (facts l.collection).items.Nodup →
      c ∈ f.screensBefore l → c.subcategoryRoute = l.subcategoryRoute → c.membership = none →
      f.IsRun ctx facts false (c, item) (ps ++ [p]) →
      p.1 ∉ f.screensBefore l → p.1 ∉ f.screensOfLoop l →
      ∀ i ∈ (facts l.collection).items,
        (∃ s ∈ f.screensOfLoop l, s.reachedAt ctx facts (some i) = true) →
        ∃ s ∈ f.screensOfLoop l, (s, some i) ∈ ps) ∧
    (Household.flow.next default (Household.screen 1) (some "ann") false).run
      (Household.facts ["/people/#ann/isNew"]) = .error (.noScreenForItem "people" "bob") ∧
    (Household.screen 6).reachedAt default (Household.facts []) (some "dog") = true ∧
      (Household.flow.next default (Household.screen 6) (some "cat") false).run
        (Household.facts []) = .ok ⟨.screen (Household.screen 8), none⟩ := by
  refine ⟨fun hall => ?_, rfl, rfl, rfl⟩
  have hleads : Household.flow.Leads default (Household.facts ["/people/#bob/isNew"]) false
      (Household.screen 0, none) (Household.screen 3, none) := rfl
  obtain ⟨s, -, hs⟩ := hall Household.outline Household.flow default
    (Household.facts ["/people/#bob/isNew"]) Household.people (Household.screen 0) none
    [(Household.screen 0, none)] (Household.screen 3, none) Household.build_outline (by decide) rfl
    (by decide) (by decide) rfl rfl ⟨rfl, .cons_cons hleads (.singleton _)⟩ (by decide) (by decide)
    "bob" (by decide) (by decide)
  cases Option.some_ne_none "bob" (Prod.mk.inj (List.mem_singleton.mp hs)).2

end Flow

end Interview

import Interview.Proofs.Routing

/-!
# Passes through a loop

A pass shows the screens of a loop for one item. It goes on from screen to screen by scanning
(`leads_inside`) and ends at the last screen that can be shown for the item, if that is routed to
automatically (`getLast?_passFrom`). From there the loop is restarted for the next item
(`leads_restart`), or the restart fails (`run_next_error_of_end`). After the last item the loop is
left, wherever the pass ends (`not_mem_of_leads_end`); a loop that does not lead from item to item
returns to its overview (`run_next_overview`).
-/

namespace Interview

variable {f : Flow} {ctx : Context} {facts : String → Fact} {l : Loop} {s t : Screen} {i : String}

namespace Flow

/-! ## The last screen of a pass -/

theorem nodup_screensOfLoop (hf : f.Arranged) (l : Loop) : (f.screensOfLoop l).Nodup :=
  (List.Nodup.of_map _ hf.screenRoutes).filter _

/-- What the last screen of a pass is: it can be shown, and none after it can. -/
theorem exists_split_of_lastAt (h : f.lastAt ctx facts l i = some s) : ∃ before after,
    f.screensOfLoop l = before ++ s :: after ∧ s.availableAt ctx facts (some i) = true ∧
      ∀ x ∈ after, x.availableAt ctx facts (some i) = false := by
  obtain ⟨havail, xs, ys, heq, hxs⟩ := List.find?_eq_some_iff_append.mp h
  refine ⟨ys.reverse, xs.reverse, ?_, havail, fun x hx => ?_⟩
  · rw [← List.reverse_reverse (f.screensOfLoop l), heq]
    simp
  · simpa using hxs x (List.mem_reverse.mp hx)

/-- The last screen of a pass is found among the last screens of the loop, if one of them can be
shown. -/
theorem exists_lastAt {before after : List Screen} (heq : f.screensOfLoop l = before ++ after)
    (ht : t ∈ after) (havail : t.availableAt ctx facts (some i) = true) :
    ∃ e ∈ after, f.lastAt ctx facts l i = some e := by
  have hsome : (after.reverse.find? (·.availableAt ctx facts (some i))).isSome = true :=
    List.find?_isSome.mpr ⟨t, List.mem_reverse.mpr ht, havail⟩
  obtain ⟨e, he⟩ := Option.isSome_iff_exists.mp hsome
  refine ⟨e, List.mem_reverse.mp (List.mem_of_find?_eq_some he), ?_⟩
  rw [lastAt, heq, List.reverse_append, List.find?_append, he, Option.some_or]

/-! ## Steps -/

/-- A step that scans screens past a loop does not lead into it. -/
theorem not_mem_of_leads_past {item : Option String} {state : ScanState} {past : List Screen}
    (hend : (f.endOfLoop ctx s item).run facts = .ok none)
    (hscan : (scan ctx ⟨s.loopName, item⟩ (s.later f.screens)).run facts =
      (scan ctx state past).run facts)
    (hpast : ∀ x ∈ past, x.loopName ≠ some l.name) {q : Screen × Option String}
    (hleads : f.Leads ctx facts false (s, item) q) : q.1 ∉ f.screensOfLoop l := by
  unfold Leads at hleads
  rw [run_next, hend, hscan] at hleads
  cases hfound : (scan ctx state past).run facts with
  | none => simp [hfound] at hleads
  | some found =>
    rw [hfound] at hleads
    rcases eq_of_run_leave hleads with rfl | ⟨hreview, -⟩
    · obtain ⟨before, after, rfl, -⟩ := run_scan_eq_some hfound
      exact fun hmem => hpast q.1 (by simp) (mem_screensOfLoop.mp hmem).2
    · cases hreview

section

variable (hf : f.Arranged) (hl : l ∈ f.loops)

include hf hl

/-- Within a pass, a step leads to the next screen that is reached. -/
theorem leads_inside {before middle after : List Screen}
    (heq : f.screensOfLoop l = before ++ s :: (middle ++ t :: after))
    (hmiddle : ∀ x ∈ middle, x.reachedAt ctx facts (some i) = false)
    (ht : t.reachedAt ctx facts (some i) = true) :
    f.Leads ctx facts false (s, some i) (t, some i) := by
  have hmem : ∀ x ∈ s :: (middle ++ t :: after), x ∈ f.screensOfLoop l := fun x hx =>
    heq ▸ List.mem_append_right before hx
  have hs := hmem s List.mem_cons_self
  have htl := hmem t (by simp)
  -- the pass does not end here, because a later screen can be shown
  have hlast : f.lastAt ctx facts l i ≠ some s := by
    rw [List.append_cons] at heq
    obtain ⟨e, he, hlast⟩ := exists_lastAt heq (by simp) (Bool.and_eq_true_iff.mp ht).2
    have hnodup := nodup_screensOfLoop hf l
    rw [heq, List.nodup_append] at hnodup
    rw [hlast]
    rintro ⟨rfl⟩
    exact hnodup.2.2 _ List.mem_concat_self _ he rfl
  have hscan : (scan ctx ⟨s.loopName, some i⟩ (s.later f.screens)).run facts =
      some (t, some i) := by
    obtain ⟨past, hlater, -⟩ := exists_later_eq hf heq
    have hloop : ∀ x ∈ middle ++ t :: after, x.loopName = s.loopName := fun x hx => by
      rw [(mem_screensOfLoop.mp hs).2]
      exact (mem_screensOfLoop.mp (hmem x (List.mem_cons_of_mem s hx))).2
    have hfind : (middle ++ t :: after).find? (·.reachedAt ctx facts (some i)) = some t :=
      List.find?_eq_some_iff_append.mpr ⟨ht, middle, after, rfl, by simpa using hmiddle⟩
    rw [hlater, run_scan_append, run_scan_inside hloop (.inl rfl), hfind]
    rfl
  have hsub : s.subcategoryRoute = t.subcategoryRoute :=
    (hf.of_mem_screensOfLoop hl hs).2.2.trans (hf.of_mem_screensOfLoop hl htl).2.2.symm
  show (f.next ctx s (some i) false).run facts = .ok ⟨.screen t, some i⟩
  rw [run_next, run_endOfLoop hf hl hs, if_neg hlast, hscan]
  exact run_leave_same _ _ hsub

/-- What a step does at the end of a pass, as long as the loop is not left. -/
theorem run_next_of_lastAt (hlast : f.lastAt ctx facts l i = some s) {arrival : Arrival}
    (hafter : f.afterPass ctx facts l i = .ok (some arrival)) (review : Bool) :
    (f.next ctx s (some i) review).run facts = .ok arrival := by
  rw [run_next, run_endOfLoop hf hl (mem_screensOfLoop_of_lastAt hlast), if_pos hlast, hafter]

/-- At the end of a pass, a loop that leads from item to item is restarted for the next item. -/
theorem leads_restart (hauto : l.autoIterates = true) (hlast : f.lastAt ctx facts l i = some s)
    {i' : String} (hnext : itemAfter i (facts l.collection).items = some i')
    (hfirst : f.firstAt ctx facts l i' = some t) (review : Bool) :
    f.Leads ctx facts review (s, some i) (t, some i') := by
  refine run_next_of_lastAt hf hl hlast ?_ review
  rw [afterPass, if_pos hauto, hnext]
  simp only [hfirst]

/-- A restart fails if no screen can be shown for the next item. -/
theorem run_next_restart_error (hauto : l.autoIterates = true)
    (hlast : f.lastAt ctx facts l i = some s) {i' : String}
    (hnext : itemAfter i (facts l.collection).items = some i')
    (hfirst : f.firstAt ctx facts l i' = none) (review : Bool) :
    (f.next ctx s (some i) review).run facts = .error (.noScreenForItem l.name i') := by
  rw [run_next, run_endOfLoop hf hl (mem_screensOfLoop_of_lastAt hlast), if_pos hlast, afterPass,
    if_pos hauto, hnext]
  simp only [hfirst]

/-- At the end of a pass, any other loop returns to its overview. -/
theorem run_next_overview (hauto : l.autoIterates = false)
    (hlast : f.lastAt ctx facts l i = some s) (review : Bool) :
    (f.next ctx s (some i) review).run facts = .ok ⟨.loopDataView l.name, some i⟩ := by
  refine run_next_of_lastAt hf hl hlast ?_ review
  rw [afterPass, hauto]
  rfl

/-- For the last item, a loop that leads from item to item is left where nothing after a screen is
reached. -/
theorem not_mem_of_leads_out (hauto : l.autoIterates = true) {before after : List Screen}
    (heq : f.screensOfLoop l = before ++ s :: after)
    (hafter : ∀ x ∈ after, x.reachedAt ctx facts (some i) = false)
    (hnext : itemAfter i (facts l.collection).items = none) {q : Screen × Option String}
    (hleads : f.Leads ctx facts false (s, some i) q) : q.1 ∉ f.screensOfLoop l := by
  have hmem : ∀ x ∈ s :: after, x ∈ f.screensOfLoop l := fun x hx =>
    heq ▸ List.mem_append_right before hx
  have hs := hmem s List.mem_cons_self
  obtain ⟨past, hlater, hpast⟩ := exists_later_eq hf heq
  have hloop : ∀ x ∈ after, x.loopName = s.loopName := fun x hx => by
    rw [(mem_screensOfLoop.mp hs).2]
    exact (mem_screensOfLoop.mp (hmem x (List.mem_cons_of_mem s hx))).2
  -- the scan finds nothing in the rest of the loop
  have hnone : after.find? (·.reachedAt ctx facts (some i)) = none :=
    List.find?_eq_none.mpr fun x hx => by simp [hafter x hx]
  -- whether the pass ends here or not, there is no item to go on with
  have hend : (f.endOfLoop ctx s (some i)).run facts = .ok none := by
    rw [run_endOfLoop hf hl hs, afterPass, if_pos hauto, hnext, ite_self]
  have hscan : (scan ctx ⟨s.loopName, some i⟩ (s.later f.screens)).run facts =
      (scan ctx (ScanState.past facts ⟨s.loopName, some i⟩ after) past).run facts := by
    rw [hlater, run_scan_append, run_scan_inside hloop (.inl rfl), hnone, Option.map_none,
      Option.none_or]
  exact not_mem_of_leads_past hend hscan hpast hleads

/-! ## Coming into a loop -/

/-- A scan that finds nothing before a loop that leads from item to item goes on to search the loop
for the first item. -/
theorem exists_run_scan_to_loop (hauto : l.autoIterates = true) {c : Screen}
    (hc : c ∈ f.screensBefore l) {item : Option String}
    (hscan : (scan ctx ⟨c.loopName, item⟩ (c.later (f.screensBefore l))).run facts = none) :
    ∃ t past, (∀ x ∈ past, x.loopName ≠ some l.name) ∧
      (scan ctx ⟨c.loopName, item⟩ (c.later f.screens)).run facts =
        (((f.screensOfLoop l).find?
          (·.reachedAt ctx facts (facts l.collection).items.head?)).map
            (·, (facts l.collection).items.head?)).or ((scan ctx t past).run facts) := by
  obtain ⟨past, hlater, hbefore, hpast⟩ := exists_later_screensBefore hf hc
  generalize c.later (f.screensBefore l) = between at hscan hlater hbefore
  -- the scan is not in the loop when it comes to it, which makes it take up the first item
  have hout : (ScanState.past facts ⟨c.loopName, item⟩ between).loop ≠ some l.name := by
    rcases ScanState.past_loop_mem facts ⟨c.loopName, item⟩ between with
      hloop | ⟨x, hx, hloop⟩
    · rw [hloop]
      exact loopName_ne_of_mem_screensBefore hc
    · rw [hloop]
      exact loopName_ne_of_mem_screensBefore (hbefore x hx)
  refine ⟨(ScanState.past facts ⟨c.loopName, item⟩ between).past facts (f.screensOfLoop l), past,
    hpast, ?_⟩
  rw [hlater, run_scan_append, hscan, Option.none_or, run_scan_append, run_scan_entering hout
    (fun x hx => (mem_screensOfLoop.mp hx).2)
    (fun x hx => (hf.isAutoIterating_of_mem hl hx).trans hauto)
    (fun x hx => (hf.of_mem_screensOfLoop hl hx).2.1)]

/-- The loop is come into at the first screen that is reached for the first item. -/
theorem leads_entry (hauto : l.autoIterates = true) {c : Screen} (hc : c ∈ f.screensBefore l)
    (hsub : c.subcategoryRoute = l.subcategoryRoute) {item : Option String}
    (hend : (f.endOfLoop ctx c item).run facts = .ok none)
    (hscan : (scan ctx ⟨c.loopName, item⟩ (c.later (f.screensBefore l))).run facts = none)
    (hhead : (facts l.collection).items.head? = some i)
    (hfirst : (f.screensOfLoop l).find? (·.reachedAt ctx facts (some i)) = some t) :
    f.Leads ctx facts false (c, item) (t, some i) := by
  obtain ⟨state, past, -, hfound⟩ := exists_run_scan_to_loop hf hl hauto hc hscan
  rw [hhead, hfirst, Option.map_some, Option.some_or] at hfound
  have ht := (hf.of_mem_screensOfLoop hl (List.mem_of_find?_eq_some hfirst)).2.2
  show (f.next ctx c item false).run facts = .ok ⟨.screen t, some i⟩
  rw [run_next, hend, hfound]
  exact run_leave_same _ _ (hsub.trans ht.symm)

/-- The loop is passed over if nothing in it is reached for the first item. -/
theorem not_mem_of_leads_over (hauto : l.autoIterates = true) {c : Screen}
    (hc : c ∈ f.screensBefore l) {item : Option String}
    (hend : (f.endOfLoop ctx c item).run facts = .ok none)
    (hscan : (scan ctx ⟨c.loopName, item⟩ (c.later (f.screensBefore l))).run facts = none)
    (hnone : (f.screensOfLoop l).find?
      (·.reachedAt ctx facts (facts l.collection).items.head?) = none)
    {q : Screen × Option String} (hleads : f.Leads ctx facts false (c, item) q) :
    q.1 ∉ f.screensOfLoop l := by
  obtain ⟨state, past, hpast, hfound⟩ := exists_run_scan_to_loop hf hl hauto hc hscan
  rw [hnone, Option.map_none, Option.none_or] at hfound
  exact not_mem_of_leads_past hend hfound hpast hleads

end

/-! ## Passes -/

/-- The pass over an item, from a screen of the loop on. -/
def passFrom (f : Flow) (ctx : Context) (facts : String → Fact) (l : Loop) (i : String)
    (s : Screen) : List (Screen × Option String) :=
  (s :: (s.later (f.screensOfLoop l)).filter (·.reachedAt ctx facts (some i))).map (·, some i)

theorem later_screensOfLoop (hf : f.Arranged) {before after : List Screen}
    (heq : f.screensOfLoop l = before ++ s :: after) : s.later (f.screensOfLoop l) = after :=
  later_eq (hf.screenRoutes.sublist (List.filter_sublist.map _)) heq

theorem isChain_pass (hf : f.Arranged) (hl : l ∈ f.loops) {before middle after : List Screen}
    (heq : f.screensOfLoop l = before ++ s :: (middle ++ after))
    (hmiddle : ∀ x ∈ middle, x.reachedAt ctx facts (some i) = false) :
    ((s :: after.filter (·.reachedAt ctx facts (some i))).map (·, some i)).IsChain
      (f.Leads ctx facts false) := by
  induction after generalizing before middle s with
  | nil => exact .singleton _
  | cons t after ih =>
    cases ht : t.reachedAt ctx facts (some i) with
    | true =>
      -- the chain goes on from the screen that is reached
      have heq' : f.screensOfLoop l = (before ++ s :: middle) ++ t :: ([] ++ after) := by
        rw [heq]
        simp
      have hrest := ih heq' (List.forall_mem_nil _)
      rw [List.filter_cons_of_pos ht]
      exact .cons_cons (leads_inside hf hl heq hmiddle ht) hrest
    | false =>
      -- the screen joins those that are passed over
      rw [List.append_cons middle t after] at heq
      have hrest := ih heq (forall_mem_concat hmiddle ht)
      rwa [List.filter_cons_of_neg (by simp [ht])]

/-- The steps of a pass lead from one screen to the next. -/
theorem isChain_passFrom (hf : f.Arranged) (hl : l ∈ f.loops) (hs : s ∈ f.screensOfLoop l) :
    (f.passFrom ctx facts l i s).IsChain (f.Leads ctx facts false) := by
  obtain ⟨before, after, heq⟩ := List.append_of_mem hs
  rw [passFrom, later_screensOfLoop hf heq]
  exact isChain_pass hf hl (heq.trans (by simp : _ = before ++ s :: ([] ++ after)))
    (List.forall_mem_nil _)

/-- A pass ends at the last screen that can be shown, if that is routed to automatically. -/
theorem getLast?_passFrom (hf : f.Arranged) (hs : s ∈ f.screensOfLoop l)
    (havail : s.availableAt ctx facts (some i) = true) {e : Screen}
    (hlast : f.lastAt ctx facts l i = some e) (hrouted : e.routesAutomatically = true) :
    (f.passFrom ctx facts l i s).getLast? = some (e, some i) := by
  obtain ⟨before, after, heq, he, hafter⟩ := exists_split_of_lastAt hlast
  have hnone : after.filter (·.reachedAt ctx facts (some i)) = [] :=
    List.filter_eq_nil_iff.mpr fun x hx => by simp [Screen.reachedAt, hafter x hx]
  rw [heq] at hs
  rcases List.mem_append.mp hs with hs | hs
  · -- the screen stands before the last one
    obtain ⟨xs, ys, rfl⟩ := List.append_of_mem hs
    rw [List.append_assoc, List.cons_append] at heq
    have hreached : e.reachedAt ctx facts (some i) = true := Bool.and_eq_true_iff.mpr ⟨hrouted, he⟩
    rw [passFrom, later_screensOfLoop hf heq, List.filter_append, List.filter_cons_of_pos hreached,
      hnone, ← List.cons_append, List.map_append]
    exact List.getLast?_concat
  · rcases List.mem_cons.mp hs with rfl | hs
    · rw [passFrom, later_screensOfLoop hf heq, hnone]
      rfl
    · rw [hafter s hs] at havail
      cases havail

/-- Nothing in the loop is reached after the end of a pass. -/
theorem exists_split_of_getLast?_passFrom (hf : f.Arranged) (hs : s ∈ f.screensOfLoop l)
    {p : Screen × Option String} (hlast : (f.passFrom ctx facts l i s).getLast? = some p) :
    ∃ e before after, p = (e, some i) ∧ f.screensOfLoop l = before ++ e :: after ∧
      ∀ x ∈ after, x.reachedAt ctx facts (some i) = false := by
  obtain ⟨before, after, heq⟩ := List.append_of_mem hs
  rw [passFrom, later_screensOfLoop hf heq, List.getLast?_map] at hlast
  obtain ⟨e, he, rfl⟩ := Option.map_eq_some_iff.mp hlast
  obtain ⟨shown, hshown⟩ := List.getLast?_eq_some_iff.mp he
  rcases List.append_eq_cons_iff.mp hshown.symm with ⟨-, hsole⟩ | ⟨shown', -, hfilter⟩
  · -- the pass shows one screen only
    obtain ⟨rfl, hnone⟩ := List.cons.inj hsole
    refine ⟨e, before, after, rfl, heq, fun x hx => ?_⟩
    simpa using List.filter_eq_nil_iff.mp hnone.symm x hx
  · obtain ⟨xs, ys, rfl, -, hys⟩ := List.filter_eq_append_iff.mp hfilter
    obtain ⟨middle, rest, rfl, -, -, hrest⟩ := List.filter_eq_cons_iff.mp hys
    refine ⟨e, before ++ s :: xs ++ middle, rest, rfl, ?_, fun x hx => ?_⟩
    · rw [heq]
      simp
    · simpa using List.filter_eq_nil_iff.mp hrest x hx

/-- From the end of the pass over the last item, the loop is left. -/
theorem not_mem_of_leads_end (hf : f.Arranged) (hl : l ∈ f.loops) (hauto : l.autoIterates = true)
    (hs : s ∈ f.screensOfLoop l) {p : Screen × Option String}
    (hend : (f.passFrom ctx facts l i s).getLast? = some p)
    (hnext : itemAfter i (facts l.collection).items = none) {q : Screen × Option String}
    (hleads : f.Leads ctx facts false p q) : q.1 ∉ f.screensOfLoop l := by
  obtain ⟨e, before, after, rfl, heq, hafter⟩ := exists_split_of_getLast?_passFrom hf hs hend
  exact not_mem_of_leads_out hf hl hauto heq hafter hnext hleads

/-- The passes over some items, each from the first screen that can be shown on. -/
def passes (f : Flow) (ctx : Context) (facts : String → Fact) (l : Loop) (items : List String) :
    List (Screen × Option String) :=
  items.flatMap fun i => (f.firstAt ctx facts l i).elim [] (f.passFrom ctx facts l i)

theorem passes_cons {items : List String} (hfirst : f.firstAt ctx facts l i = some s) :
    f.passes ctx facts l (i :: items) =
      f.passFrom ctx facts l i s ++ f.passes ctx facts l items := by
  rw [passes, List.flatMap_cons, hfirst]
  rfl

/-- Whether a pass over an item ends on a screen that is routed to automatically. -/
def isPassable (f : Flow) (ctx : Context) (facts : String → Fact) (l : Loop) (i : String) : Bool :=
  (f.lastAt ctx facts l i).any (·.routesAutomatically)

theorem isPassable_iff : f.isPassable ctx facts l i = true ↔
    ∃ e, f.lastAt ctx facts l i = some e ∧ e.routesAutomatically = true := by
  rw [isPassable, Option.any_eq_true]

/-- If a screen can be shown for an item, there is a first one. -/
theorem exists_firstAt (hs : s ∈ f.screensOfLoop l)
    (havail : s.availableAt ctx facts (some i) = true) :
    ∃ first, f.firstAt ctx facts l i = some first :=
  Option.isSome_iff_exists.mp (List.find?_isSome.mpr ⟨s, hs, havail⟩)

/-- An item can be passed over if the last screen that can be shown for it is routed to. -/
theorem isPassable_of_available (hs : s ∈ f.screensOfLoop l)
    (havail : s.availableAt ctx facts (some i) = true)
    (hends : ∀ e, f.lastAt ctx facts l i = some e → e.routesAutomatically = true) :
    f.isPassable ctx facts l i = true := by
  obtain ⟨last, -, hlast⟩ := exists_lastAt (List.nil_append _).symm hs havail
  exact isPassable_iff.mpr ⟨last, hlast, hends last hlast⟩

/-- From the end of a pass, the loop fails if no screen can be shown for the next item. -/
theorem run_next_error_of_end (hf : f.Arranged) (hl : l ∈ f.loops) (hauto : l.autoIterates = true)
    (hs : s ∈ f.screensOfLoop l) (havail : s.availableAt ctx facts (some i) = true)
    (hpassable : f.isPassable ctx facts l i = true) {p : Screen × Option String}
    (hend : (f.passFrom ctx facts l i s).getLast? = some p) {i' : String}
    (hnext : itemAfter i (facts l.collection).items = some i')
    (hfirst : f.firstAt ctx facts l i' = none) (review : Bool) :
    (f.next ctx p.1 p.2 review).run facts = .error (.noScreenForItem l.name i') := by
  obtain ⟨e, hlast, hrouted⟩ := isPassable_iff.mp hpassable
  obtain rfl : (e, some i) = p :=
    Option.some.inj ((getLast?_passFrom hf hs havail hlast hrouted).symm.trans hend)
  exact run_next_restart_error hf hl hauto hlast hnext hfirst review

/-- **The passes follow one another.** From a screen that can be shown for an item, the pass over it
is made, and then the passes over the next items in their order, if all but the last can be made to
their ends. -/
theorem isChain_passes (hf : f.Arranged) (hl : l ∈ f.loops) (hauto : l.autoIterates = true)
    (hdistinct : (facts l.collection).items.Nodup) {done items rest : List String}
    (hitems : (facts l.collection).items = done ++ i :: (items ++ rest))
    (hs : s ∈ f.screensOfLoop l) (havail : s.availableAt ctx facts (some i) = true)
    (hshown : ∀ j ∈ items, ∃ first, f.firstAt ctx facts l j = some first)
    (hpassable : ∀ j ∈ (i :: items).dropLast, f.isPassable ctx facts l j = true) :
    (f.passFrom ctx facts l i s ++ f.passes ctx facts l items).IsChain (f.Leads ctx facts false) ∧
      ∃ done' j t, (facts l.collection).items = done' ++ j :: rest ∧
        (i :: items).getLast? = some j ∧ t ∈ f.screensOfLoop l ∧
        t.availableAt ctx facts (some j) = true ∧
        (f.passFrom ctx facts l i s ++ f.passes ctx facts l items).getLast? =
          (f.passFrom ctx facts l j t).getLast? := by
  have hchain : (f.passFrom ctx facts l i s).IsChain (f.Leads ctx facts false) :=
    isChain_passFrom hf hl hs
  -- by induction on the items that are left, with those that are done in front of them
  induction items generalizing done i s with
  | nil =>
    rw [passes, List.flatMap_nil, List.append_nil]
    exact ⟨hchain, done, i, s, hitems, rfl, hs, havail, rfl⟩
  | cons j items ih =>
    obtain ⟨first, hfirst⟩ := hshown j List.mem_cons_self
    have hmem := mem_screensOfLoop_of_firstAt hfirst
    have hitems' : (facts l.collection).items = (done ++ [i]) ++ j :: (items ++ rest) := by
      rw [hitems]
      simp
    rw [List.dropLast_cons_cons] at hpassable
    obtain ⟨last, hlast, hrouted⟩ := isPassable_iff.mp (hpassable i List.mem_cons_self)
    have hend : (f.passFrom ctx facts l i s).getLast? = some (last, some i) :=
      getLast?_passFrom hf hs havail hlast hrouted
    obtain ⟨hrest, done', k, t, hdone', hk, ht, htavail, hend'⟩ := ih hitems' hmem
      (List.find?_some hfirst) (fun x hx => hshown x (List.mem_cons_of_mem j hx))
      (fun x hx => hpassable x (List.mem_cons_of_mem i hx)) (isChain_passFrom hf hl hmem)
    rw [passes_cons hfirst]
    refine ⟨hchain.append hrest fun x hx y hy => ?_, done', k, t, hdone', ?_, ht, htavail, ?_⟩
    · -- the end of the pass over the item leads to the beginning of the next one
      obtain rfl : (last, some i) = x := by simpa [hend] using hx
      obtain rfl : (first, some j) = y := by simpa [passFrom] using hy
      exact leads_restart hf hl hauto hlast (itemAfter_eq hdistinct hitems) hfirst false
    · rw [List.getLast?_cons_cons]
      exact hk
    · rw [List.getLast?_append_of_ne_nil _ (by simp [passFrom])]
      exact hend'

end Flow

end Interview

import Interview.Navigation.Next
import Interview.Proofs.Arrangement
import Mathlib.Data.List.Chain

/-!
# One step of routing

What `Flow.next` does when the facts are fixed. A scan looks at one screen after the other and
carries a loop and an item along; inside one loop it carries the same item all the way
(`run_scan_inside`), and where it comes into a loop that leads from item to item it takes the first
one up (`run_scan_entering`). A step that shows a screen again is either the restart of a loop for
its next item or the result of a scan over later screens, and nothing else (`run_next_eq_screen`).
-/

namespace Interview

variable {f : Flow} {ctx : Context} {facts : String → Fact}

/-! ## Items -/

/-- The item after a given one stands right behind its first place. -/
theorem itemAfter_append {i : String} {before after : List String} (hi : i ∉ before) :
    itemAfter i (before ++ i :: after) = after.head? := by
  have hbefore : ∀ x ∈ before, decide (x ≠ i) = true := fun x hx => by
    simpa using fun heq : x = i => hi (heq ▸ hx)
  unfold itemAfter
  rw [drop_dropWhile_eq hbefore (by simp)]

/-- In a list without repetitions, an item has only one place. -/
theorem itemAfter_eq {i : String} {items before after : List String} (hdistinct : items.Nodup)
    (heq : items = before ++ i :: after) : itemAfter i items = after.head? := by
  subst heq
  exact itemAfter_append fun hi =>
    (List.nodup_append.mp hdistinct).2.2 i hi i List.mem_cons_self rfl

theorem exists_of_itemAfter {i i' : String} {items : List String}
    (h : itemAfter i items = some i') :
    ∃ before after, items = before ++ i :: i' :: after ∧ i ∉ before := by
  unfold itemAfter at h
  obtain ⟨after, hafter⟩ := List.head?_eq_some_iff.mp h
  obtain ⟨before, x, rfl, hbefore, hx⟩ := exists_of_drop_dropWhile hafter (by simp)
  obtain rfl : x = i := by simpa using hx
  exact ⟨before, after, rfl, fun hmem => by simpa using hbefore x hmem⟩

/-! ## Screens in front of fixed facts -/

/-- Whether a screen can be shown for an item, as the facts stand. -/
def Screen.availableAt (ctx : Context) (facts : String → Fact) (item : Option String) (s : Screen) :
    Bool :=
  (s.isAvailable ctx item).run facts

/-- Whether a scan stops at a screen that it looks at for an item, as the facts stand. -/
def Screen.reachedAt (ctx : Context) (facts : String → Fact) (item : Option String) (s : Screen) :
    Bool :=
  s.routesAutomatically && s.availableAt ctx facts item

@[simp] theorem run_isAvailable (item : Option String) (s : Screen) :
    (s.isAvailable ctx item).run facts = s.availableAt ctx facts item := rfl

@[simp] theorem run_isReached (item : Option String) (s : Screen) :
    (s.isReached ctx item).run facts = s.reachedAt ctx facts item := by
  unfold Screen.isReached Screen.reachedAt
  cases s.routesAutomatically <;> simp

/-- A screen of a loop that leads from item to item needs an item in the collection. -/
theorem availableAt_eq_false_of_items_nil {s : Screen} {c : String} {item : Option String}
    (hauto : s.isAutoIterating = true) (hc : s.collection = some c) (hnil : (facts c).items = []) :
    s.availableAt ctx facts item = false := by
  simp [Screen.availableAt, Screen.isAvailable, Screen.isIdle, Screen.neededCollection, hauto, hc,
    hnil]

/-! ## Scanning -/

namespace ScanState

/-- The state of a scan when it looks at a screen. -/
def looking (facts : String → Fact) (t : ScanState) (s : Screen) : ScanState :=
  (t.enter s).run facts

@[simp] theorem run_enter (t : ScanState) (s : Screen) :
    (t.enter s).run facts = t.looking facts s := rfl

@[simp] theorem looking_loop (t : ScanState) (s : Screen) :
    (t.looking facts s).loop = s.loopName := by
  unfold looking enter
  split
  · cases s.collection <;> simp
  · simp

/-- Inside a loop the item is kept, once there is one. -/
theorem looking_inside {t : ScanState} {s : Screen} (hloop : s.loopName = t.loop)
    (hitem : t.item.isSome = true ∨ s.isAutoIterating = false) : t.looking facts s = t := by
  obtain ⟨loop, item⟩ := t
  subst hloop
  unfold looking enter
  rcases hitem with hitem | hauto
  · obtain ⟨i, rfl⟩ := Option.isSome_iff_exists.mp hitem
    simp
  · simp [hauto]

/-- A loop that leads from item to item is entered at the first item of its collection. -/
theorem looking_entering {t : ScanState} {s : Screen} {c : String}
    (ht : t.loop ≠ s.loopName ∨ t.item = none) (hauto : s.isAutoIterating = true)
    (hc : s.collection = some c) : t.looking facts s = ⟨s.loopName, (facts c).items.head?⟩ := by
  rcases ht with hloop | hitem
  · simp [looking, enter, hloop, hauto, hc]
  · simp [looking, enter, hitem, hauto, hc]

/-- Elsewhere the item is dropped when the loop changes. -/
theorem looking_leaving {t : ScanState} {s : Screen} (hloop : t.loop ≠ s.loopName)
    (hauto : s.isAutoIterating = false) : t.looking facts s = ⟨s.loopName, none⟩ := by
  simp [looking, enter, hloop, hauto]

/-- The state of a scan after it has passed over screens. -/
def past (facts : String → Fact) (t : ScanState) (xs : List Screen) : ScanState :=
  xs.foldl (looking facts) t

@[simp] theorem past_nil (t : ScanState) : t.past facts [] = t := rfl

@[simp] theorem past_cons (t : ScanState) (s : Screen) (xs : List Screen) :
    t.past facts (s :: xs) = (t.looking facts s).past facts xs := rfl

variable (facts) in
/-- A scan that has passed over screens is in the loop of one of them, or still where it set out. -/
theorem past_loop_mem (t : ScanState) (xs : List Screen) :
    (t.past facts xs).loop = t.loop ∨ ∃ s ∈ xs, (t.past facts xs).loop = s.loopName := by
  induction xs generalizing t with
  | nil => exact .inl rfl
  | cons s xs ih =>
    rcases ih (t.looking facts s) with h | ⟨x, hx, h⟩
    · exact .inr ⟨s, List.mem_cons_self, by rw [past_cons, h, looking_loop]⟩
    · exact .inr ⟨x, List.mem_cons_of_mem _ hx, h⟩

/-- Screens that a scan looks at in its own state leave it as it is. -/
theorem past_of_looking {t : ScanState} {xs : List Screen}
    (h : ∀ s ∈ xs, t.looking facts s = t) : t.past facts xs = t := by
  induction xs with
  | nil => rfl
  | cons s xs ih =>
    rw [past_cons, h s List.mem_cons_self]
    exact ih fun x hx => h x (List.mem_cons_of_mem s hx)

theorem past_inside {t : ScanState} {xs : List Screen} (hloop : ∀ s ∈ xs, s.loopName = t.loop)
    (hitem : t.item.isSome = true ∨ ∀ s ∈ xs, s.isAutoIterating = false) :
    t.past facts xs = t :=
  past_of_looking fun s hs => looking_inside (hloop s hs) (hitem.imp_right fun h => h s hs)

end ScanState

open ScanState

@[simp] theorem run_scan_nil (t : ScanState) : (scan ctx t []).run facts = none := rfl

theorem run_scan_cons (t : ScanState) (s : Screen) (xs : List Screen) :
    (scan ctx t (s :: xs)).run facts =
      if s.reachedAt ctx facts (t.looking facts s).item then some (s, (t.looking facts s).item)
      else (scan ctx (t.looking facts s) xs).run facts := by
  simp [scan]

theorem run_scan_append (t : ScanState) (xs ys : List Screen) :
    (scan ctx t (xs ++ ys)).run facts =
      ((scan ctx t xs).run facts).or ((scan ctx (t.past facts xs) ys).run facts) := by
  induction xs generalizing t with
  | nil => simp
  | cons s xs ih =>
    rw [List.cons_append, run_scan_cons, run_scan_cons, past_cons, ih]
    split <;> rfl

/-- What a scan finds is one of the screens, looked at in the state that the screens before it lead
to. -/
theorem run_scan_eq_some {t : ScanState} {xs : List Screen} {s : Screen} {item : Option String}
    (h : (scan ctx t xs).run facts = some (s, item)) : ∃ before after, xs = before ++ s :: after ∧
      item = ((t.past facts before).looking facts s).item ∧ s.reachedAt ctx facts item = true := by
  induction xs generalizing t with
  | nil => cases h
  | cons x xs ih =>
    rw [run_scan_cons] at h
    split at h
    · next hreached =>
      obtain ⟨rfl, rfl⟩ := Prod.mk.inj (Option.some.inj h)
      exact ⟨[], xs, rfl, rfl, hreached⟩
    · obtain ⟨before, after, rfl, hitem, hreached⟩ := ih h
      exact ⟨x :: before, after, rfl, hitem, hreached⟩

/-- A scan whose items are known in advance is a search. -/
theorem run_scan_eq_find? {t : ScanState} {xs : List Screen} {carried : Screen → Option String}
    (h : ∀ before c after, xs = before ++ c :: after →
      ((t.past facts before).looking facts c).item = carried c) :
    (scan ctx t xs).run facts =
      (xs.find? fun c => c.reachedAt ctx facts (carried c)).map fun c => (c, carried c) := by
  induction xs generalizing t with
  | nil => rfl
  | cons x xs ih =>
    have hx : (t.looking facts x).item = carried x := h [] x xs rfl
    have hrest := ih (t := t.looking facts x) fun before c after heq =>
      h (x :: before) c after (by rw [heq, List.cons_append])
    rw [run_scan_cons, hx, hrest, List.find?_cons]
    cases x.reachedAt ctx facts (carried x) <;> rfl

/-- A scan that stays in one state is a search for the item of that state. -/
theorem run_scan_of_looking {t : ScanState} {xs : List Screen}
    (h : ∀ s ∈ xs, t.looking facts s = t) :
    (scan ctx t xs).run facts = (xs.find? (·.reachedAt ctx facts t.item)).map (·, t.item) := by
  refine run_scan_eq_find? fun before c after heq => ?_
  subst heq
  have hpast : t.past facts before = t :=
    past_of_looking fun s hs => h s (List.mem_append_left _ hs)
  rw [hpast, h c (List.mem_append_right before List.mem_cons_self)]

/-- **Inside one loop a scan is a search** for the first screen that is reached for the item. -/
theorem run_scan_inside {t : ScanState} {xs : List Screen} (hloop : ∀ s ∈ xs, s.loopName = t.loop)
    (hitem : t.item.isSome = true ∨ ∀ s ∈ xs, s.isAutoIterating = false) :
    (scan ctx t xs).run facts = (xs.find? (·.reachedAt ctx facts t.item)).map (·, t.item) :=
  run_scan_of_looking fun s hs => looking_inside (hloop s hs) (hitem.imp_right fun h => h s hs)

/-- **A scan that comes into a loop** that leads from item to item searches it for the first
item. -/
theorem run_scan_entering {t : ScanState} {xs : List Screen} {name c : String}
    (hout : t.loop ≠ some name) (hloop : ∀ s ∈ xs, s.loopName = some name)
    (hauto : ∀ s ∈ xs, s.isAutoIterating = true) (hc : ∀ s ∈ xs, s.collection = some c) :
    (scan ctx t xs).run facts = (xs.find? (·.reachedAt ctx facts (facts c).items.head?)).map
      (·, (facts c).items.head?) := by
  have hentering : ∀ s ∈ xs, ∀ t : ScanState, t.loop ≠ some name ∨ t.item = none →
      t.looking facts s = ⟨some name, (facts c).items.head?⟩ := by
    intro s hs t ht
    rw [← hloop s hs] at ht ⊢
    exact looking_entering ht (hauto s hs) (hc s hs)
  -- without an item the loop is entered again at every screen, and the state stays the same
  have hinside : ∀ s ∈ xs, (⟨some name, (facts c).items.head?⟩ : ScanState).looking facts s =
      ⟨some name, (facts c).items.head?⟩ := by
    intro s hs
    cases hhead : (facts c).items.head? with
    | none => rw [hentering s hs _ (.inr rfl), hhead]
    | some i => exact looking_inside (hloop s hs) (.inl rfl)
  cases xs with
  | nil => rfl
  | cons s xs =>
    have hfirst := hentering s List.mem_cons_self t (.inl hout)
    rw [← run_scan_of_looking (t := ⟨some name, (facts c).items.head?⟩) hinside, run_scan_cons,
      run_scan_cons, hfirst, hinside s List.mem_cons_self]

/-! ## Later screens -/

/-- The screens after a given one, where they are told apart by their routes. -/
theorem later_eq {s : Screen} {xs before after : List Screen}
    (hroutes : (xs.map (·.fullRoute)).Nodup) (heq : xs = before ++ s :: after) :
    s.later xs = after := by
  rw [heq, List.map_append, List.map_cons, List.nodup_append] at hroutes
  have hbefore : ∀ x ∈ before, decide (x.fullRoute ≠ s.fullRoute) = true := fun x hx => by
    simpa using hroutes.2.2 _ (List.mem_map_of_mem hx) _ List.mem_cons_self
  unfold Screen.later
  rw [heq, drop_dropWhile_eq hbefore (by simp)]

namespace Flow

/-- The screens after one of a loop: the rest of the loop, and those past it. -/
theorem exists_later_eq (hf : f.Arranged) {l : Loop} {s : Screen} {before after : List Screen}
    (heq : f.screensOfLoop l = before ++ s :: after) :
    ∃ past, s.later f.screens = after ++ past ∧ ∀ x ∈ past, x.loopName ≠ some l.name := by
  obtain ⟨past, hscreens, hpast⟩ := hf.exists_screens_eq l
  have hsplit : f.screens = (f.screensBefore l ++ before) ++ s :: (after ++ past) := by
    rw [hscreens, heq]
    simp
  exact ⟨past, later_eq hf.screenRoutes hsplit, hpast⟩

/-- The screens after one that is before a loop: the rest of those, the loop, and those past it. -/
theorem exists_later_screensBefore (hf : f.Arranged) {l : Loop} {c : Screen}
    (hc : c ∈ f.screensBefore l) : ∃ past,
      c.later f.screens = c.later (f.screensBefore l) ++ (f.screensOfLoop l ++ past) ∧
      (∀ x ∈ c.later (f.screensBefore l), x ∈ f.screensBefore l) ∧
      ∀ x ∈ past, x.loopName ≠ some l.name := by
  obtain ⟨past, hscreens, hpast⟩ := hf.exists_screens_eq l
  obtain ⟨before, between, hbefore⟩ := List.append_of_mem hc
  have hroutes : ((f.screensBefore l).map (·.fullRoute)).Nodup :=
    hf.screenRoutes.sublist ((List.takeWhile_sublist _).map _)
  rw [later_eq hroutes hbefore]
  have hsplit : f.screens = before ++ c :: (between ++ (f.screensOfLoop l ++ past)) := by
    rw [hscreens, hbefore]
    simp
  refine ⟨past, later_eq hf.screenRoutes hsplit, fun x hx => ?_, hpast⟩
  rw [hbefore]
  exact List.mem_append_right before (List.mem_cons_of_mem c hx)

/-- Later screens of a part of the flow are later in the flow. -/
theorem sublist_of_later (hf : f.Arranged) {s x : Screen} {xs before after : List Screen}
    (hs : s ∈ f.screens) (hxs : xs.Sublist f.screens) (hlater : s.later xs = before ++ x :: after) :
    (s :: (before ++ [x])).Sublist f.screens := by
  unfold Screen.later at hlater
  obtain ⟨passed, y, rfl, -, hy⟩ := exists_of_drop_dropWhile hlater (by simp)
  -- the first screen that is not passed is the given one
  have hroute : y.fullRoute = s.fullRoute := by simpa using hy
  obtain rfl := hf.eq_of_fullRoute (hxs.subset (by simp)) hs hroute
  have hpart : (y :: (before ++ [x])).Sublist (y :: (before ++ x :: after)) :=
    ((List.append_sublist_append_left before).mpr
      (List.cons_sublist_cons.mpr (List.nil_sublist after))).cons_cons y
  exact hpart.trans ((List.sublist_append_right passed _).trans hxs)

/-- A screen comes later than another one if it comes after it in the flow. -/
theorem mem_later_iff (hf : f.Arranged) {s x : Screen} (hs : s ∈ f.screens) :
    x ∈ s.later f.screens ↔ [s, x].Sublist f.screens := by
  obtain ⟨before, after, hsplit⟩ := List.append_of_mem hs
  have hnodup : f.screens.Nodup := List.Nodup.of_map _ hf.screenRoutes
  rw [later_eq hf.screenRoutes hsplit]
  rw [hsplit] at hnodup ⊢
  constructor
  · intro hx
    exact ((List.singleton_sublist.mpr hx).cons_cons s).trans (List.sublist_append_right before _)
  · intro hsub
    have hfirst : s ∉ before := fun hmem =>
      (List.nodup_append.mp hnodup).2.2 s hmem s List.mem_cons_self rfl
    exact List.singleton_sublist.mp (List.cons_sublist_cons.mp (sublist_right hsub hfirst))

/-! ## The end of a pass -/

/-- The first screen of a loop that can be shown for an item, as the facts stand. -/
def firstAt (f : Flow) (ctx : Context) (facts : String → Fact) (l : Loop) (item : String) :
    Option Screen :=
  (f.screensOfLoop l).find? (·.availableAt ctx facts (some item))

/-- The last screen of a loop that can be shown for an item, as the facts stand. -/
def lastAt (f : Flow) (ctx : Context) (facts : String → Fact) (l : Loop) (item : String) :
    Option Screen :=
  (f.screensOfLoop l).reverse.find? (·.availableAt ctx facts (some item))

/-- Where the filer gets from the last screen of a pass over an item, unless the pass was the last
one of a loop that leads from item to item. -/
def afterPass (f : Flow) (ctx : Context) (facts : String → Fact) (l : Loop) (item : String) :
    Except NavigationError (Option Arrival) :=
  if l.autoIterates then
    match itemAfter item (facts l.collection).items with
    | none => .ok none
    | some next =>
      match f.firstAt ctx facts l next with
      | some first => .ok (some ⟨.screen first, some next⟩)
      | none => .error (.noScreenForItem l.name next)
  else
    .ok (some ⟨.loopDataView l.name, some item⟩)

@[simp] theorem run_firstScreen (l : Loop) (item : String) :
    (f.firstScreen ctx l (some item)).run facts = f.firstAt ctx facts l item := by
  simp [firstScreen, firstAt]

@[simp] theorem run_lastScreen (l : Loop) (item : String) :
    (f.lastScreen ctx l (some item)).run facts = f.lastAt ctx facts l item := by
  simp [lastScreen, lastAt]

@[simp] theorem run_nextItem (l : Loop) (item : String) :
    (l.nextItem item).run facts = itemAfter item (facts l.collection).items := by
  simp [Loop.nextItem, Loop.items]

theorem mem_screensOfLoop_of_firstAt {l : Loop} {item : String} {s : Screen}
    (h : f.firstAt ctx facts l item = some s) : s ∈ f.screensOfLoop l :=
  List.mem_of_find?_eq_some h

theorem mem_screensOfLoop_of_lastAt {l : Loop} {item : String} {s : Screen}
    (h : f.lastAt ctx facts l item = some s) : s ∈ f.screensOfLoop l := by
  simpa using List.mem_of_find?_eq_some h

/-- The rule for the last screen of a loop has no result outside of loops, and without an item. -/
theorem run_endOfLoop_of_none {s : Screen} {item : Option String}
    (h : s.membership = none ∨ item = none) :
    (f.endOfLoop ctx s item).run facts = .ok none := by
  unfold endOfLoop
  rcases h with h | h
  · simp [h]
  · subst h
    cases s.membership <;> rfl

/-- **The rule for the last screen of a loop**, at a screen of the loop and for an item. -/
theorem run_endOfLoop (hf : f.Arranged) {l : Loop} (hl : l ∈ f.loops) {s : Screen}
    (hs : s ∈ f.screensOfLoop l) (item : String) :
    (f.endOfLoop ctx s (some item)).run facts =
      if f.lastAt ctx facts l item = some s then f.afterPass ctx facts l item else .ok none := by
  -- the rule compares full routes, by which the screens of a flow are known
  have hroute : (f.lastAt ctx facts l item).map (·.fullRoute) = some s.fullRoute ↔
      f.lastAt ctx facts l item = some s := by
    rw [Option.map_eq_some_iff]
    constructor
    · rintro ⟨t, ht, heq⟩
      have hmem := (mem_screensOfLoop.mp (mem_screensOfLoop_of_lastAt ht)).1
      rw [ht, hf.eq_of_fullRoute hmem (mem_screensOfLoop.mp hs).1 heq]
    · intro h
      exact ⟨s, h, rfl⟩
  have hmember := (hf.of_mem_screensOfLoop hl hs).1
  have hloop : f.loop? l.membership.name = some l := hf.loop?_eq_some hl
  unfold endOfLoop afterPass
  rw [hmember]
  simp only [hloop, Reading.run_bind, run_lastScreen, Reading.run_ite, ne_eq, ite_not, hroute]
  split
  · cases hauto : l.autoIterates with
    | false => simp [Loop.membership, hauto]
    | true =>
      simp only [Loop.membership, hauto, run_nextItem]
      cases itemAfter item (facts l.collection).items with
      | none => simp
      | some next => cases hfirst : f.firstAt ctx facts l next <;> simp [hfirst]
  · rfl

/-- A pass that is followed by a screen is followed by the first one for the next item. -/
theorem afterPass_eq_screen {l : Loop} {i : String} {t : Screen} {item' : Option String}
    (h : f.afterPass ctx facts l i = .ok (some ⟨.screen t, item'⟩)) : l.autoIterates = true ∧
      ∃ i', item' = some i' ∧ itemAfter i (facts l.collection).items = some i' ∧
        f.firstAt ctx facts l i' = some t := by
  unfold afterPass at h
  split at h
  · next hauto =>
    refine ⟨hauto, ?_⟩
    split at h
    · simp at h
    · next i' hnext =>
      split at h
      · next first hfirst =>
        obtain ⟨hscreen, rfl⟩ := Arrival.mk.inj (Option.some.inj (Except.ok.inj h))
        obtain rfl := Destination.screen.inj hscreen
        exact ⟨i', rfl, hnext, hfirst⟩
      · simp at h
  · simp at h

/-- Where the rule for the last screen of a loop applies, there is a loop and an item. -/
theorem exists_of_run_endOfLoop (hf : f.Arranged) {s : Screen} (hs : s ∈ f.screens)
    {item : Option String} (h : (f.endOfLoop ctx s item).run facts ≠ .ok none) :
    ∃ l ∈ f.loops, ∃ i, item = some i ∧ s ∈ f.screensOfLoop l ∧
      f.lastAt ctx facts l i = some s ∧
      (f.endOfLoop ctx s item).run facts = f.afterPass ctx facts l i := by
  cases hm : s.membership with
  | none => exact absurd (run_endOfLoop_of_none (.inl hm)) h
  | some m =>
    cases item with
    | none => exact absurd (run_endOfLoop_of_none (.inr rfl)) h
    | some i =>
      obtain ⟨l, hl, rfl, -⟩ := hf.member s hs m hm
      have hmem : s ∈ f.screensOfLoop l :=
        mem_screensOfLoop.mpr ⟨hs, by simp [Screen.loopName, hm, Loop.membership]⟩
      rw [run_endOfLoop hf hl hmem] at h ⊢
      split at h
      · next hlast => exact ⟨l, hl, i, rfl, hmem, hlast, if_pos hlast⟩
      · exact absurd rfl h

/-! ## One step -/

/-- The rules in their order: the end of a loop, then the scan of all later screens, then what
follows from the screen that the scan has found. -/
theorem run_next (s : Screen) (item : Option String) (review : Bool) :
    (f.next ctx s item review).run facts =
      match (f.endOfLoop ctx s item).run facts with
      | .error e => .error e
      | .ok (some arrival) => .ok arrival
      | .ok none =>
        match (scan ctx ⟨s.loopName, item⟩ (s.later f.screens)).run facts with
        | none => .error (.nothingFollows s.fullRoute)
        | some found => (f.leave ctx s item review found).run facts := by
  unfold next
  rw [Reading.run_bind]
  cases (f.endOfLoop ctx s item).run facts with
  | error e => rfl
  | ok arrival =>
    cases arrival with
    | some arrival => rfl
    | none =>
      simp only [Reading.run_bind]
      cases (scan ctx ⟨s.loopName, item⟩ (s.later f.screens)).run facts <;> rfl

/-- Without review, a screen of the same subcategory is shown when the scan has found it. -/
theorem run_leave_same {s t : Screen} (item item' : Option String)
    (hsub : s.subcategoryRoute = t.subcategoryRoute) :
    (f.leave ctx s item false (t, item')).run facts = .ok ⟨.screen t, item'⟩ := by
  unfold leave
  simp [hsub]

/-- A summary is no screen. -/
theorem summary_ne_screen {s t : Screen} {item item' : Option String} {review : Bool} :
    f.summary s item review ≠ ⟨.screen t, item'⟩ := by
  unfold summary
  cases s.membership with
  | none => simp
  | some m =>
    cases item with
    | none => simp
    | some i => cases hauto : m.autoIterates <;> simp [hauto]

/-- In review, a screen that is shown after the topic has been left is one that is left of it. -/
theorem eq_of_run_reviewExit {s t : Screen} {item item' : Option String}
    (h : (f.reviewExit ctx s item).run facts = .ok ⟨.screen t, item'⟩) : ∃ topic,
      (scan ctx ⟨s.loopName, item⟩ (s.later (f.screensOfTopic topic))).run facts =
        some (t, item') := by
  unfold reviewExit at h
  split at h
  · simp at h
  · cases htopic : s.topicRoute.bind f.topic? with
    | none => simp [htopic] at h
    | some topic =>
      simp only [htopic, Reading.run_bind] at h
      refine ⟨topic, ?_⟩
      cases hscan : (scan ctx ⟨s.loopName, item⟩ (s.later (f.screensOfTopic topic))).run facts with
      | none =>
        rw [hscan] at h
        exact absurd (Except.ok.inj h) summary_ne_screen
      | some found =>
        rw [hscan] at h
        obtain ⟨hscreen, hitem⟩ := Arrival.mk.inj (Except.ok.inj h)
        rw [← Destination.screen.inj hscreen, ← hitem]

/-- A screen that is shown after a scan has been found by it, or by the scan of what is left of the
topic. -/
theorem eq_of_run_leave {s t : Screen} {item item' : Option String} {review : Bool}
    {found : Screen × Option String}
    (h : (f.leave ctx s item review found).run facts = .ok ⟨.screen t, item'⟩) :
    found = (t, item') ∨ review = true ∧ ∃ topic, (scan ctx ⟨s.loopName, item⟩
      (s.later (f.screensOfTopic topic))).run facts = some (t, item') := by
  have hfound (heq : (⟨.screen found.1, found.2⟩ : Arrival) = ⟨.screen t, item'⟩) :
      found = (t, item') := by
    obtain ⟨hscreen, hitem⟩ := Arrival.mk.inj heq
    exact Prod.ext (Destination.screen.inj hscreen) hitem
  -- the cases are a knockout, the exit in review, the same subcategory, and another one
  unfold leave at h
  split at h
  · exact .inl (hfound (Except.ok.inj h))
  · split at h
    · next hleft => exact .inr ⟨(Bool.and_eq_true_iff.mp hleft).1, eq_of_run_reviewExit h⟩
    · split at h
      · exact .inl (hfound (Except.ok.inj h))
      · have hexit := Except.ok.inj h
        unfold subcategoryExit at hexit
        split at hexit
        · simp at hexit
        · exact absurd hexit summary_ne_screen

/-- In review, the exit from a topic fails if there is no topic to return to the summary of. -/
theorem run_reviewExit_eq_error_iff {s : Screen} {item : Option String} {e : NavigationError} :
    (f.reviewExit ctx s item).run facts = .error e ↔
      e = .outsideTopic s.fullRoute ∧ s.actsAsDataView = false ∧
        s.topicRoute.bind f.topic? = none := by
  unfold reviewExit
  cases hsummary : s.actsAsDataView with
  | true => simp
  | false =>
    cases htopic : s.topicRoute.bind f.topic? with
    | none => simp [eq_comm]
    | some topic =>
      simp only [Bool.false_eq_true, if_false, Reading.run_bind]
      cases (scan ctx ⟨s.loopName, item⟩ (s.later (f.screensOfTopic topic))).run facts <;> simp

/-- What follows from the screen that a scan has found fails only in review, where a topic is left
that there is not. -/
theorem run_leave_eq_error_iff {s t : Screen} {item item' : Option String} {review : Bool}
    {e : NavigationError} : (f.leave ctx s item review (t, item')).run facts = .error e ↔
      t.isKnockout = false ∧ review = true ∧ s.topicRoute ≠ t.topicRoute ∧
        e = .outsideTopic s.fullRoute ∧ s.actsAsDataView = false ∧
          s.topicRoute.bind f.topic? = none := by
  unfold leave
  cases hknockout : t.isKnockout with
  | true => simp
  | false =>
    by_cases hleft : (review && decide (s.topicRoute ≠ t.topicRoute)) = true
    · rw [if_neg Bool.false_ne_true, if_pos hleft, run_reviewExit_eq_error_iff]
      have hboth : review = true ∧ s.topicRoute ≠ t.topicRoute := by simpa using hleft
      simp [hboth]
    · have hnot : ¬(review = true ∧ s.topicRoute ≠ t.topicRoute) := by simpa using hleft
      rw [if_neg Bool.false_ne_true, if_neg hleft, Reading.run_ite]
      constructor
      · intro h
        split at h <;> cases h
      · rintro ⟨-, hreview, htopic, -⟩
        exact absurd ⟨hreview, htopic⟩ hnot

/-- **How a step comes to a screen**: by the restart of the loop for its next item, or by a scan of
later screens, of the flow or of one of its parts. -/
theorem run_next_eq_screen (hf : f.Arranged) {s t : Screen} {item item' : Option String}
    {review : Bool} (hs : s ∈ f.screens)
    (h : (f.next ctx s item review).run facts = .ok ⟨.screen t, item'⟩) :
    (∃ l ∈ f.loops, ∃ i i', l.autoIterates = true ∧ f.lastAt ctx facts l i = some s ∧
      item = some i ∧ item' = some i' ∧ itemAfter i (facts l.collection).items = some i' ∧
      f.firstAt ctx facts l i' = some t) ∨
    ∃ xs : List Screen, xs.Sublist f.screens ∧
      (scan ctx ⟨s.loopName, item⟩ (s.later xs)).run facts = some (t, item') := by
  rw [run_next] at h
  cases hend : (f.endOfLoop ctx s item).run facts with
  | error e => simp [hend] at h
  | ok arrival =>
    cases arrival with
    | none =>
      right
      rw [hend] at h
      cases hscan : (scan ctx ⟨s.loopName, item⟩ (s.later f.screens)).run facts with
      | none => simp [hscan] at h
      | some found =>
        rw [hscan] at h
        rcases eq_of_run_leave h with rfl | ⟨-, topic, htopic⟩
        · exact ⟨f.screens, List.Sublist.refl _, hscan⟩
        · exact ⟨f.screensOfTopic topic, List.filter_sublist, htopic⟩
    | some arrival =>
      left
      rw [hend] at h
      obtain rfl := Except.ok.inj h
      obtain ⟨l, hl, i, rfl, -, hlast, hafter⟩ := exists_of_run_endOfLoop hf hs (by rw [hend]; simp)
      rw [hend] at hafter
      obtain ⟨hauto, i', rfl, hnext, hfirst⟩ := afterPass_eq_screen hafter.symm
      exact ⟨l, hl, i, i', hauto, hlast, rfl, rfl, hnext, hfirst⟩

/-! ## Runs -/

/-- A step leads from one screen, shown for an item, to another. -/
def Leads (f : Flow) (ctx : Context) (facts : String → Fact) (review : Bool)
    (p q : Screen × Option String) : Prop :=
  (f.next ctx p.1 p.2 review).run facts = .ok ⟨.screen q.1, q.2⟩

/-- A run from a place: each step is made from where the one before has led to. -/
structure IsRun (f : Flow) (ctx : Context) (facts : String → Fact) (review : Bool)
    (start : Screen × Option String) (ps : List (Screen × Option String)) : Prop where
  starts : ps.head? = some start
  leads : ps.IsChain (f.Leads ctx facts review)

/-- What holds at the start of a run and is kept by its steps holds all along it. -/
theorem IsRun.forall_mem {review : Bool} {start : Screen × Option String}
    {ps : List (Screen × Option String)} (hrun : f.IsRun ctx facts review start ps)
    {P : Screen × Option String → Prop} (hstart : P start)
    (hstep : ∀ p q, q ∈ ps → f.Leads ctx facts review p q → P p → P q) : ∀ p ∈ ps, P p := by
  -- the steps of the run lead to what is part of it
  have hchain : ps.IsChain fun p q => q ∈ ps ∧ f.Leads ctx facts review p q :=
    hrun.leads.imp_of_mem_imp fun p q _ hq hleads => ⟨hq, hleads⟩
  refine hchain.induction P ps (fun p q h => hstep p q h.1 h.2) fun hne => ?_
  have hhead := hrun.starts
  rw [List.head?_eq_some_head hne] at hhead
  rw [Option.some.inj hhead]
  exact hstart

end Flow

end Interview

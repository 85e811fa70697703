import Interview.Proofs.Routing
import Mathlib.Data.List.Induction

/-!
# The item that a scan carries

A scan carries a loop and an item from screen to screen, and drops, keeps or takes up an item at
each of them. What it looks at a screen for therefore seems to depend on all screens that it has
passed over. It can be said without them, from the screen that the filer comes from and the one that
is looked at (`Flow.carriedTo`): inside a loop that leads from item to item it is the item of the
filer, and the first one of the collection if the loop has been come into; elsewhere it is the item
of the filer as long as no loop has been come into or left.

One lemma says what a scan carries to the next screen (`ScanState.looking_eq`). From it, what a scan
carries to the last screen of any way follows by induction on the way
(`ScanState.looking_past_eq`). Loops are stretches of the flow, so the way need not be known: what
the scan finds is the first screen that is reached for the item carried to it
(`Flow.scan_selects_first`).
-/

namespace Interview

variable {f : Flow} {ctx : Context} {facts : String → Fact} {s c : Screen} {item : Option String}

/-- The item that a scan takes up when it comes to a screen from elsewhere: the first one, in a loop
that leads from item to item, and none otherwise. -/
def Screen.takenUpItem (facts : String → Fact) (s : Screen) : Option String :=
  s.neededCollection.bind fun path => (facts path).items.head?

theorem Screen.takenUpItem_of_not_auto (hauto : s.isAutoIterating = false) :
    s.takenUpItem facts = none := by
  simp [takenUpItem, neededCollection, hauto]

/-! ## Screens of one loop -/

namespace Flow.Arranged

variable (hf : f.Arranged) (hs : s ∈ f.screens) (hc : c ∈ f.screens)

include hf hs hc

/-- Screens belong to the same loop, or to none, if they name the same. -/
theorem membership_eq_iff : s.membership = c.membership ↔ s.loopName = c.loopName := by
  constructor
  · intro h
    rw [Screen.loopName, h, Screen.loopName]
  · intro h
    cases hm : c.membership with
    | none =>
      have hnone : s.loopName = none := by rw [h, Screen.loopName, hm, Option.map_none]
      simpa [Screen.loopName] using hnone
    | some m =>
      obtain ⟨l, hl, rfl, -⟩ := hf.member c hc m hm
      have hname : s.loopName = some l.name := by
        rw [h, Screen.loopName, hm]
        rfl
      exact (hf.of_mem_screensOfLoop hl (mem_screensOfLoop.mpr ⟨hs, hname⟩)).1

theorem isAutoIterating_eq (hloop : s.loopName = c.loopName) :
    s.isAutoIterating = c.isAutoIterating := by
  rw [Screen.isAutoIterating, (hf.membership_eq_iff hs hc).mpr hloop, Screen.isAutoIterating]

/-- The item that is taken up is the same all through a loop. -/
theorem takenUpItem_eq (hloop : s.loopName = c.loopName) : s.takenUpItem facts = c.takenUpItem facts := by
  have hauto := hf.isAutoIterating_eq hs hc hloop
  by_cases hc' : c.isAutoIterating = true
  · obtain ⟨l, hl, -, hcl⟩ := hf.exists_loop_of_isAutoIterating hc hc'
    have hsl : s ∈ f.screensOfLoop l :=
      mem_screensOfLoop.mpr ⟨hs, hloop.trans (mem_screensOfLoop.mp hcl).2⟩
    have hcollection : s.collection = c.collection :=
      (hf.of_mem_screensOfLoop hl hsl).2.1.trans (hf.of_mem_screensOfLoop hl hcl).2.1.symm
    rw [Screen.takenUpItem, Screen.neededCollection, hauto, hcollection]
    rfl
  · rw [Bool.not_eq_true] at hc'
    rw [Screen.takenUpItem_of_not_auto hc', Screen.takenUpItem_of_not_auto (hauto.trans hc')]

end Flow.Arranged

/-! ## The state of a scan -/

namespace ScanState

/-- **What a scan carries to the next screen**: its item, if it stays in the loop, and otherwise the
one that it takes up at the screen. A scan without an item takes one up in any case. -/
theorem looking_eq (t : ScanState) (s : Screen) : t.looking facts s =
    ⟨s.loopName, if t.loop = s.loopName ∧ (t.item.isSome = true ∨ s.isAutoIterating = false)
      then t.item else s.takenUpItem facts⟩ := by
  by_cases hstays : t.loop = s.loopName ∧ (t.item.isSome = true ∨ s.isAutoIterating = false)
  · rw [if_pos hstays, looking_inside hstays.1.symm hstays.2, ← hstays.1]
  · rw [if_neg hstays]
    cases hauto : s.isAutoIterating with
    | false =>
      have hloop : t.loop ≠ s.loopName := fun h => hstays ⟨h, .inr hauto⟩
      rw [looking_leaving hloop hauto, Screen.takenUpItem_of_not_auto hauto]
    | true =>
      have hentering : t.loop ≠ s.loopName ∨ t.item.isNone = true := by
        by_cases hloop : t.loop = s.loopName
        · right
          simpa [hloop, hauto] using hstays
        · exact .inl hloop
      unfold looking enter Screen.takenUpItem Screen.neededCollection
      cases s.collection <;> rcases hentering with h | h <;> simp [hauto, h]

variable (facts) in
theorem past_concat (t : ScanState) (xs : List Screen) (s : Screen) :
    t.past facts (xs ++ [s]) = (t.past facts xs).looking facts s := by
  simp [past]

/-- **What a scan carries along a way**: its item, as long as the way stays in the loop, and
otherwise what it takes up at the screen at the end. -/
theorem looking_past_eq (hf : f.Arranged) (t : ScanState) {xs : List Screen} {c : Screen}
    (hxs : ∀ x ∈ xs ++ [c], x ∈ f.screens) : (t.past facts xs).looking facts c =
      ⟨c.loopName, if (∀ x ∈ xs ++ [c], t.loop = x.loopName) ∧
        (t.item.isSome = true ∨ c.isAutoIterating = false)
        then t.item else c.takenUpItem facts⟩ := by
  -- the way grows at its end, so the induction is on its last screen
  induction xs using List.reverseRecOn generalizing c with
  | nil => simpa using looking_eq t c
  | append_singleton xs p ih =>
    have hp : p ∈ f.screens := hxs p (by simp)
    have hc : c ∈ f.screens := hxs c (by simp)
    have hbefore : ∀ x ∈ xs ++ [p], x ∈ f.screens := fun x hx => hxs x (List.mem_append_left _ hx)
    rw [past_concat, ih hbefore, looking_eq]
    dsimp only
    congr 1
    by_cases hsame : p.loopName = c.loopName
    · have hauto := hf.isAutoIterating_eq hp hc hsame
      have hfirst : p.takenUpItem facts = c.takenUpItem facts := hf.takenUpItem_eq hp hc hsame
      have hway : (∀ x ∈ xs ++ [p] ++ [c], t.loop = x.loopName) ↔
          ∀ x ∈ xs ++ [p], t.loop = x.loopName := by
        refine ⟨fun h x hx => h x (List.mem_append_left _ hx), fun h => forall_mem_concat h ?_⟩
        exact (h p List.mem_concat_self).trans hsame
      rw [hauto, hfirst]
      simp only [hway, hsame, true_and]
      split
      · next hkeeps => exact if_pos hkeeps.2
      · -- the item has been taken up before, and if there was none, none is taken up again
        exact ite_self _
    · have hleft : ¬∀ x ∈ xs ++ [p] ++ [c], t.loop = x.loopName := fun h =>
        hsame ((h p (by simp)).symm.trans (h c (by simp)))
      rw [if_neg fun h => hsame h.1, if_neg fun h => hleft h.1]

end ScanState

namespace Flow

/-! ## From screen to screen -/

/-- The screens after one of the flow, up to a later one and with it. -/
def wayTo (f : Flow) (s c : Screen) : List Screen :=
  (s.later f.screens).takeWhile (·.fullRoute ≠ c.fullRoute) ++ [c]

/-- The item that a later screen is looked at for, when the filer comes from a screen `s` shown for
an item.

In a loop that leads from item to item it is the item of the filer, if there is one and `s` belongs
to the loop, and else the first item of the collection. Any other screen is looked at for the item
of the filer if all screens on the way to it belong to the loop of `s`, or to none as `s` does, and
else for no item. -/
def carriedTo (f : Flow) (facts : String → Fact) (s : Screen) (item : Option String) (c : Screen) :
    Option String :=
  if c.isAutoIterating then
    if item.isSome && c.membership = s.membership then item
    else c.collection.bind fun path => (facts path).items.head?
  else if (f.wayTo s c).all (·.membership = s.membership) then item
  else none

/-- A screen is the first after another one that is routed to automatically and can be shown for the
item that is carried to it. -/
def IsFirstReached (f : Flow) (ctx : Context) (facts : String → Fact) (s : Screen)
    (item : Option String) (c : Screen) : Prop :=
  ∃ before between after, f.screens = before ++ s :: (between ++ c :: after) ∧
    c.reachedAt ctx facts (f.carriedTo facts s item c) = true ∧
    ∀ x ∈ between, x.reachedAt ctx facts (f.carriedTo facts s item x) = false

section

variable (hf : f.Arranged) {before between after : List Screen}
  (hsplit : f.screens = before ++ s :: (between ++ c :: after))

include hf hsplit

theorem wayTo_eq : f.wayTo s c = between ++ [c] := by
  have hroutes := hf.screenRoutes
  rw [hsplit, List.append_cons, ← List.append_assoc, List.map_append, List.nodup_append] at hroutes
  have hbetween : ∀ x ∈ between, decide (x.fullRoute ≠ c.fullRoute) = true := fun x hx => by
    have hx' : x.fullRoute ∈ (before ++ [s] ++ between).map (·.fullRoute) :=
      List.mem_map_of_mem (List.mem_append_right _ hx)
    simpa using hroutes.2.2 _ hx' _ List.mem_cons_self
  rw [wayTo, later_eq hf.screenRoutes hsplit, List.takeWhile_append_of_pos hbetween,
    List.takeWhile_cons_of_neg (by simp), List.append_nil]

/-- All screens on the way to a screen of a loop belong to it, if the first one does. -/
theorem forall_loopName_eq_iff (hauto : c.isAutoIterating = true) :
    (∀ x ∈ between ++ [c], s.loopName = x.loopName) ↔ s.loopName = c.loopName := by
  constructor
  · intro h
    exact h c List.mem_concat_self
  · intro hsame x hx
    rcases List.mem_append.mp hx with hx | hx
    · have hsub : [s, x, c].Sublist f.screens := by
        rw [hsplit]
        refine (List.Sublist.cons_cons s ?_).trans (List.sublist_append_right before _)
        exact (List.singleton_sublist.mpr hx).append
          (List.singleton_sublist.mpr List.mem_cons_self)
      rw [hsame]
      exact (hf.loopName_between hsub hsame (Screen.isSome_loopName hauto)).symm
    · rw [List.mem_singleton.mp hx]
      exact hsame

/-- **What a scan carries to a screen** does not depend on how it has come there. -/
theorem item_looking_past : ((ScanState.past facts ⟨s.loopName, item⟩ between).looking facts c).item
    = f.carriedTo facts s item c := by
  have hs : s ∈ f.screens := by simp [hsplit]
  have hway : ∀ x ∈ between ++ [c], x ∈ f.screens := fun x hx => by
    rw [hsplit, List.append_cons between]
    exact List.mem_append_right before (List.mem_cons_of_mem s (List.mem_append_left after hx))
  have hc := hway c List.mem_concat_self
  rw [ScanState.looking_past_eq hf ⟨s.loopName, item⟩ hway]
  unfold carriedTo
  cases hauto : c.isAutoIterating with
  | true =>
    have hkeeps : ((∀ x ∈ between ++ [c], s.loopName = x.loopName) ∧
        (item.isSome = true ∨ true = false)) ↔
        (item.isSome && c.membership = s.membership) = true := by
      rw [forall_loopName_eq_iff hf hsplit hauto, ← hf.membership_eq_iff hs hc, eq_comm]
      simp [and_comm]
    have hfirst : c.takenUpItem facts = c.collection.bind fun path => (facts path).items.head? := by
      simp [Screen.takenUpItem, Screen.neededCollection, hauto]
    rw [if_pos rfl, hfirst]
    exact if_congr hkeeps rfl rfl
  | false =>
    have hkeeps : ((∀ x ∈ between ++ [c], s.loopName = x.loopName) ∧
        (item.isSome = true ∨ false = false)) ↔
        (f.wayTo s c).all (·.membership = s.membership) = true := by
      rw [wayTo_eq hf hsplit, List.all_eq_true, and_iff_left (.inr rfl)]
      refine forall₂_congr fun x hx => ?_
      rw [← hf.membership_eq_iff hs (hway x hx), decide_eq_true_eq, eq_comm]
    rw [if_neg Bool.false_ne_true, Screen.takenUpItem_of_not_auto hauto]
    exact if_congr hkeeps rfl rfl

end

section

variable (hf : f.Arranged) (hs : s ∈ f.screens)

include hf hs

/-- A scan from a screen is a search of the later ones for the first that is reached for the item
carried to it. -/
theorem run_scan_later : (scan ctx ⟨s.loopName, item⟩ (s.later f.screens)).run facts =
    ((s.later f.screens).find? fun c => c.reachedAt ctx facts (f.carriedTo facts s item c)).map
      fun c => (c, f.carriedTo facts s item c) := by
  obtain ⟨before, later, hsplit⟩ := List.append_of_mem hs
  refine run_scan_eq_find? fun between c after hlater => ?_
  have hsplit' : f.screens = before ++ s :: (between ++ c :: after) := by
    rw [← hlater, later_eq hf.screenRoutes hsplit, hsplit]
  exact item_looking_past hf hsplit'

theorem isFirstReached_iff : f.IsFirstReached ctx facts s item c ↔
    (s.later f.screens).find? (fun c => c.reachedAt ctx facts (f.carriedTo facts s item c)) =
      some c := by
  rw [List.find?_eq_some_iff_append]
  constructor
  · rintro ⟨before, between, after, hsplit, hc, hbetween⟩
    refine ⟨hc, between, after, later_eq hf.screenRoutes hsplit, fun x hx => ?_⟩
    rw [hbetween x hx, Bool.not_false]
  · rintro ⟨hc, between, after, hlater, hbetween⟩
    obtain ⟨before, later, hsplit⟩ := List.append_of_mem hs
    refine ⟨before, between, after, ?_, hc, fun x hx => by simpa using hbetween x hx⟩
    rw [← hlater, later_eq hf.screenRoutes hsplit, hsplit]

/-- The first screen that is reached is what a scan finds, with the item carried to it. -/
theorem run_scan_later_eq_some_iff {item' : Option String} :
    (scan ctx ⟨s.loopName, item⟩ (s.later f.screens)).run facts = some (c, item') ↔
      f.IsFirstReached ctx facts s item c ∧ item' = f.carriedTo facts s item c := by
  rw [run_scan_later hf hs, isFirstReached_iff hf hs, Option.map_eq_some_iff]
  constructor
  · rintro ⟨x, hx, heq⟩
    obtain ⟨rfl, rfl⟩ := Prod.mk.inj heq
    exact ⟨hx, rfl⟩
  · rintro ⟨hc, rfl⟩
    exact ⟨c, hc, rfl⟩

theorem run_scan_later_eq_none_iff :
    (scan ctx ⟨s.loopName, item⟩ (s.later f.screens)).run facts = none ↔
      ∀ c, ¬f.IsFirstReached ctx facts s item c := by
  constructor
  · intro hnone c hc
    cases hnone.symm.trans ((run_scan_later_eq_some_iff hf hs).mpr ⟨hc, rfl⟩)
  · intro hnone
    rw [Option.eq_none_iff_forall_ne_some]
    rintro ⟨c, item'⟩ hfound
    exact hnone c ((run_scan_later_eq_some_iff hf hs).mp hfound).1

/-! ## What a step goes on with -/

/-- A step that gets past the end of a pass goes on with the first screen that is reached. -/
theorem run_next_of_isFirstReached {review : Bool}
    (hend : (f.endOfLoop ctx s item).run facts = .ok none)
    (hc : f.IsFirstReached ctx facts s item c) : (f.next ctx s item review).run facts =
      (f.leave ctx s item review (c, f.carriedTo facts s item c)).run facts := by
  have hscan := (run_scan_later_eq_some_iff hf hs).mpr ⟨hc, rfl⟩
  rw [run_next, hend, hscan]

/-- A step that gets past the end of a pass fails for want of a screen if none is reached. -/
theorem run_next_eq_nothingFollows_iff {review : Bool} {r : String}
    (hend : (f.endOfLoop ctx s item).run facts = .ok none) :
    (f.next ctx s item review).run facts = .error (.nothingFollows r) ↔
      r = s.fullRoute ∧ ∀ c, ¬f.IsFirstReached ctx facts s item c := by
  rw [← run_scan_later_eq_none_iff hf hs, run_next, hend]
  cases (scan ctx ⟨s.loopName, item⟩ (s.later f.screens)).run facts with
  | none => simp [eq_comm]
  | some found =>
    obtain ⟨c, item'⟩ := found
    simp [run_leave_eq_error_iff]

end

/-- **The context that a scan carries**: whenever a step gets past the end of a pass, its scan finds
the first screen that is reached for the item carried to it, together with that item, and the step
goes on from there. It fails for want of a screen exactly if there is none. -/
theorem scan_selects_first {o : Outline} (hbuild : build o = .ok f) (hs : s ∈ f.screens)
    (hend : (f.endOfLoop ctx s item).run facts = .ok none) (review : Bool) :
    (∀ c item', (scan ctx ⟨s.loopName, item⟩ (s.later f.screens)).run facts = some (c, item') ↔
      f.IsFirstReached ctx facts s item c ∧ item' = f.carriedTo facts s item c) ∧
    (∀ c, f.IsFirstReached ctx facts s item c → (f.next ctx s item review).run facts =
      (f.leave ctx s item review (c, f.carriedTo facts s item c)).run facts) ∧
    ∀ r, (f.next ctx s item review).run facts = .error (.nothingFollows r) ↔
      r = s.fullRoute ∧ ∀ c, ¬f.IsFirstReached ctx facts s item c := by
  have hf := arranged_of_build hbuild
  refine ⟨fun c item' => ?_, fun c hc => ?_, fun r => ?_⟩
  · exact run_scan_later_eq_some_iff hf hs
  · exact run_next_of_isFirstReached hf hs hend hc
  · exact run_next_eq_nothingFollows_iff hf hs hend

/-- From the wages, opened for no job, the household is led to the first of its pets. -/
theorem scan_selects_household :
    let facts := Household.facts []
    (Household.flow.endOfLoop default (Household.screen 5) none).run facts = .ok none ∧
    Household.flow.carriedTo facts (Household.screen 5) none (Household.screen 6) = some "cat" ∧
    Household.flow.IsFirstReached default facts (Household.screen 5) none (Household.screen 6) ∧
    (Household.flow.next default (Household.screen 5) none false).run facts =
      .ok ⟨.screen (Household.screen 6), some "cat"⟩ := by
  intro facts
  have hmem : Household.screen 5 ∈ Household.flow.screens := List.get_mem _ _
  have hend : (Household.flow.endOfLoop default (Household.screen 5) none).run facts = .ok none :=
    rfl
  obtain ⟨hselects, hgoes, -⟩ := scan_selects_first Household.build_outline hmem hend false
  have hscan : (scan default ⟨(Household.screen 5).loopName, none⟩
      ((Household.screen 5).later Household.flow.screens)).run facts =
        some (Household.screen 6, some "cat") := rfl
  obtain ⟨hfirst, hitem⟩ := (hselects _ _).mp hscan
  refine ⟨hend, hitem.symm, hfirst, ?_⟩
  rw [hgoes _ hfirst, ← hitem]
  rfl

end Flow

end Interview

import Interview.Proofs.Routing
import Mathlib.Data.Finset.Prod
import Mathlib.Data.Prod.Lex

/-!
# Runs come to an end

The restart of a loop leads backwards in the order of screens, so the order alone does not show that
a run ends. What grows with every step is a triple: where the screens begin that share a pass with
the screen, the turn of the item, and the position of the screen, compared in this order
(`place_lt_of_leads`). A run is therefore sorted by a strict order. It shows nothing twice, and it
is no longer than there are turns and positions.
-/

namespace Interview

variable {f : Flow} {ctx : Context} {facts : String → Fact} {review : Bool}

/-! ## Turns and positions -/

/-- The turn of an item, counted from one. Before the first turn there is no item, or one that is
not gone through. -/
def turn (items : List String) : Option String → Nat
  | none => 0
  | some item => if item ∈ items then items.idxOf item + 1 else 0

theorem turn_le (items : List String) (item : Option String) : turn items item ≤ items.length := by
  cases item with
  | none => exact Nat.zero_le _
  | some item =>
    rw [turn]
    split
    · next hmem => exact List.idxOf_lt_length_iff.mpr hmem
    · exact Nat.zero_le _

/-- The next item is taken up in a later turn. -/
theorem turn_lt_of_itemAfter {items : List String} {i i' : String} (hdistinct : items.Nodup)
    (h : itemAfter i items = some i') : turn items (some i) < turn items (some i') := by
  obtain ⟨before, after, rfl, hi⟩ := exists_of_itemAfter h
  obtain ⟨-, hrest, hdisjoint⟩ := List.nodup_append.mp hdistinct
  have hi' : i' ∉ before := fun hmem => hdisjoint i' hmem i' (by simp) rfl
  have hne : i ≠ i' := fun h => (List.nodup_cons.mp hrest).1 (by simp [h])
  have hturn : turn (before ++ i :: i' :: after) (some i) = before.length + 1 := by
    simp [turn, List.idxOf_append, hi]
  have hturn' : turn (before ++ i :: i' :: after) (some i') = before.length + 2 := by
    rw [turn, if_pos (by simp), List.idxOf_append_of_notMem hi', List.idxOf_cons_ne _ hne,
      List.idxOf_cons_self]
  omega

/-- What begins after a screen begins at a later position. -/
theorem idxOf_lt_findIdx {s : Screen} {before after : List Screen} {p : Screen → Bool}
    (h : ∀ x ∈ before ++ [s], p x = false) :
    (before ++ s :: after).idxOf s < (before ++ s :: after).findIdx p := by
  rw [List.append_cons]
  have hidx : (before ++ [s] ++ after).idxOf s < (before ++ [s]).length := by
    rw [List.idxOf_append_of_mem (by simp)]
    exact List.idxOf_lt_length_iff.mpr (by simp)
  have hfind : (before ++ [s]).findIdx p = (before ++ [s]).length :=
    List.findIdx_eq_length_of_false h
  rw [List.findIdx_append, hfind, if_neg (Nat.lt_irrefl _)]
  omega

namespace Screen

/-- The items that the loop of a screen leads through. -/
def members (facts : String → Fact) (s : Screen) : List String :=
  s.neededCollection.elim [] fun collection => (facts collection).items

/-- Whether a pass that shows the first screen may show the second as well: it is the same one, or
one of the same loop that leads from item to item. -/
def sharesPass (s x : Screen) : Bool :=
  x = s || (s.isAutoIterating && x.loopName = s.loopName)

end Screen

namespace Flow

/-- The turn of an item and the position of the screen that is shown for it. -/
def turnAndPosition (f : Flow) (facts : String → Fact) (p : Screen × Option String) : ℕ × ℕ :=
  (turn (p.1.members facts) p.2, f.screens.idxOf p.1)

/-- The place of a screen, shown for an item, among all that a run may show. -/
def place (f : Flow) (facts : String → Fact) (p : Screen × Option String) : ℕ ×ₗ ℕ ×ₗ ℕ :=
  toLex (f.screens.findIdx p.1.sharesPass, toLex (f.turnAndPosition facts p))

/-- The number of items of the longest loop that leads from item to item. -/
def longestPass (f : Flow) (facts : String → Fact) : Nat :=
  (((f.loops.filter (·.autoIterates)).map fun l => (facts l.collection).items.length).max?).getD 0

/-! ## Screens of one loop -/

section

variable {l : Loop} {s t : Screen} (hf : f.Arranged) (hl : l ∈ f.loops)
  (hauto : l.autoIterates = true)

include hf hl hauto

theorem members_of_mem (hs : s ∈ f.screensOfLoop l) :
    s.members facts = (facts l.collection).items := by
  have hiterates : s.isAutoIterating = true := (hf.isAutoIterating_of_mem hl hs).trans hauto
  simp [Screen.members, Screen.neededCollection, hiterates, (hf.of_mem_screensOfLoop hl hs).2.1]

theorem sharesPass_of_mem (hs : s ∈ f.screensOfLoop l) :
    s.sharesPass = fun x : Screen => decide (x.loopName = some l.name) := by
  funext x
  have hiterates : s.isAutoIterating = true := (hf.isAutoIterating_of_mem hl hs).trans hauto
  have hname : s.loopName = some l.name := (mem_screensOfLoop.mp hs).2
  by_cases heq : x = s
  · subst heq
    simp [Screen.sharesPass, hname]
  · simp [Screen.sharesPass, hiterates, hname, heq]

/-- Within a loop, the place is decided by the turn and then by the position. -/
theorem place_lt_place_of_mem (hs : s ∈ f.screensOfLoop l) (ht : t ∈ f.screensOfLoop l)
    {item item' : Option String}
    (h : turn (facts l.collection).items item < turn (facts l.collection).items item' ∨
      turn (facts l.collection).items item = turn (facts l.collection).items item' ∧
        f.screens.idxOf s < f.screens.idxOf t) :
    f.place facts (s, item) < f.place facts (t, item') := by
  unfold place turnAndPosition
  rw [Prod.Lex.toLex_lt_toLex, Prod.Lex.toLex_lt_toLex, sharesPass_of_mem hf hl hauto hs,
    sharesPass_of_mem hf hl hauto ht, members_of_mem hf hl hauto hs,
    members_of_mem hf hl hauto ht]
  exact .inr ⟨rfl, h⟩

end

/-! ## Steps -/

/-- A step to a later screen leads to a later place, unless it leads back to an earlier turn of the
same loop. -/
theorem place_lt_of_later (hf : f.Arranged) {s t : Screen} {middle : List Screen}
    (hlater : (s :: (middle ++ [t])).Sublist f.screens) {item item' : Option String}
    (hitem : t.isAutoIterating = true → s.loopName = t.loopName → item = none ∨ item = item') :
    f.place facts (s, item) < f.place facts (t, item') := by
  have hnodup : f.screens.Nodup := List.Nodup.of_map _ hf.screenRoutes
  have ht : t ∈ f.screens := hlater.subset (by simp)
  have hs : s ∈ f.screens := hlater.subset (by simp)
  -- the screens up to the first one, and those after it
  obtain ⟨upto, rest, heq, hmem, hrest⟩ := List.cons_sublist_iff.mp hlater
  obtain ⟨before, between, rfl⟩ := List.append_of_mem hmem
  rw [List.append_assoc, List.cons_append] at heq
  have hafter : t ∈ between ++ rest := List.mem_append_right _ (hrest.subset (by simp))
  have hnew : ∀ x ∈ before ++ [s], x ≠ t := by
    rintro x hx rfl
    rw [heq, List.append_cons, List.nodup_append] at hnodup
    exact hnodup.2.2 x hx x hafter rfl
  have hposition : f.screens.idxOf s < f.screens.idxOf t := by
    rw [heq]
    exact idxOf_lt_findIdx fun x hx => by simpa using hnew x hx
  by_cases hsame : t.isAutoIterating = true ∧ s.loopName = t.loopName
  · obtain ⟨l, hl, hauto, htl⟩ := hf.exists_loop_of_isAutoIterating ht hsame.1
    have hsl : s ∈ f.screensOfLoop l :=
      mem_screensOfLoop.mpr ⟨hs, hsame.2.trans (mem_screensOfLoop.mp htl).2⟩
    refine place_lt_place_of_mem hf hl hauto hsl htl ?_
    -- a screen shown for no item comes before the first turn, and else the item stays the same
    rcases hitem hsame.1 hsame.2 with rfl | rfl
    · rcases Nat.eq_zero_or_pos (turn (facts l.collection).items item') with hzero | hpos
      · exact .inr ⟨hzero.symm, hposition⟩
      · exact .inl hpos
    · exact .inr ⟨rfl, hposition⟩
  · -- nothing up to the first screen shares a pass with the second, whose loop is one stretch
    have hfresh : ∀ x ∈ before ++ [s], t.sharesPass x = false := by
      intro x hx
      have hne : x ≠ t := hnew x hx
      cases hauto : t.isAutoIterating with
      | false => simp [Screen.sharesPass, hne, hauto]
      | true =>
        have hst : s.loopName ≠ t.loopName := fun h => hsame ⟨hauto, h⟩
        suffices x.loopName ≠ t.loopName by simp [Screen.sharesPass, hne, this]
        intro hxt
        rcases List.mem_append.mp hx with hx | hx
        · refine hst (hf.loopName_between ?_ hxt (Screen.isSome_loopName hauto))
          rw [heq]
          exact (List.singleton_sublist.mpr hx).append
            ((List.singleton_sublist.mpr hafter).cons_cons s)
        · exact hst (List.mem_singleton.mp hx ▸ hxt)
    have hstart : f.screens.findIdx s.sharesPass ≤ f.screens.idxOf s := by
      refine List.findIdx_le_findIdx fun x _ hx => ?_
      simp [Screen.sharesPass, beq_iff_eq.mp hx]
    have hend : f.screens.idxOf s < f.screens.findIdx t.sharesPass := by
      rw [heq]
      exact idxOf_lt_findIdx hfresh
    unfold place
    rw [Prod.Lex.toLex_lt_toLex]
    exact .inl (Nat.lt_of_le_of_lt hstart hend)

/-- What a scan finds in the loop that it sets out from is found for the item that it sets out with,
if there is one. -/
theorem item_eq_of_scan (hf : f.Arranged) {s t : Screen} {item item' : Option String}
    {xs : List Screen} (hs : s ∈ f.screens) (hxs : xs.Sublist f.screens)
    (hscan : (scan ctx ⟨s.loopName, item⟩ (s.later xs)).run facts = some (t, item'))
    (hauto : t.isAutoIterating = true) (hloop : s.loopName = t.loopName) :
    item = none ∨ item = item' := by
  obtain ⟨before, after, hlater, rfl, -⟩ := run_scan_eq_some hscan
  have hsub := sublist_of_later hf hs hxs hlater
  rcases Option.eq_none_or_eq_some item with rfl | ⟨i, rfl⟩
  · exact .inl rfl
  · right
    -- the scan does not leave the loop on the way, so it keeps the item
    have hinside : ∀ x ∈ before, x.loopName = s.loopName := by
      intro x hx
      rw [hloop]
      refine hf.loopName_between (List.Sublist.trans ?_ hsub) hloop (Screen.isSome_loopName hauto)
      exact ((List.singleton_sublist.mpr hx).append (List.Sublist.refl [t])).cons_cons s
    rw [ScanState.past_inside hinside (.inl rfl),
      ScanState.looking_inside hloop.symm (.inl rfl)]

/-- No loop that leads from item to item leads to an item twice. -/
def LeadsThroughOnce (f : Flow) (facts : String → Fact) : Prop :=
  ∀ l ∈ f.loops, l.autoIterates = true → (facts l.collection).items.Nodup

/-- **Every step leads to a later place.** -/
theorem place_lt_of_leads (hf : f.Arranged) (honce : f.LeadsThroughOnce facts)
    {p q : Screen × Option String} (hp : p.1 ∈ f.screens)
    (hleads : f.Leads ctx facts review p q) : f.place facts p < f.place facts q := by
  obtain ⟨s, item⟩ := p
  obtain ⟨t, item'⟩ := q
  rcases run_next_eq_screen hf hp hleads with
    ⟨l, hl, i, i', hauto, hlast, rfl, rfl, hnext, hfirst⟩ | ⟨xs, hxs, hscan⟩
  · -- a restart goes back, but to a later turn
    refine place_lt_place_of_mem hf hl hauto (mem_screensOfLoop_of_lastAt hlast)
      (mem_screensOfLoop_of_firstAt hfirst) (.inl ?_)
    exact turn_lt_of_itemAfter (honce l hl hauto) hnext
  · obtain ⟨before, after, hlater, -⟩ := run_scan_eq_some hscan
    exact place_lt_of_later hf (sublist_of_later hf hp hxs hlater)
      (item_eq_of_scan hf hp hxs hscan)

/-! ## Runs -/

/-- A step leads to a screen of the flow. -/
theorem mem_screens_of_leads (hf : f.Arranged) {p q : Screen × Option String}
    (hp : p.1 ∈ f.screens) (hleads : f.Leads ctx facts review p q) : q.1 ∈ f.screens := by
  rcases run_next_eq_screen hf hp hleads with
    ⟨l, -, i, i', -, -, -, -, -, hfirst⟩ | ⟨xs, hxs, hscan⟩
  · exact (mem_screensOfLoop.mp (mem_screensOfLoop_of_firstAt hfirst)).1
  · obtain ⟨before, after, hlater, -⟩ := run_scan_eq_some hscan
    exact (sublist_of_later hf hp hxs hlater).subset (by simp)

theorem turn_le_longestPass (hf : f.Arranged) {s : Screen} (hs : s ∈ f.screens)
    (item : Option String) : turn (s.members facts) item ≤ f.longestPass facts := by
  cases hauto : s.isAutoIterating with
  | false =>
    have hnil : s.members facts = [] := by simp [Screen.members, Screen.neededCollection, hauto]
    rw [hnil]
    exact (turn_le [] item).trans (Nat.zero_le _)
  | true =>
    obtain ⟨l, hl, hiterates, hsl⟩ := hf.exists_loop_of_isAutoIterating hs hauto
    rw [members_of_mem hf hl hiterates hsl]
    refine (turn_le _ item).trans (List.le_max?_getD_of_mem ?_)
    exact List.mem_map.mpr ⟨l, List.mem_filter.mpr ⟨hl, hiterates⟩, rfl⟩

section

variable {start : Screen × Option String} {ps : List (Screen × Option String)}

/-- A run shows screens of the flow only. -/
theorem IsRun.mem_screens (hf : f.Arranged) (hstart : start.1 ∈ f.screens)
    (hrun : f.IsRun ctx facts review start ps) : ∀ p ∈ ps, p.1 ∈ f.screens :=
  hrun.forall_mem (P := (·.1 ∈ f.screens)) hstart
    fun _ _ _ hleads hp => mem_screens_of_leads hf hp hleads

/-- A run is sorted by place. -/
theorem IsRun.sorted (hf : f.Arranged) (honce : f.LeadsThroughOnce facts)
    (hstart : start.1 ∈ f.screens) (hrun : f.IsRun ctx facts review start ps) :
    (ps.map (f.place facts)).Pairwise (· < ·) := by
  rw [← List.isChain_iff_pairwise, List.isChain_map]
  refine hrun.leads.imp_of_mem_imp fun p q hp _ hleads => ?_
  exact place_lt_of_leads hf honce (hrun.mem_screens hf hstart p hp) hleads

/-- **A run shows nothing twice.** -/
theorem IsRun.nodup (hf : f.Arranged) (honce : f.LeadsThroughOnce facts)
    (hstart : start.1 ∈ f.screens) (hrun : f.IsRun ctx facts review start ps) : ps.Nodup :=
  List.Nodup.of_map _ ((hrun.sorted hf honce hstart).imp ne_of_lt)

/-- **A run is bounded** by the number of positions and turns. -/
theorem IsRun.length_le (hf : f.Arranged) (honce : f.LeadsThroughOnce facts)
    (hstart : start.1 ∈ f.screens) (hrun : f.IsRun ctx facts review start ps) :
    ps.length ≤ f.screens.length * (1 + f.longestPass facts) := by
  have hmem := hrun.mem_screens hf hstart
  -- a screen is known by its position, so turn and position tell the places of a run apart
  have hdistinct : (ps.map (f.turnAndPosition facts)).Nodup := by
    have hplaces := List.pairwise_map.mp (hrun.sorted hf honce hstart)
    refine List.pairwise_map.mpr (hplaces.imp_of_mem fun {p q} hp _ hlt heq => ne_of_lt hlt ?_)
    have hscreen : p.1 = q.1 := (List.idxOf_inj (hmem p hp)).mp (congrArg Prod.snd heq)
    rw [place, place, heq, hscreen]
  -- and there are no more of them than turns and positions
  have hbounds : ps.map (f.turnAndPosition facts) ⊆
      (List.range (1 + f.longestPass facts)).product (List.range f.screens.length) := by
    intro x hx
    obtain ⟨p, hp, rfl⟩ := List.mem_map.mp hx
    rw [turnAndPosition, List.pair_mem_product, List.mem_range, List.mem_range]
    have hturn : turn (p.1.members facts) p.2 ≤ f.longestPass facts :=
      turn_le_longestPass hf (hmem p hp) p.2
    exact ⟨by omega, List.idxOf_lt_length_iff.mpr (hmem p hp)⟩
  calc ps.length = (ps.map (f.turnAndPosition facts)).length := (List.length_map _).symm
    _ ≤ ((List.range (1 + f.longestPass facts)).product (List.range f.screens.length)).length :=
      (List.subperm_of_subset hdistinct hbounds).length_le
    _ = (1 + f.longestPass facts) * f.screens.length :=
      (List.length_product _ _).trans (by rw [List.length_range, List.length_range])
    _ = f.screens.length * (1 + f.longestPass facts) := Nat.mul_comm _ _

/-- A run ends with a step that leads out of the screens, or nowhere. -/
def Ends (f : Flow) (ctx : Context) (facts : String → Fact) (review : Bool)
    (p : Screen × Option String) : Prop :=
  ∀ a, (f.next ctx p.1 p.2 review).run facts = .ok a → a.screen? = none

variable (f ctx facts review) in
/-- A run that does not end yet goes on. -/
theorem ends_or_exists_leads (p : Screen × Option String) :
    f.Ends ctx facts review p ∨ ∃ q, f.Leads ctx facts review p q := by
  unfold Ends Leads
  cases (f.next ctx p.1 p.2 review).run facts with
  | error e =>
    left
    intro a ha
    cases ha
  | ok a =>
    obtain ⟨destination, item⟩ := a
    cases destination with
    | screen s => exact .inr ⟨(s, item), rfl⟩
    | checklist | dataView | loopDataView =>
      left
      intro a ha
      rw [← Except.ok.inj ha]
      rfl

variable (f ctx facts review) in
/-- From every place there are runs of every length, up to one that ends. -/
theorem exists_run (start : Screen × Option String) (n : Nat) :
    ∃ ps last, f.IsRun ctx facts review start (ps ++ [last]) ∧
      (f.Ends ctx facts review last ∨ ps.length = n) := by
  induction n with
  | zero => exact ⟨[], start, ⟨rfl, .singleton start⟩, .inr rfl⟩
  | succ n ih =>
    obtain ⟨ps, last, hrun, hend | hlength⟩ := ih
    · exact ⟨ps, last, hrun, .inl hend⟩
    · rcases f.ends_or_exists_leads ctx facts review last with
        hend | ⟨next, hleads⟩
      · exact ⟨ps, last, hrun, .inl hend⟩
      · refine ⟨ps ++ [last], next, ⟨?_, ?_⟩, .inr (by simp [hlength])⟩
        · rw [List.head?_append, hrun.starts, Option.some_or]
        · refine hrun.leads.append (.singleton next) fun x hx y hy => ?_
          obtain rfl : last = x := by simpa using hx
          obtain rfl : next = y := by simpa using hy
          exact hleads

end

/-- **Runs show nothing twice and come to an end.** -/
theorem run_ends_without_repetition {o : Outline} (hbuild : build o = .ok f)
    (honce : f.LeadsThroughOnce facts) {start : Screen × Option String}
    (hstart : start.1 ∈ f.screens) :
    (∀ ps, f.IsRun ctx facts review start ps →
      ps.Nodup ∧ ps.length ≤ f.screens.length * (1 + f.longestPass facts)) ∧
    ∃ ps last, f.IsRun ctx facts review start (ps ++ [last]) ∧ f.Ends ctx facts review last := by
  have hf := arranged_of_build hbuild
  refine ⟨fun ps hrun => ⟨hrun.nodup hf honce hstart, hrun.length_le hf honce hstart⟩, ?_⟩
  obtain ⟨ps, last, hrun, hend | hlength⟩ := f.exists_run ctx facts review
    start (f.screens.length * (1 + f.longestPass facts))
  · exact ⟨ps, last, hrun, hend⟩
  · -- a run of this length would be too long
    have hle := hrun.length_le hf honce hstart
    rw [List.length_append, hlength, List.length_singleton] at hle
    omega

/-- No run through the household shows more than twenty-seven pages. -/
theorem run_ends_household : Household.screen 0 ∈ Household.flow.screens ∧
    Household.flow.LeadsThroughOnce (Household.facts []) ∧
    (∀ ps, Household.flow.IsRun default (Household.facts []) true (Household.screen 0, none) ps →
      ps.Nodup ∧ ps.length ≤ 27) ∧
    ∃ ps last, Household.flow.IsRun default (Household.facts []) true (Household.screen 0, none)
      (ps ++ [last]) ∧ Household.flow.Ends default (Household.facts []) true last := by
  have hstart : Household.screen 0 ∈ Household.flow.screens := List.get_mem _ _
  have honce : Household.flow.LeadsThroughOnce (Household.facts []) := by
    unfold LeadsThroughOnce
    decide
  exact ⟨hstart, honce, run_ends_without_repetition Household.build_outline honce hstart⟩

end Flow

end Interview

import Interview.Proofs.CarriedItems
import Interview.Proofs.Passes

/-!
# What comes of a step

Two exact accounts of a step. The first is of its failures (`Flow.FailsWith`): a loop has nothing to
show for its next item, no later screen is reached, or a topic is left in review that the screen does
not belong to. A built flow has no other: the loop and the topic that a screen names are there.

The second is of the screens that are not routed to automatically. A scan passes over them, whether
it looks for a later screen of the flow or for one that is left of a topic. The restart of a loop
does not: it takes the first screen that can be shown for the next item, whatever it is. So they are
shown at the start of a pass and nowhere else (`Flow.routed_or_startsNextPass`).
-/

namespace Interview

variable {f : Flow} {ctx : Context} {facts : String → Fact} {s t : Screen} {i i' : String}
  {item item' : Option String} {review : Bool}

/-! ## The end of a pass -/

/-- Another item stands right behind the first place of an item. -/
def IsFollowedBy (i i' : String) (items : List String) : Prop :=
  ∃ before after, items = before ++ i :: i' :: after ∧ i ∉ before

theorem itemAfter_eq_some_iff {items : List String} :
    itemAfter i items = some i' ↔ IsFollowedBy i i' items := by
  constructor
  · exact exists_of_itemAfter
  · rintro ⟨before, after, rfl, hi⟩
    exact itemAfter_append hi

namespace Flow

/-- A screen ends the pass of a loop over an item: it is the last screen of the loop that can be
shown for it. -/
def EndsPass (f : Flow) (ctx : Context) (facts : String → Fact) (l : Loop) (i : String)
    (s : Screen) : Prop :=
  ∃ before after, f.screensOfLoop l = before ++ s :: after ∧
    s.availableAt ctx facts (some i) = true ∧ ∀ x ∈ after, x.availableAt ctx facts (some i) = false

/-- A screen starts the pass of a loop over an item: it is the first screen of the loop that can be
shown for it. -/
def StartsPass (f : Flow) (ctx : Context) (facts : String → Fact) (l : Loop) (i : String)
    (s : Screen) : Prop :=
  ∃ before after, f.screensOfLoop l = before ++ s :: after ∧
    s.availableAt ctx facts (some i) = true ∧ ∀ x ∈ before, x.availableAt ctx facts (some i) = false

/-- A screen is left by a scan: it does not end a pass, or it ends one that no other follows, in a
loop that leads from item to item. -/
def IsLeftByScan (f : Flow) (ctx : Context) (facts : String → Fact) (s : Screen)
    (item : Option String) : Prop :=
  ∀ l ∈ f.loops, ∀ i, item = some i → f.EndsPass ctx facts l i s →
    l.autoIterates = true ∧ ∀ i', ¬IsFollowedBy i i' (facts l.collection).items

variable {l : Loop}

theorem lastAt_eq_some_iff : f.lastAt ctx facts l i = some s ↔ f.EndsPass ctx facts l i s := by
  constructor
  · exact exists_split_of_lastAt
  · rintro ⟨before, after, heq, havail, hafter⟩
    rw [lastAt, List.find?_eq_some_iff_append]
    refine ⟨havail, after.reverse, before.reverse, by simp [heq], fun x hx => ?_⟩
    simpa using hafter x (List.mem_reverse.mp hx)

theorem firstAt_eq_some_iff : f.firstAt ctx facts l i = some s ↔ f.StartsPass ctx facts l i s := by
  rw [firstAt, List.find?_eq_some_iff_append]
  constructor
  · rintro ⟨havail, before, after, heq, hbefore⟩
    exact ⟨before, after, heq, havail, fun x hx => by simpa using hbefore x hx⟩
  · rintro ⟨before, after, heq, havail, hbefore⟩
    exact ⟨havail, before, after, heq, fun x hx => by simp [hbefore x hx]⟩

theorem EndsPass.mem (h : f.EndsPass ctx facts l i s) : s ∈ f.screensOfLoop l := by
  obtain ⟨before, after, heq, -⟩ := h
  rw [heq]
  exact List.mem_append_right before List.mem_cons_self

section

variable (hf : f.Arranged)

include hf

/-- At the end of a pass, the rule for it decides. -/
theorem EndsPass.run_endOfLoop (hl : l ∈ f.loops) (h : f.EndsPass ctx facts l i s) :
    (f.endOfLoop ctx s (some i)).run facts = f.afterPass ctx facts l i := by
  rw [Flow.run_endOfLoop hf hl h.mem, if_pos (lastAt_eq_some_iff.mpr h)]

/-- The rule for the end of a pass has no result exactly where a screen is left by a scan. -/
theorem run_endOfLoop_eq_none_iff (hs : s ∈ f.screens) :
    (f.endOfLoop ctx s item).run facts = .ok none ↔ f.IsLeftByScan ctx facts s item := by
  constructor
  · rintro hend l hl i rfl hends
    rw [hends.run_endOfLoop hf hl] at hend
    unfold afterPass at hend
    cases hauto : l.autoIterates with
    | false => simp [hauto] at hend
    | true =>
      refine ⟨rfl, fun i' hnext => ?_⟩
      rw [if_pos hauto, itemAfter_eq_some_iff.mpr hnext] at hend
      cases hfirst : f.firstAt ctx facts l i' <;> simp [hfirst] at hend
  · intro hleft
    by_contra hend
    obtain ⟨l, hl, i, rfl, -, hlast, hafter⟩ := exists_of_run_endOfLoop hf hs hend
    obtain ⟨hauto, hnone⟩ := hleft l hl i rfl (lastAt_eq_some_iff.mp hlast)
    have hnext : itemAfter i (facts l.collection).items = none := by
      rw [Option.eq_none_iff_forall_ne_some]
      exact fun i' h => hnone i' (itemAfter_eq_some_iff.mp h)
    rw [hafter, afterPass, if_pos hauto, hnext] at hend
    exact hend rfl

/-- The rule for the end of a pass fails where the pass is followed by one without a screen. -/
theorem run_endOfLoop_eq_error_iff (hs : s ∈ f.screens) {e : NavigationError} :
    (f.endOfLoop ctx s item).run facts = .error e ↔ ∃ l ∈ f.loops, ∃ i i', item = some i ∧
      l.autoIterates = true ∧ f.EndsPass ctx facts l i s ∧
      IsFollowedBy i i' (facts l.collection).items ∧
      (∀ x ∈ f.screensOfLoop l, x.availableAt ctx facts (some i') = false) ∧
      e = .noScreenForItem l.name i' := by
  constructor
  · intro herror
    have hend : (f.endOfLoop ctx s item).run facts ≠ .ok none := by rw [herror]; simp
    obtain ⟨l, hl, i, rfl, -, hlast, hafter⟩ := exists_of_run_endOfLoop hf hs hend
    rw [herror, afterPass] at hafter
    split at hafter
    · next hauto =>
      split at hafter
      · cases hafter
      · next i' hnext =>
        split at hafter
        · cases hafter
        · next hfirst =>
          refine ⟨l, hl, i, i', rfl, hauto, lastAt_eq_some_iff.mp hlast,
            itemAfter_eq_some_iff.mp hnext, fun x hx => ?_, Except.error.inj hafter⟩
          simpa using List.find?_eq_none.mp hfirst x hx
    · cases hafter
  · rintro ⟨l, hl, i, i', rfl, hauto, hends, hnext, hnone, rfl⟩
    have hfirst : f.firstAt ctx facts l i' = none :=
      List.find?_eq_none.mpr fun x hx => by simp [hnone x hx]
    rw [hends.run_endOfLoop hf hl, afterPass, if_pos hauto, itemAfter_eq_some_iff.mpr hnext]
    simp only [hfirst]

end

/-! ## Failures -/

/-- How a step fails. -/
inductive FailsWith (f : Flow) (ctx : Context) (facts : String → Fact) (s : Screen)
    (item : Option String) (review : Bool) : NavigationError → Prop where
  /-- The screen ends the pass of a loop that leads from item to item, and no screen of the loop can
  be shown for the item that follows. -/
  | noScreenForItem {l : Loop} {i i' : String} (hl : l ∈ f.loops) (hitem : item = some i)
      (hauto : l.autoIterates = true) (hends : f.EndsPass ctx facts l i s)
      (hnext : IsFollowedBy i i' (facts l.collection).items)
      (hnone : ∀ x ∈ f.screensOfLoop l, x.availableAt ctx facts (some i') = false) :
      FailsWith f ctx facts s item review (.noScreenForItem l.name i')
  /-- No later screen is routed to automatically and can be shown for the item carried to it. -/
  | nothingFollows (hleft : f.IsLeftByScan ctx facts s item)
      (hnone : ∀ c, [s, c].Sublist f.screens →
        c.reachedAt ctx facts (f.carriedTo facts s item c) = false) :
      FailsWith f ctx facts s item review (.nothingFollows s.fullRoute)
  /-- In review, the screen that follows is no knockout and belongs to another topic, and the
  current one neither stands in for the summary nor belongs to a topic. -/
  | outsideTopic {c : Screen} (hleft : f.IsLeftByScan ctx facts s item)
      (hfirst : f.IsFirstReached ctx facts s item c) (hreview : review = true)
      (hknockout : c.isKnockout = false) (htopic : c.topicRoute ≠ s.topicRoute)
      (hsummary : s.actsAsDataView = false) (hnone : s.topicRoute = none) :
      FailsWith f ctx facts s item review (.outsideTopic s.fullRoute)

section

variable (hf : f.Arranged) (hs : s ∈ f.screens)

include hf hs

/-- The topic that a screen names is there. -/
theorem topic?_eq_none_iff : s.topicRoute.bind f.topic? = none ↔ s.topicRoute = none := by
  constructor
  · intro hnone
    by_contra hsome
    obtain ⟨r, hr⟩ := Option.ne_none_iff_exists'.mp hsome
    obtain ⟨topic, htopic, rfl⟩ := hf.topicKnown s hs r hr
    have hfind : f.topic? topic.fullRoute = some topic := find?_key_eq_some hf.topicRoutes htopic
    rw [hr, Option.bind_some, hfind] at hnone
    cases hnone
  · intro hnone
    rw [hnone, Option.bind_none]

/-- No screen is the first that is reached if none is reached. -/
theorem forall_not_isFirstReached_iff : (∀ c, ¬f.IsFirstReached ctx facts s item c) ↔
    ∀ c, [s, c].Sublist f.screens →
      c.reachedAt ctx facts (f.carriedTo facts s item c) = false := by
  simp only [isFirstReached_iff hf hs, ← mem_later_iff hf hs]
  rw [← Option.eq_none_iff_forall_ne_some, List.find?_eq_none]
  simp only [Bool.not_eq_true]

theorem FailsWith.run_next {e : NavigationError} (h : f.FailsWith ctx facts s item review e) :
    (f.next ctx s item review).run facts = .error e := by
  cases h with
  | noScreenForItem hl hitem hauto hends hnext hnone =>
    have hend := (run_endOfLoop_eq_error_iff hf hs).mpr
      ⟨_, hl, _, _, hitem, hauto, hends, hnext, hnone, rfl⟩
    rw [Flow.run_next, hend]
  | nothingFollows hleft hnone =>
    have hend := (run_endOfLoop_eq_none_iff hf hs).mpr hleft
    exact (run_next_eq_nothingFollows_iff hf hs hend).mpr
      ⟨rfl, (forall_not_isFirstReached_iff hf hs).mpr hnone⟩
  | outsideTopic hleft hfirst hreview hknockout htopic hsummary hnone =>
    have hend := (run_endOfLoop_eq_none_iff hf hs).mpr hleft
    rw [run_next_of_isFirstReached hf hs hend hfirst, run_leave_eq_error_iff,
      topic?_eq_none_iff hf hs]
    exact ⟨hknockout, hreview, htopic.symm, rfl, hsummary, hnone⟩

theorem failsWith_of_run_next {e : NavigationError}
    (h : (f.next ctx s item review).run facts = .error e) :
    f.FailsWith ctx facts s item review e := by
  cases hend : (f.endOfLoop ctx s item).run facts with
  | error e' =>
    rw [run_next, hend] at h
    obtain rfl := Except.error.inj h
    obtain ⟨l, hl, i, i', hitem, hauto, hends, hnext, hnone, rfl⟩ :=
      (run_endOfLoop_eq_error_iff hf hs).mp hend
    exact .noScreenForItem hl hitem hauto hends hnext hnone
  | ok arrival =>
    cases arrival with
    | some arrival =>
      rw [run_next, hend] at h
      cases h
    | none =>
      have hleft := (run_endOfLoop_eq_none_iff hf hs).mp hend
      by_cases hfirst : ∃ c, f.IsFirstReached ctx facts s item c
      · obtain ⟨c, hc⟩ := hfirst
        rw [run_next_of_isFirstReached hf hs hend hc, run_leave_eq_error_iff] at h
        obtain ⟨hknockout, hreview, htopic, rfl, hsummary, hnone⟩ := h
        exact .outsideTopic hleft hc hreview hknockout htopic.symm hsummary
          ((topic?_eq_none_iff hf hs).mp hnone)
      · have hnone := not_exists.mp hfirst
        rw [(run_next_eq_nothingFollows_iff hf hs hend).mpr ⟨rfl, hnone⟩] at h
        obtain rfl := Except.error.inj h
        exact .nothingFollows hleft ((forall_not_isFirstReached_iff hf hs).mp hnone)

theorem run_next_eq_error_iff {e : NavigationError} :
    (f.next ctx s item review).run facts = .error e ↔ f.FailsWith ctx facts s item review e :=
  ⟨failsWith_of_run_next hf hs, FailsWith.run_next hf hs⟩

end

/-- **When a step fails**: for the reasons of `FailsWith`, and with the error that goes with each of
them. It never comes upon a screen or a loop that is not there, and it succeeds in all other
cases. -/
theorem fails_iff_failsWith {o : Outline} (hbuild : build o = .ok f) {n : Nat}
    (hs : f.screens[n]? = some s) (item : Option String) (review : Bool) :
    (∀ e, (f.nextFromPosition ctx n item review).run facts = .error e ↔
      f.FailsWith ctx facts s item review e) ∧
    (∀ name, (f.nextFromPosition ctx n item review).run facts ≠ .error (.unknownScreen name) ∧
      (f.nextFromPosition ctx n item review).run facts ≠ .error (.unknownLoop name)) ∧
    ((∃ arrival, (f.nextFromPosition ctx n item review).run facts = .ok arrival) ↔
      ∀ e, ¬f.FailsWith ctx facts s item review e) := by
  have hf := arranged_of_build hbuild
  have hnext : f.nextFromPosition ctx n item review = f.next ctx s item review := by
    rw [nextFromPosition, hs]
  have hfails : ∀ e, (f.next ctx s item review).run facts = .error e ↔
      f.FailsWith ctx facts s item review e :=
    fun e => run_next_eq_error_iff hf (List.mem_of_getElem? hs)
  rw [hnext]
  refine ⟨hfails, fun name => ⟨fun h => ?_, fun h => ?_⟩, ?_⟩
  · cases (hfails _).mp h
  · cases (hfails _).mp h
  · simp only [← hfails]
    cases (f.next ctx s item review).run facts <;> simp

end Flow

namespace Household

/-- The family, with a page that belongs to no topic, and the names, which are a topic. -/
def namesOutline : Outline :=
  ⟨.empty, [.category "you" [.subcategory ⟨"family", [], [], false, false, false, none⟩
    [page "start" none true, .topic "names" [page "name" none true]]]]⟩

/-- The flow of the outline. -/
def namesFlow : Flow :=
  (Flow.build namesOutline).toOption.getD (.empty .empty)

theorem length_namesScreens : namesFlow.screens.length = 2 := rfl

/-- The screen at a position. -/
def namesScreen (i : Fin 2) : Screen :=
  namesFlow.screens.get (i.cast length_namesScreens.symm)

end Household

namespace Flow

open Household in
/-- Ann is new to the household and Bob is not: there is nothing to ask about him after her. Nothing
follows the last page. In review, the first page has no topic to return to from the names. -/
theorem fails_household :
    let facts := Household.facts ["/people/#ann/isNew"]
    flow.FailsWith default facts (screen 1) (some "ann") false (.noScreenForItem "people" "bob") ∧
    flow.FailsWith default facts (screen 8) none false (.nothingFollows "/flow/you/family/end") ∧
    namesFlow.FailsWith default facts (namesScreen 0) none true
      (.outsideTopic "/flow/you/family/start") ∧
    ∃ arrival, (namesFlow.nextFromPosition default 0 none false).run facts = .ok arrival := by
  intro facts
  have hname : flow.screens[1]? = some (screen 1) := rfl
  have hlast : flow.screens[8]? = some (screen 8) := rfl
  have hbuild : build namesOutline = .ok namesFlow := rfl
  have hfirst : namesFlow.screens[0]? = some (namesScreen 0) := rfl
  exact ⟨((fails_iff_failsWith build_outline hname (some "ann") false).1 _).mp rfl,
    ((fails_iff_failsWith build_outline hlast none false).1 _).mp rfl,
    ((fails_iff_failsWith hbuild hfirst none true).1 _).mp rfl, _, rfl⟩

/-! ## Screens that are not routed to -/

/-- A screen starts the pass over the item that follows, in the loop whose pass over an item ends at
the current one. -/
def StartsNextPass (f : Flow) (ctx : Context) (facts : String → Fact) (s : Screen)
    (item : Option String) (t : Screen) (item' : Option String) : Prop :=
  ∃ l ∈ f.loops, ∃ i i', item = some i ∧ item' = some i' ∧ l.autoIterates = true ∧
    f.EndsPass ctx facts l i s ∧ IsFollowedBy i i' (facts l.collection).items ∧
    f.StartsPass ctx facts l i' t

theorem run_next_of_startsNextPass (hf : f.Arranged)
    (h : f.StartsNextPass ctx facts s item t item') :
    (f.next ctx s item review).run facts = .ok ⟨.screen t, item'⟩ := by
  obtain ⟨l, hl, i, i', rfl, rfl, hauto, hends, hnext, hstarts⟩ := h
  exact leads_restart hf hl hauto (lastAt_eq_some_iff.mpr hends) (itemAfter_eq_some_iff.mpr hnext)
    (firstAt_eq_some_iff.mpr hstarts) review

/-- **What a step shows is routed to automatically, or it starts the next pass** of the loop that the
filer is in, where the first screen that can be shown is taken whatever it is. -/
theorem routed_or_startsNextPass {o : Outline} (hbuild : build o = .ok f) (hs : s ∈ f.screens)
    (item : Option String) (review : Bool) :
    (∀ t item', (f.next ctx s item review).run facts = .ok ⟨.screen t, item'⟩ →
      t.routesAutomatically = true ∨ f.StartsNextPass ctx facts s item t item') ∧
    ∀ t item', f.StartsNextPass ctx facts s item t item' →
      (f.next ctx s item review).run facts = .ok ⟨.screen t, item'⟩ := by
  have hf := arranged_of_build hbuild
  refine ⟨fun t item' hnext => ?_, fun t item' => run_next_of_startsNextPass hf⟩
  rcases run_next_eq_screen hf hs hnext with
    ⟨l, hl, i, i', hauto, hlast, rfl, rfl, hafter, hfirst⟩ | ⟨xs, -, hscan⟩
  · right
    exact ⟨l, hl, i, i', rfl, rfl, hauto, lastAt_eq_some_iff.mp hlast,
      itemAfter_eq_some_iff.mp hafter, firstAt_eq_some_iff.mp hfirst⟩
  · left
    obtain ⟨-, -, -, -, hreached⟩ := run_scan_eq_some hscan
    exact (Bool.and_eq_true_iff.mp hreached).1

end Flow

/-! ## An example

There is a photo of each pet of the household, which the filer is not led to, and a page about it. -/

namespace Household

/-- The family, with its pets. -/
def petOutline : Outline :=
  ⟨.empty, [.category "you" [.subcategory ⟨"family", [], [], false, false, false, none⟩
    [page "start" none true,
     .loop ⟨"pets", some "/pets", true, false, none, none, none⟩
       [page "photo" none false, page "pet" none true]]]]⟩

/-- The flow of the outline. -/
def petFlow : Flow :=
  (Flow.build petOutline).toOption.getD (.empty .empty)

theorem build_petOutline : Flow.build petOutline = .ok petFlow := rfl

theorem length_petScreens : petFlow.screens.length = 3 := rfl

/-- The screen at a position. -/
def petScreen (i : Fin 3) : Screen :=
  petFlow.screens.get (i.cast length_petScreens.symm)

end Household

namespace Flow

open Household in
/-- The household is led to the page about the cat, past its photo. From there it is led to the photo
of the dog, which starts the next pass. -/
theorem routed_or_startsNextPass_household :
    petScreen 2 ∈ petFlow.screens ∧ (petScreen 2).routesAutomatically = true ∧
    (petScreen 1).routesAutomatically = false ∧
    petFlow.Leads default (Household.facts []) false (petScreen 0, none) (petScreen 2, some "cat") ∧
    petFlow.StartsNextPass default (Household.facts []) (petScreen 2) (some "cat") (petScreen 1)
      (some "dog") := by
  have hmem : petScreen 2 ∈ petFlow.screens := List.get_mem _ _
  have hstep : (petFlow.next default (petScreen 2) (some "cat") false).run (Household.facts []) =
      .ok ⟨.screen (petScreen 1), some "dog"⟩ := rfl
  refine ⟨hmem, rfl, rfl, rfl, ?_⟩
  rcases (routed_or_startsNextPass build_petOutline hmem (some "cat") false).1 _ _ hstep with
    hrouted | hstarts
  · cases hrouted
  · exact hstarts

open Household in
/-- **Not every screen that is shown is routed to automatically**: the photo of the dog is not. -/
theorem not_every_shown_screen_routed : ¬∀ (o : Outline) (f : Flow) (ctx : Context)
    (facts : String → Fact) (s t : Screen) (item item' : Option String) (review : Bool),
    build o = .ok f → s ∈ f.screens →
    (f.next ctx s item review).run facts = .ok ⟨.screen t, item'⟩ →
    t.routesAutomatically = true := by
  intro hall
  have hstep : (petFlow.next default (petScreen 2) (some "cat") false).run (Household.facts []) =
      .ok ⟨.screen (petScreen 1), some "dog"⟩ := rfl
  cases hall petOutline petFlow default (Household.facts []) (petScreen 2) (petScreen 1)
    (some "cat") (some "dog") false build_petOutline (List.get_mem _ _) hstep

end Flow

end Interview

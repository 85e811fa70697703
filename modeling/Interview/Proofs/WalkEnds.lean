import Interview.Proofs.Walks

/-!
# How walks are said to end

A walk asks whether it has come to its end only when it sets out for another step, and for that a
step must be left. So the reported end fits the last stop if fewer steps have been made than the
limit allows. If all of them have been made and the last stop is a screen, the walk is said to have
been cut off, also at a knockout screen and at one that nothing follows
(`finish_fits_last_stop`). A last step out of the screens is noticed in any case.
-/

namespace Interview

variable {f : Flow} {ctx : Context} {facts : String → Fact} {n : Nat} {s : Screen}
  {item : Option String} {w : Walk} {finish : WalkEnd}

namespace Flow

/-- Nothing follows a screen shown for an item, which is no knockout screen. -/
def IsDeadEnd (f : Flow) (ctx : Context) (facts : String → Fact) (s : Screen)
    (item : Option String) : Prop :=
  s.isKnockout = false ∧ ∃ route, (f.next ctx s item false).run facts = .error (.nothingFollows route)

/-- The stops of a walk of at most `limit` steps, next to the end that it reports. -/
structure ReportsEnd (f : Flow) (ctx : Context) (facts : String → Fact) (limit : Nat) (w : Walk) :
    Prop where
  nonempty : w.stops ≠ []
  within : w.stops.length ≤ limit + 1
  knockout_iff : w.finish = .knockout ↔ w.stops.length ≤ limit ∧
    ∃ a ∈ w.stops.getLast?, ∃ s, a.screen? = some s ∧ s.isKnockout = true
  endOfFlow_iff : w.finish = .endOfFlow ↔ w.stops.length ≤ limit ∧
    ∃ a ∈ w.stops.getLast?, ∃ s, a.screen? = some s ∧ f.IsDeadEnd ctx facts s a.item
  leftSubcategory_iff : w.finish = .leftSubcategory ↔ ∃ a ∈ w.stops.getLast?, a.screen? = none
  stepLimit_iff : w.finish = .stepLimit ↔ w.stops.length = limit + 1 ∧
    ∃ a ∈ w.stops.getLast?, a.screen?.isSome = true

/-! ## One stop -/

/-- A walk that ends where it sets out is at a knockout screen, or nothing follows. -/
theorem finish_of_walkFrom_here
    (h : (f.walkFrom ctx (n + 1) s item).run facts = .ok ⟨[⟨.screen s, item⟩], finish⟩) :
    finish = .knockout ∧ s.isKnockout = true ∨
      finish = .endOfFlow ∧ f.IsDeadEnd ctx facts s item := by
  cases hknockout : s.isKnockout with
  | true =>
    simp only [walkFrom, hknockout, if_true, Reading.run_pure, Except.ok.injEq, Walk.mk.injEq,
      true_and] at h
    exact .inl ⟨h.symm, rfl⟩
  | false =>
    cases hnext : (f.next ctx s item false).run facts with
    | error e =>
      cases e with
      | nothingFollows route =>
        have hend : WalkEnd.endOfFlow = finish := by simpa [walkFrom, hknockout, hnext] using h
        exact .inr ⟨hend.symm, hknockout, route, hnext⟩
      | unknownScreen | unknownLoop | noScreenForItem | outsideTopic =>
        simp [walkFrom, hknockout, hnext] at h
    | ok a =>
      -- where there is a step, there is a second stop
      cases hto : a.destination with
      | screen t =>
        have hvia : ((f.walkFrom ctx n t a.item).run facts).map (·.via ⟨.screen s, item⟩) =
            .ok ⟨[⟨.screen s, item⟩], finish⟩ := by
          simpa [walkFrom, hknockout, hnext, hto] using h
        obtain ⟨rest, hrest, hstops⟩ := map_eq_ok.mp hvia
        have hnil : rest.stops = [] := (List.cons.inj (Walk.mk.inj hstops).1).2
        have hhead := head?_stops_walkFrom hrest
        rw [hnil] at hhead
        cases hhead
      | checklist | dataView | loopDataView => simp [walkFrom, hknockout, hnext, hto] at h

theorem reportsEnd_here (h : (f.walkFrom ctx (n + 1) s item).run facts =
    .ok ⟨[⟨.screen s, item⟩], finish⟩) :
    f.ReportsEnd ctx facts (n + 1) ⟨[⟨.screen s, item⟩], finish⟩ := by
  rcases finish_of_walkFrom_here h with ⟨rfl, hknockout⟩ | ⟨rfl, hend⟩
  · constructor <;> simp [Arrival.screen?, IsDeadEnd, hknockout]
  · have hknockout := hend.1
    constructor <;> simp [Arrival.screen?, hknockout, hend]

theorem reportsEnd_cutOff (s : Screen) (item : Option String) :
    f.ReportsEnd ctx facts 0 ⟨[⟨.screen s, item⟩], .stepLimit⟩ := by
  constructor <;> simp [Arrival.screen?]

theorem reportsEnd_leaving {a : Arrival} (ha : a.screen? = none) (s : Screen)
    (item : Option String) :
    f.ReportsEnd ctx facts (n + 1) ⟨[⟨.screen s, item⟩, a], .leftSubcategory⟩ := by
  constructor <;> simp [ha]

/-- A stop in front of a walk does not change where it ends, and takes one step. -/
theorem ReportsEnd.via (h : f.ReportsEnd ctx facts n w) (a : Arrival) :
    f.ReportsEnd ctx facts (n + 1) (w.via a) := by
  obtain ⟨b, hb⟩ := Option.ne_none_iff_exists'.mp (mt List.getLast?_eq_none_iff.mp h.nonempty)
  have hlast : (w.via a).stops.getLast? = w.stops.getLast? := by
    rw [Walk.via, List.getLast?_cons, hb]
    rfl
  have hlength : (w.via a).stops.length = w.stops.length + 1 := rfl
  have hfinish : (w.via a).finish = w.finish := rfl
  constructor
  · exact List.cons_ne_nil _ _
  · rw [hlength]
    exact Nat.succ_le_succ h.within
  · rw [hfinish, hlength, hlast, Nat.add_le_add_iff_right]
    exact h.knockout_iff
  · rw [hfinish, hlength, hlast, Nat.add_le_add_iff_right]
    exact h.endOfFlow_iff
  · rw [hfinish, hlast]
    exact h.leftSubcategory_iff
  · rw [hfinish, hlength, hlast, Nat.add_right_cancel_iff]
    exact h.stepLimit_iff

/-! ## All walks -/

theorem reportsEnd_walkFrom (h : (f.walkFrom ctx n s item).run facts = .ok w) :
    f.ReportsEnd ctx facts n w := by
  induction n generalizing s item w with
  | zero =>
    rw [run_walkFrom_zero] at h
    obtain rfl := Except.ok.inj h
    exact reportsEnd_cutOff s item
  | succ n ih =>
    cases walkFrom_onward f ctx facts s item with
    | fails e hwalk => rw [hwalk] at h; cases h
    | ends finish _ hwalk =>
      have hhere := hwalk n
      rw [hhere] at h
      obtain rfl := Except.ok.inj h
      exact reportsEnd_here hhere
    | leaves a ha _ hwalk =>
      rw [hwalk] at h
      obtain rfl := Except.ok.inj h
      exact reportsEnd_leaving ha s item
    | leads t item' _ hwalk =>
      rw [hwalk] at h
      obtain ⟨rest, hrest, rfl⟩ := map_eq_ok.mp h
      exact (ih hrest).via _

/-- **The end that a walk reports.** If it has made fewer steps than the limit allows, it reports a
knockout iff its last stop is a knockout screen, and the end of the flow iff nothing follows its last
stop. A walk that has made all its steps and is still at a screen reports that it was cut off,
whatever the screen, and no other walk does. A walk reports that it left the subcategory iff its last
step leads out of the screens. -/
theorem finish_fits_last_stop (route item : Option String)
    (h : (f.walk ctx route item n).run facts = .ok w) : f.ReportsEnd ctx facts n w := by
  rcases walk_eq_walkFrom f ctx facts route item with ⟨e, herror⟩ | ⟨s, item', hwalk⟩
  · rw [herror] at h
    cases h
  · rw [hwalk] at h
    exact reportsEnd_walkFrom h

end Flow

namespace Household

/-- Two pages, and a third one for those who live abroad, who get no further. -/
def shortOutline : Outline :=
  ⟨.empty, [.category "you" [.subcategory ⟨"family", [], [], false, false, false, none⟩
    [page "start" none true,
     page "address" none true,
     .screen ⟨"abroad", some (.fact "/isAbroad" .isTrue), some true, true, false, false,
       [⟨.heading "abroad", [], []⟩, ⟨.knockout, [], []⟩]⟩]]]⟩

/-- The flow of the outline. -/
def shortFlow : Flow :=
  (Flow.build shortOutline).toOption.getD (.empty .empty)

end Household

namespace Flow

open Household

/-- With two steps, the walk to the knockout screen is said to be cut off there; with a third one, to
be knocked out. -/
theorem finish_fits_household :
    ∃ start address abroad, shortFlow.screens = [start, address, abroad] ∧
      let facts := Household.facts ["/isAbroad"]
      let stops : List Arrival := [start, address, abroad].map (⟨.screen ·, none⟩)
      (shortFlow.walk default none none 2).run facts = .ok ⟨stops, .stepLimit⟩ ∧
      (shortFlow.walk default none none 3).run facts = .ok ⟨stops, .knockout⟩ ∧
      shortFlow.ReportsEnd default facts 2 ⟨stops, .stepLimit⟩ ∧
      shortFlow.ReportsEnd default facts 3 ⟨stops, .knockout⟩ :=
  ⟨_, _, _, rfl, rfl, rfl, finish_fits_last_stop none none rfl, finish_fits_last_stop none none rfl⟩

/-- Not every reported end fits the last stop: a walk can be said to be cut off at a knockout screen,
and at a screen that nothing follows. -/
theorem not_every_finish_fits :
    (¬ ∀ (o : Outline) (f : Flow) (ctx : Context) (facts : String → Fact)
      (route item : Option String) (n : Nat) (w : Walk), build o = .ok f →
      (f.walk ctx route item n).run facts = .ok w → ∀ a ∈ w.stops.getLast?, ∀ s,
        a.screen? = some s → s.isKnockout = true → w.finish = .knockout) ∧
    ¬ ∀ (o : Outline) (f : Flow) (ctx : Context) (facts : String → Fact)
      (route item : Option String) (n : Nat) (w : Walk), build o = .ok f →
      (f.walk ctx route item n).run facts = .ok w → ∀ a ∈ w.stops.getLast?, ∀ s,
        a.screen? = some s → f.IsDeadEnd ctx facts s a.item → w.finish = .endOfFlow := by
  have hbuild : build shortOutline = .ok shortFlow := rfl
  constructor
  · intro hall
    have hfinish := hall _ _ default (Household.facts ["/isAbroad"]) none none 2 _ hbuild rfl _ rfl
      _ rfl rfl
    cases hfinish
  · intro hall
    have hfinish := hall _ _ default (Household.facts []) none none 1 _ hbuild rfl _ rfl
      _ rfl ⟨rfl, _, rfl⟩
    cases hfinish

end Flow

end Interview

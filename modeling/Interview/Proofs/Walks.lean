import Interview.Navigation.Walk
import Interview.Proofs.Arrangement

/-!
# Walks of different lengths

What a walk does at a screen does not depend on how many steps it has left, as long as it has one
(`walkFrom_onward`). So a longer limit changes nothing about a walk that fails or comes to its end,
and it prolongs a walk that has been cut off. Only the last stop of a walk can be a knockout screen
or out of the screens.
-/

namespace Interview

variable {f : Flow} {ctx : Context} {facts : String → Fact}

/-! ## One step of a walk -/

namespace Flow

/-- What a walk does at a screen shown for an item, whatever the number of steps it has left. -/
inductive WalksOnward (f : Flow) (ctx : Context) (facts : String → Fact) (s : Screen)
    (item : Option String) : Prop where
  | fails (e : NavigationError)
      (hwalk : ∀ n, (f.walkFrom ctx (n + 1) s item).run facts = .error e)
  /-- The walk ends here: at a knockout screen, or because nothing follows. -/
  | ends (finish : WalkEnd) (hfinish : finish = .knockout ∨ finish = .endOfFlow)
      (hwalk : ∀ n, (f.walkFrom ctx (n + 1) s item).run facts = .ok ⟨[⟨.screen s, item⟩], finish⟩)
  /-- The walk ends with a step out of the screens. -/
  | leaves (a : Arrival) (ha : a.screen? = none) (hknockout : s.isKnockout = false)
      (hwalk : ∀ n, (f.walkFrom ctx (n + 1) s item).run facts =
        .ok ⟨[⟨.screen s, item⟩, a], .leftSubcategory⟩)
  /-- The walk goes on at another screen, or at the same one for another item. -/
  | leads (t : Screen) (item' : Option String) (hknockout : s.isKnockout = false)
      (hwalk : ∀ n, (f.walkFrom ctx (n + 1) s item).run facts =
        ((f.walkFrom ctx n t item').run facts).map (·.via ⟨.screen s, item⟩))

theorem run_walkFrom_zero (s : Screen) (item : Option String) :
    (f.walkFrom ctx 0 s item).run facts = .ok ⟨[⟨.screen s, item⟩], .stepLimit⟩ := rfl

variable (f ctx facts) in
theorem walkFrom_onward (s : Screen) (item : Option String) :
    f.WalksOnward ctx facts s item := by
  cases hknockout : s.isKnockout with
  | true => exact .ends .knockout (.inl rfl) fun n => by simp [walkFrom, hknockout]
  | false =>
    cases hnext : (f.next ctx s item false).run facts with
    | error e =>
      by_cases hlast : ∃ route, e = .nothingFollows route
      · obtain ⟨route, rfl⟩ := hlast
        exact .ends .endOfFlow (.inr rfl) fun n => by simp [walkFrom, hknockout, hnext]
      · refine .fails e fun n => ?_
        cases e <;> simp_all [walkFrom]
    | ok a =>
      cases hto : a.destination with
      | screen t =>
        exact .leads t a.item hknockout fun n => by simp [walkFrom, hknockout, hnext, hto]
      | checklist | dataView _ _ | loopDataView _ =>
        exact .leaves a (by simp [Arrival.screen?, hto]) hknockout fun n => by
          simp [walkFrom, hknockout, hnext, hto]

end Flow

/-! ## Raising the limit -/

/-- What comes of a walk of at most `n` steps, next to what comes of one from the same place that
may be longer. -/
inductive Outlasts (n : Nat) (long : Except NavigationError Walk) :
    Except NavigationError Walk → Prop where
  /-- A failure is found by the longer walk as well. -/
  | fails (e : NavigationError) (hlong : long = .error e) : Outlasts n long (.error e)
  /-- A walk that comes to its end is the longer walk as well. -/
  | ends (w : Walk) (hfinish : w.finish ≠ .stepLimit) (hlong : long = .ok w) :
      Outlasts n long (.ok w)
  /-- A walk that is cut off has made all its steps, and the longer walk makes them too unless it
  fails later. -/
  | cutOff (w : Walk) (hfinish : w.finish = .stepLimit) (hlength : w.stops.length = n + 1)
      (hlong : ∀ v, long = .ok v → w.stops <+: v.stops) : Outlasts n long (.ok w)

/-- The relation is kept when a stop is put before both walks. -/
theorem Outlasts.via {n : Nat} {long short : Except NavigationError Walk} (a : Arrival)
    (h : Outlasts n long short) : Outlasts (n + 1) (long.map (·.via a)) (short.map (·.via a)) := by
  cases h with
  | fails e hlong => exact .fails e (by rw [hlong]; rfl)
  | ends w hfinish hlong => exact .ends (w.via a) hfinish (by rw [hlong]; rfl)
  | cutOff w hfinish hlength hlong =>
    refine .cutOff (w.via a) hfinish (by simp [Walk.via, hlength]) fun v hv => ?_
    obtain ⟨u, hu, rfl⟩ := map_eq_ok.mp hv
    exact (List.prefix_cons_inj a).mpr (hlong u hu)

/-! ## The stops of a walk -/

/-- The stops of a walk and how it ends. -/
structure Walk.IsSound (w : Walk) : Prop where
  nonempty : w.stops ≠ []
  /-- What is passed on the way is a screen, and no knockout one. -/
  passed : ∀ a ∈ w.stops.dropLast, ∃ s, a.screen? = some s ∧ s.isKnockout = false
  /-- The walk is said to have left the subcategory if it has left the screens. -/
  finish_iff : w.finish = .leftSubcategory ↔ ∃ a ∈ w.stops, a.screen? = none

namespace Walk

theorem isSound_single {s : Screen} {item : Option String} {finish : WalkEnd}
    (hfinish : finish ≠ .leftSubcategory) : IsSound ⟨[⟨.screen s, item⟩], finish⟩ where
  nonempty := List.cons_ne_nil _ _
  passed := fun a ha => absurd ha List.not_mem_nil
  finish_iff := by simp [hfinish, Arrival.screen?]

/-- A screen that is no knockout can be put before the stops of a walk. -/
theorem IsSound.via {w : Walk} (hw : w.IsSound) {s : Screen} (hknockout : s.isKnockout = false)
    (item : Option String) : (w.via ⟨.screen s, item⟩).IsSound where
  nonempty := List.cons_ne_nil _ _
  passed := by
    intro a ha
    rw [Walk.via, List.dropLast_cons_of_ne_nil hw.nonempty, List.mem_cons] at ha
    rcases ha with rfl | ha
    · exact ⟨s, rfl, hknockout⟩
    · exact hw.passed a ha
  finish_iff := by
    have hhere : (⟨.screen s, item⟩ : Arrival).screen? ≠ none := Option.some_ne_none s
    simp [Walk.via, hw.finish_iff, hhere]

end Walk

namespace Flow

/-! ## All walks -/

/-- A walk sets out at the screen that it is asked to walk from. -/
theorem head?_stops_walkFrom {n : Nat} {s : Screen} {item : Option String} {w : Walk}
    (h : (f.walkFrom ctx n s item).run facts = .ok w) :
    w.stops.head? = some ⟨.screen s, item⟩ := by
  cases n with
  | zero =>
    rw [run_walkFrom_zero] at h
    exact (Except.ok.inj h) ▸ rfl
  | succ n =>
    cases walkFrom_onward f ctx facts s item with
    | fails e hwalk => rw [hwalk] at h; cases h
    | ends finish _ hwalk | leaves a _ _ hwalk =>
      rw [hwalk] at h
      exact (Except.ok.inj h) ▸ rfl
    | leads t item' _ hwalk =>
      rw [hwalk] at h
      obtain ⟨rest, -, rfl⟩ := map_eq_ok.mp h
      rfl

variable (f ctx facts) in
theorem outlasts_walkFrom {n m : Nat} (hle : n ≤ m) (s : Screen) (item : Option String) :
    Outlasts n ((f.walkFrom ctx m s item).run facts) ((f.walkFrom ctx n s item).run facts) := by
  induction n generalizing m s item with
  | zero =>
    rw [run_walkFrom_zero]
    refine .cutOff _ rfl rfl fun v hv => ?_
    obtain ⟨rest, hrest⟩ := List.head?_eq_some_iff.mp (head?_stops_walkFrom hv)
    exact ⟨rest, hrest.symm⟩
  | succ n ih =>
    obtain ⟨m, rfl⟩ := Nat.exists_eq_add_of_le' (Nat.lt_of_lt_of_le n.succ_pos hle)
    have hle : n ≤ m := Nat.le_of_succ_le_succ hle
    -- both walks make the same step
    cases walkFrom_onward f ctx facts s item with
    | fails e hwalk =>
      rw [hwalk, hwalk]
      exact .fails e rfl
    | ends finish hfinish hwalk =>
      rw [hwalk, hwalk]
      exact .ends _ (by rcases hfinish with rfl | rfl <;> simp) rfl
    | leaves a ha _ hwalk =>
      rw [hwalk, hwalk]
      exact .ends _ (by simp) rfl
    | leads t item' _ hwalk =>
      rw [hwalk, hwalk]
      exact (ih hle t item').via _

theorem isSound_walkFrom {n : Nat} {s : Screen} {item : Option String} {w : Walk}
    (h : (f.walkFrom ctx n s item).run facts = .ok w) : w.IsSound := by
  induction n generalizing s item w with
  | zero =>
    rw [run_walkFrom_zero] at h
    obtain rfl := Except.ok.inj h
    exact Walk.isSound_single (by decide)
  | succ n ih =>
    cases walkFrom_onward f ctx facts s item with
    | fails e hwalk => rw [hwalk] at h; cases h
    | ends finish hfinish hwalk =>
      rw [hwalk] at h
      obtain rfl := Except.ok.inj h
      exact Walk.isSound_single (by rcases hfinish with rfl | rfl <;> decide)
    | leaves a ha hknockout hwalk =>
      rw [hwalk] at h
      obtain rfl := Except.ok.inj h
      have hlast : Walk.IsSound ⟨[a], .leftSubcategory⟩ :=
        ⟨List.cons_ne_nil _ _, fun b hb => absurd hb List.not_mem_nil, by simp [ha]⟩
      exact hlast.via hknockout item
    | leads t item' hknockout hwalk =>
      rw [hwalk] at h
      obtain ⟨rest, hrest, rfl⟩ := map_eq_ok.mp h
      exact (ih hrest).via hknockout item

variable (f ctx facts) in
/-- A walk is one from a screen, which does not depend on the limit, unless there is none to set
out from. -/
theorem walk_eq_walkFrom (route item : Option String) :
    (∃ e, ∀ n, (f.walk ctx route item n).run facts = .error e) ∨
    ∃ s item', ∀ n,
      (f.walk ctx route item n).run facts = (f.walkFrom ctx n s item').run facts := by
  cases hstart : f.start route with
  | error e => exact .inl ⟨e, fun n => by simp [walk, hstart]⟩
  | ok s =>
    right
    cases item with
    | some item => exact ⟨s, some item, fun n => by simp [walk, hstart]⟩
    | none => exact ⟨s, (entryItem s).run facts, fun n => by simp [walk, hstart]⟩

/-- **Walks under a limit.** A longer limit does not change a walk that fails or comes to its end.
A walk that is cut off has made all its steps, and a longer one that succeeds makes them too. In a
walk that succeeds, what is passed on the way are screens without a knockout, and the walk has left
the screens exactly if it is said to have left the subcategory. -/
theorem walk_under_limit {n m : Nat} (hle : n ≤ m) (route item : Option String) :
    Outlasts n ((f.walk ctx route item m).run facts) ((f.walk ctx route item n).run facts) ∧
    ∀ w, (f.walk ctx route item n).run facts = .ok w → w.IsSound := by
  rcases walk_eq_walkFrom f ctx facts route item with ⟨e, herror⟩ | ⟨s, item', hwalk⟩
  · rw [herror, herror]
    exact ⟨.fails e rfl, fun w hw => by cases hw⟩
  · rw [hwalk, hwalk]
    exact ⟨outlasts_walkFrom f ctx facts hle s item', fun w hw => isSound_walkFrom hw⟩

/-- A walk of two steps through the household is cut off at the name of the second person. -/
theorem walk_under_limit_household :
    let facts := Household.facts ["/people/#ann/isNew", "/people/#bob/isNew"]
    let short := (Household.flow.walk default none none 2).run facts
    let long := (Household.flow.walk default none none 20).run facts
    short = .ok ⟨[⟨.screen (Household.screen 0), none⟩, ⟨.screen (Household.screen 1), some "ann"⟩,
      ⟨.screen (Household.screen 1), some "bob"⟩], .stepLimit⟩ ∧
    Outlasts 2 long short ∧ ∀ w, short = .ok w → w.IsSound :=
  ⟨rfl, walk_under_limit (by decide) none none⟩

end Flow

end Interview

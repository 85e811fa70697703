import Interview.Fact.Document
import Interview.Proofs.Routing
import Mathlib.Data.List.Duplicate

/-!
# From member to member

The step from a member of a loop to the next one looks for the first place of the member in the
collection. Starting with the first member, the steps follow the collection as long as they come
upon members that are not listed before. Past a member that is listed a second time they go on
behind its first place, and from then on in a circle. So they come to an end iff no member is listed
twice (`steps_end_iff_nodup`), and nothing keeps a collection from listing one twice.
-/

namespace Interview

variable {l : Loop} {facts : String → Fact} {items : List String}

/-! ## Steps in a list -/

/-- The item behind the first place of one that is listed again later is listed before that later
place, or stands there. -/
theorem exists_itemAfter_of_mem {y : String} {before : List String} (hy : y ∈ before) (x : String)
    (after : List String) :
    ∃ z, itemAfter y (before ++ x :: after) = some z ∧ z ∈ before ++ [x] := by
  obtain ⟨first, rest, rfl, hfirst⟩ := List.eq_append_cons_of_mem hy
  have hafter : itemAfter y (first ++ y :: rest ++ x :: after) = (rest ++ x :: after).head? := by
    rw [List.append_assoc, List.cons_append]
    exact itemAfter_append hfirst
  cases rest with
  | nil => exact ⟨x, hafter, by simp⟩
  | cons z rest => exact ⟨z, hafter, by simp⟩

/-- In a list with repetitions there is a place whose item is listed before it. -/
theorem exists_repetition_of_not_nodup (h : ¬ items.Nodup) :
    ∃ before x after, items = before ++ x :: after ∧ x ∈ before := by
  obtain ⟨x, hx⟩ := List.exists_duplicate_iff_not_nodup.mpr h
  obtain ⟨front, back, rfl, hfront, hback⟩ :=
    List.cons_sublist_iff.mp (List.duplicate_iff_sublist.mp hx)
  obtain ⟨middle, after, rfl⟩ := List.append_of_mem (List.singleton_sublist.mp hback)
  exact ⟨front ++ middle, x, after, by simp, List.mem_append_left middle hfront⟩

/-! ## Steps through a loop -/

namespace Loop

/-- The member that is reached from the first one in a number of steps, if there is one. -/
def afterSteps (l : Loop) (facts : String → Fact) : Nat → Option String
  | 0 => (l.items.run facts).head?
  | n + 1 => (l.afterSteps facts n).bind fun item => (l.nextItem item).run facts

theorem run_items (l : Loop) (facts : String → Fact) :
    l.items.run facts = (facts l.collection).items := by
  simp [items]

theorem afterSteps_succ (n : Nat) : l.afterSteps facts (n + 1) =
    (l.afterSteps facts n).bind (itemAfter · (l.items.run facts)) := by
  simp only [afterSteps, Flow.run_nextItem, run_items]

/-- The steps follow the collection up to the first member that is listed again. -/
theorem afterSteps_eq_getElem? {n : Nat} (h : ((l.items.run facts).take n).Nodup) :
    l.afterSteps facts n = (l.items.run facts)[n]? := by
  induction n with
  | zero => exact List.head?_eq_getElem?
  | succ n ih =>
    have hstep := ih (h.sublist (List.take_sublist_take_left (Nat.le_succ n)))
    rw [afterSteps_succ, hstep]
    cases hitem : (l.items.run facts)[n]? with
    | none =>
      rw [Option.bind_none, eq_comm, List.getElem?_eq_none_iff]
      exact Nat.le_succ_of_le (List.getElem?_eq_none_iff.mp hitem)
    | some x =>
      obtain ⟨hn, hx⟩ := List.getElem?_eq_some_iff.mp hitem
      -- the place reached is the first one of its member
      have hfirst : x ∉ (l.items.run facts).take n := by
        rw [List.take_add_one, hitem, List.nodup_append] at h
        exact fun hmem => h.2.2 x hmem x (by simp) rfl
      have hsplit : l.items.run facts =
          (l.items.run facts).take n ++ x :: (l.items.run facts).drop (n + 1) := by
        rw [← hx, ← List.drop_eq_getElem_cons hn, List.take_append_drop]
      rw [Option.bind_some, ← List.head?_drop]
      nth_rewrite 1 [hsplit]
      exact itemAfter_append hfirst

/-- If a member is listed twice, every step leads to another one. -/
theorem exists_afterSteps_of_not_nodup (h : ¬ (l.items.run facts).Nodup) (n : Nat) :
    ∃ x, l.afterSteps facts n = some x := by
  obtain ⟨before, x, after, hitems, hx⟩ := exists_repetition_of_not_nodup h
  -- no step gets past the second place of `x`
  suffices hbefore : ∃ y ∈ before, l.afterSteps facts n = some y from
    hbefore.elim fun y hy => ⟨y, hy.2⟩
  induction n with
  | zero =>
    obtain ⟨y, rest, rfl⟩ := List.exists_cons_of_ne_nil (List.ne_nil_of_mem hx)
    exact ⟨y, List.mem_cons_self, by rw [afterSteps, hitems]; rfl⟩
  | succ n ih =>
    obtain ⟨y, hy, hstep⟩ := ih
    obtain ⟨z, hz, hmem⟩ := exists_itemAfter_of_mem hy x after
    refine ⟨z, ?_, by rw [afterSteps_succ, hstep, Option.bind_some, hitems, hz]⟩
    rcases List.mem_append.mp hmem with hmem | hmem
    · exact hmem
    · exact (List.mem_singleton.mp hmem) ▸ hx

variable (l facts) in
theorem afterSteps_eq_none_iff_nodup :
    (∃ n, l.afterSteps facts n = none) ↔ (l.items.run facts).Nodup := by
  constructor
  · rintro ⟨n, hn⟩
    by_contra h
    obtain ⟨x, hx⟩ := exists_afterSteps_of_not_nodup h n
    rw [hx] at hn
    cases hn
  · intro h
    refine ⟨(l.items.run facts).length, ?_⟩
    rw [afterSteps_eq_getElem? (by rwa [List.take_length])]
    exact List.getElem?_eq_none_iff.mpr le_rfl

variable (l facts) in
/-- **One pass through the members.** The steps from the first member on follow the collection up to
the first member that is listed again. They lead to all members in turn and then to none iff no
member is listed twice; if one is, they never come to an end. -/
theorem steps_end_iff_nodup :
    (∀ n, ((l.items.run facts).take n).Nodup →
      l.afterSteps facts n = (l.items.run facts)[n]?) ∧
    ((∀ n, l.afterSteps facts n = (l.items.run facts)[n]?) ↔ (l.items.run facts).Nodup) ∧
    ((∃ n, l.afterSteps facts n = none) ↔ (l.items.run facts).Nodup) := by
  refine ⟨fun n => afterSteps_eq_getElem?, ⟨fun h => ?_, fun h n => ?_⟩,
    afterSteps_eq_none_iff_nodup l facts⟩
  · rw [← afterSteps_eq_none_iff_nodup]
    exact ⟨_, (h _).trans (List.getElem?_eq_none_iff.mpr le_rfl)⟩
  · exact afterSteps_eq_getElem? (h.sublist (List.take_sublist n _))

end Loop

namespace Household

/-- A document of facts in which Ann is listed twice among the people. -/
def doubledDocument : Json :=
  .object [("/people", .object [("complete", .bool true), ("value", .object
    [("kind", .string "collection"),
      ("value", .array [.string "ann", .string "bob", .string "ann"])])]),
    ("/people/#ann/isNew", .object [("complete", .bool true), ("value", .object
      [("kind", .string "boolean"), ("value", .bool true)])]),
    ("/people/#bob/isNew", .object [("complete", .bool true), ("value", .object
      [("kind", .string "boolean"), ("value", .bool true)])])]

/-- The facts of the document. -/
def doubledStore : Store :=
  Table.ofList [("/people", ⟨true, some (.collection ["ann", "bob", "ann"])⟩),
    ("/people/#ann/isNew", ⟨true, some (.boolean true)⟩),
    ("/people/#bob/isNew", ⟨true, some (.boolean true)⟩)]

end Household

namespace Loop

open Household

/-- From the first of the two people one step leads to the second, and none further. If Ann is listed
twice, the steps never end. -/
theorem steps_end_household :
    people.afterSteps (Household.facts []) 1 = some "bob" ∧
    (∃ n, people.afterSteps (Household.facts []) n = none) ∧
    people.afterSteps doubledStore.facts 2 = some "ann" ∧
    ¬ ∃ n, people.afterSteps doubledStore.facts n = none := by
  have hitems : people.items.run (Household.facts []) = ["ann", "bob"] := rfl
  have hdoubled : people.items.run doubledStore.facts = ["ann", "bob", "ann"] := rfl
  obtain ⟨hfollow, -, hends⟩ := steps_end_iff_nodup people (Household.facts [])
  obtain ⟨hfollow', -, hends'⟩ := steps_end_iff_nodup people doubledStore.facts
  refine ⟨?_, hends.mpr (by rw [hitems]; decide), ?_, ?_⟩
  · rw [hfollow 1 (by rw [hitems]; decide), hitems]
    rfl
  · rw [hfollow' 2 (by rw [hdoubled]; decide), hdoubled]
    rfl
  · rw [hends', hdoubled]
    decide

/-- The steps do not come to an end for every collection that a document of facts may list, and then
the filer goes in a circle as well: from Bob's page to Ann's, and from Ann's back to Bob's. -/
theorem not_all_steps_end :
    (¬ ∀ (j : Json) (store : Store) (o : Outline) (f : Flow), Store.ofJson j = .ok store →
      Flow.build o = .ok f → ∀ l ∈ f.loops, ∀ n,
        l.afterSteps store.facts n = (l.items.run store.facts)[n]?) ∧
    (flow.next default (screen 1) (some "ann") false).run doubledStore.facts =
      .ok ⟨.screen (screen 1), some "bob"⟩ ∧
    (flow.next default (screen 1) (some "bob") false).run doubledStore.facts =
      .ok ⟨.screen (screen 1), some "ann"⟩ := by
  refine ⟨fun hall => ?_, rfl, rfl⟩
  have hpeople : people ∈ flow.loops := List.mem_cons_self
  have hthird := hall doubledDocument doubledStore outline flow rfl rfl people hpeople 3
  exact absurd hthird (by decide)

end Loop

end Interview

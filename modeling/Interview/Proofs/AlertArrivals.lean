import Interview.Proofs.AlertCollection
import Mathlib.Data.List.Induction

/-!
# Alerts in the order of their arrival

Alerts are collected in steps: one is added, or what has been collected elsewhere is taken over, its
warnings first. What is taken over may hold anything, the same message many times, or a warning
among the errors. In whatever steps the alerts come in, only the order of their arrival counts
(`Alerts.collect_eq`): of each kind, the first alert about each subject is kept, in that order
(`Alerts.firstArrivals`).

Leaving out repetitions early or late makes no difference to one list
(`Alerts.appendAll_appendAll`). Over both lists this gives the laws of taking over, for alerts that
are filed by their kinds (`Alerts.IsFiled`), and all alerts that are collected are filed so. A
misfiled alert can keep out one of another kind (`Alerts.not_all_taken_over_together`).
-/

namespace Interview

namespace Alerts

variable {a b : Alerts} {x : Alert} {xs list : List Alert}

/-! ## Steps -/

/-- A step in collecting alerts. -/
inductive Step where
  /-- Adds an alert. -/
  | push (alert : Alert)
  /-- Takes over other collected alerts. -/
  | merge (other : Alerts)

/-- Takes a step. -/
def step (a : Alerts) : Step → Alerts
  | .push alert => a.push alert
  | .merge other => a.merge other

/-- Collects alerts step by step. -/
def collect (steps : List Step) : Alerts :=
  steps.foldl step empty

/-- The alerts that arrive in a step, in their order. -/
def Step.arrivals : Step → List Alert
  | push alert => [alert]
  | merge other => other.warnings ++ other.errors

/-- The alerts of a list that none before them repeats, in their order. -/
def firstArrivals (xs : List Alert) : List Alert :=
  (xs.zipIdx.filter fun (x, i) => !(xs.take i).any (·.repeats x)).map (·.1)

theorem pushAll_append (a : Alerts) (xs ys : List Alert) :
    a.pushAll (xs ++ ys) = (a.pushAll xs).pushAll ys :=
  List.foldl_append

theorem step_eq (a : Alerts) (s : Step) : a.step s = a.pushAll s.arrivals := by
  cases s with
  | push alert => rfl
  | merge other => rfl

/-- Only the order of arrival counts. -/
theorem collect_eq (steps : List Step) :
    collect steps = empty.pushAll (steps.flatMap Step.arrivals) := by
  unfold collect
  generalize empty = a
  induction steps generalizing a with
  | nil => rfl
  | cons s steps ih =>
    rw [List.foldl_cons, ih, step_eq, List.flatMap_cons, pushAll_append]

/-! ## One list -/

/-- A list with alerts added at its end one after the other, without repetitions. -/
def appendAll (list xs : List Alert) : List Alert :=
  xs.foldl append list

theorem appendAll_append (list xs ys : List Alert) :
    appendAll list (xs ++ ys) = appendAll (appendAll list xs) ys :=
  List.foldl_append

theorem append_of_mem_subjects (h : x.subject ∈ list.map Alert.subject) :
    append list x = list := by
  obtain ⟨y, hy, hsubject⟩ := List.mem_map.mp h
  have hany : list.any (·.repeats x) = true :=
    List.any_eq_true.mpr ⟨y, hy, Alert.repeats_iff.mpr hsubject⟩
  rw [append, if_pos hany]

theorem append_of_fresh (h : x.subject ∉ list.map Alert.subject) :
    append list x = list ++ [x] := by
  rw [append, if_neg]
  intro hany
  obtain ⟨y, hy, hrepeats⟩ := List.any_eq_true.mp hany
  exact h (List.mem_map.mpr ⟨y, hy, Alert.repeats_iff.mp hrepeats⟩)

theorem mem_subjects_appendAll {p : String × Option String} :
    p ∈ (appendAll list xs).map Alert.subject ↔
      p ∈ list.map Alert.subject ∨ p ∈ xs.map Alert.subject := by
  induction xs generalizing list with
  | nil => simp [appendAll]
  | cons x xs ih =>
    show p ∈ (appendAll (append list x) xs).map Alert.subject ↔ _
    rw [ih, mem_subjects_append, List.map_cons, List.mem_cons, or_assoc, eq_comm]

/-- Alerts about subjects that are known already change nothing. -/
theorem appendAll_of_known (h : ∀ x ∈ xs, x.subject ∈ list.map Alert.subject) :
    appendAll list xs = list := by
  induction xs with
  | nil => rfl
  | cons x xs ih =>
    obtain ⟨hx, hxs⟩ := List.forall_mem_cons.mp h
    show appendAll (append list x) xs = list
    rw [append_of_mem_subjects hx, ih hxs]

/-- **Repetitions may be left out early**: adding alerts to a list, and what comes of it to another,
is adding both lists to the other. -/
theorem appendAll_appendAll (list xs ys : List Alert) :
    appendAll list (appendAll xs ys) = appendAll (appendAll list xs) ys := by
  induction ys generalizing xs with
  | nil => rfl
  | cons y ys ih =>
    show appendAll list (appendAll (append xs y) ys) = appendAll (append (appendAll list xs) y) ys
    rw [ih]
    congr 1
    by_cases hy : y.subject ∈ xs.map Alert.subject
    · -- what is known to the second list is known to both
      rw [append_of_mem_subjects hy,
        append_of_mem_subjects (mem_subjects_appendAll.mpr (.inr hy))]
    · rw [append_of_fresh hy, appendAll_append]
      rfl

/-- The last alert of a list is kept if it is the first about its subject. -/
theorem firstArrivals_concat (xs : List Alert) (x : Alert) :
    firstArrivals (xs ++ [x]) =
      if x.subject ∈ xs.map Alert.subject then firstArrivals xs else firstArrivals xs ++ [x] := by
  have hbefore : (xs.zipIdx.filter fun (y, i) => !((xs ++ [x]).take i).any (·.repeats y)) =
      xs.zipIdx.filter fun (y, i) => !(xs.take i).any (·.repeats y) := by
    refine List.filter_congr ?_
    rintro ⟨y, i⟩ hy
    have hi : i < xs.length := (List.mem_zipIdx' hy).1
    show (!((xs ++ [x]).take i).any (·.repeats y)) = !(xs.take i).any (·.repeats y)
    rw [List.take_append_of_le_length (Nat.le_of_lt hi)]
  have hlast : xs.any (·.repeats x) = true ↔ x.subject ∈ xs.map Alert.subject := by
    simp [Alert.repeats_iff]
  unfold firstArrivals
  rw [List.zipIdx_append, List.filter_append, hbefore, List.map_append]
  by_cases hx : x.subject ∈ xs.map Alert.subject
  · rw [if_pos hx]
    simp [hlast.mpr hx]
  · rw [if_neg hx]
    simp [(Bool.not_eq_true _).mp (mt hlast.mp hx)]

/-- Adding alerts one after the other keeps those that arrive first. -/
theorem appendAll_nil (xs : List Alert) : appendAll [] xs = firstArrivals xs := by
  induction xs using List.reverseRecOn with
  | nil => rfl
  | append_singleton xs x ih =>
    have hknown : x.subject ∈ (appendAll [] xs).map Alert.subject ↔
        x.subject ∈ xs.map Alert.subject := by
      rw [mem_subjects_appendAll]
      simp
    rw [appendAll_append, firstArrivals_concat, ← ih]
    show append (appendAll [] xs) x = _
    by_cases hx : x.subject ∈ xs.map Alert.subject
    · rw [if_pos hx, append_of_mem_subjects (hknown.mpr hx)]
    · rw [if_neg hx, append_of_fresh (mt hknown.mp hx)]

/-! ## Both lists -/

theorem ext_ofKind (h : ∀ k, a.ofKind k = b.ofKind k) : a = b := by
  obtain ⟨warnings, errors⟩ := a
  obtain rfl : warnings = b.warnings := h .warning
  obtain rfl : errors = b.errors := h .error
  rfl

theorem ofKind_empty (k : AlertKind) : empty.ofKind k = [] := by
  cases k <;> rfl

theorem ofKind_pushAll (a : Alerts) (xs : List Alert) (k : AlertKind) :
    (a.pushAll xs).ofKind k = appendAll (a.ofKind k) (xs.filter (·.kind = k)) := by
  induction xs generalizing a with
  | nil => rfl
  | cons x xs ih =>
    show ((a.push x).pushAll xs).ofKind k = _
    rw [ih, ofKind_push]
    by_cases hx : x.kind = k
    · rw [if_pos hx, List.filter_cons_of_pos (by simpa using hx)]
      rfl
    · rw [if_neg hx, List.filter_cons_of_neg (by simpa using hx)]

theorem ofKind_merge (a b : Alerts) (k : AlertKind) :
    (a.merge b).ofKind k =
      appendAll (a.ofKind k) ((b.warnings ++ b.errors).filter (·.kind = k)) :=
  ofKind_pushAll a (b.warnings ++ b.errors) k

namespace IsFiled

theorem empty : Alerts.empty.IsFiled := by
  intro k x hx
  rw [ofKind_empty] at hx
  cases hx

theorem pushAll (h : a.IsFiled) (xs : List Alert) : (a.pushAll xs).IsFiled := by
  induction xs generalizing a with
  | nil => exact h
  | cons x xs ih => exact ih (h.push x)

theorem merge (h : a.IsFiled) (b : Alerts) : (a.merge b).IsFiled :=
  h.pushAll (b.warnings ++ b.errors)

/-- Of alerts that are filed by their kinds, those of a kind are the list for it. -/
theorem filter_kind (h : a.IsFiled) (k : AlertKind) :
    (a.warnings ++ a.errors).filter (·.kind = k) = a.ofKind k := by
  have hown : ∀ j, (a.ofKind j).filter (·.kind = k) = if j = k then a.ofKind j else [] := by
    intro j
    split
    · next hj => exact List.filter_eq_self.mpr fun x hx => by simp [h j x hx, hj]
    · next hj => exact List.filter_eq_nil_iff.mpr fun x hx => by simp [h j x hx, hj]
  rw [List.filter_append]
  show (a.ofKind .warning).filter _ ++ (a.ofKind .error).filter _ = _
  rw [hown, hown]
  cases k with
  | warning => simp
  | error => simp

theorem ofKind_merge (h : b.IsFiled) (a : Alerts) (k : AlertKind) :
    (a.merge b).ofKind k = appendAll (a.ofKind k) (b.ofKind k) := by
  rw [Alerts.ofKind_merge, h.filter_kind]

/-- Taking over a copy changes nothing. -/
theorem merge_self (h : a.IsFiled) : a.merge a = a := by
  refine ext_ofKind fun k => ?_
  rw [h.ofKind_merge]
  exact appendAll_of_known fun x hx => List.mem_map_of_mem hx

/-- Alerts may be taken over one after the other or together. -/
theorem merge_assoc (h : b.IsFiled) (a c : Alerts) :
    (a.merge b).merge c = a.merge (b.merge c) := by
  refine ext_ofKind fun k => ?_
  rw [Alerts.ofKind_merge, h.ofKind_merge, (h.merge c).ofKind_merge, Alerts.ofKind_merge,
    appendAll_appendAll]

end IsFiled

/-- Alerts may be collected before they are taken over. -/
theorem merge_empty_merge (a b : Alerts) : a.merge (empty.merge b) = a.merge b := by
  refine ext_ofKind fun k => ?_
  rw [(IsFiled.empty.merge b).ofKind_merge, Alerts.ofKind_merge, Alerts.ofKind_merge,
    appendAll_appendAll, ofKind_empty]
  rfl

/-- **Of each kind, the first alert to arrive about each subject is kept**, in the order of arrival,
whatever is added or taken over. So no subject is repeated, taking over a copy changes nothing, and
`b` and then `c` may be taken over together: `c` goes to what was collected of `b`, or to `b` itself
with all its repetitions. In the latter case `b` must be filed by kinds, as whatever alerts are
collected in is, since a misfiled alert would keep out alerts of `c` that are of another kind. -/
theorem collect_keeps_first_arrivals (steps : List Step) :
    (∀ k, (collect steps).ofKind k =
      firstArrivals ((steps.flatMap Step.arrivals).filter (·.kind = k))) ∧
    (∀ k, (((collect steps).ofKind k).map Alert.subject).Nodup) ∧
    (collect steps).merge (collect steps) = collect steps ∧
    (∀ b c, ((collect steps).merge b).merge c = (collect steps).merge ((empty.merge b).merge c)) ∧
    ∀ b c, b.IsFiled → ((collect steps).merge b).merge c = (collect steps).merge (b.merge c) := by
  have hcollects : (collect steps).Collects (steps.flatMap Step.arrivals) := by
    rw [collect_eq]
    exact Collects.empty.pushAll _
  have hfiled : (collect steps).IsFiled := hcollects.kind
  refine ⟨fun k => ?_, hcollects.once, hfiled.merge_self, fun b c => ?_, fun b c hb => ?_⟩
  · rw [collect_eq, ofKind_pushAll, ofKind_empty, appendAll_nil]
  · rw [← (IsFiled.empty.merge b).merge_assoc, merge_empty_merge]
  · exact hb.merge_assoc _ c

end Alerts

namespace Household

/-- An alert about the name of a person. -/
def nameAlert (kind : AlertKind) (person address : String) : Alert :=
  ⟨kind, "name", address, "/flow/you/family", none, some "people", some person, [], none⟩

/-- A warning about ann, and then others, with an error and a repetition among the warnings and a
warning among the errors. -/
def nameSteps : List Alerts.Step :=
  [.push (nameAlert .warning "ann" "/first"),
    .merge ⟨[nameAlert .error "ann" "/second", nameAlert .warning "ann" "/third"],
      [nameAlert .warning "bob" "/fourth"]⟩]

end Household

namespace Alerts

open Household in
/-- What arrives first is kept, and alerts with repetitions may be taken over together with misfiled
ones. -/
theorem collect_keeps_first_arrivals_household :
    let b : Alerts := ⟨[nameAlert .warning "cy" "/fifth", nameAlert .warning "cy" "/sixth"], []⟩
    let c : Alerts := ⟨[nameAlert .error "cy" "/seventh"], [nameAlert .warning "cy" "/eighth"]⟩
    (collect nameSteps).warnings =
      [nameAlert .warning "ann" "/first", nameAlert .warning "bob" "/fourth"] ∧
    (collect nameSteps).errors = [nameAlert .error "ann" "/second"] ∧
    b.IsFiled ∧
    ((collect nameSteps).merge b).merge c = (collect nameSteps).merge (b.merge c) := by
  intro b c
  obtain ⟨hfirst, -, -, -, htogether⟩ := collect_keeps_first_arrivals nameSteps
  have hfiled : b.IsFiled := by
    intro k x hx
    cases k with
    | warning =>
      have hall : ∀ x ∈ b.warnings, x.kind = .warning := by decide
      exact hall x hx
    | error => cases hx
  exact ⟨hfirst .warning, hfirst .error, hfiled, htogether b c hfiled⟩

open Household in
/-- **Not all alerts may be taken over together**: an error that stands among the warnings keeps a
warning about its subject from being taken over to them. -/
theorem not_all_taken_over_together :
    let b : Alerts := ⟨[nameAlert .error "ann" "/first"], []⟩
    let c : Alerts := ⟨[nameAlert .warning "ann" "/second"], []⟩
    ((collect []).merge b).merge c =
      ⟨[nameAlert .warning "ann" "/second"], [nameAlert .error "ann" "/first"]⟩ ∧
    (collect []).merge (b.merge c) = ⟨[], [nameAlert .error "ann" "/first"]⟩ ∧
    ¬ ∀ (steps : List Step) (b c : Alerts),
      ((collect steps).merge b).merge c = (collect steps).merge (b.merge c) := by
  intro b c
  have hone : ((collect []).merge b).merge c =
      ⟨[nameAlert .warning "ann" "/second"], [nameAlert .error "ann" "/first"]⟩ := by decide
  have htogether : (collect []).merge (b.merge c) = ⟨[], [nameAlert .error "ann" "/first"]⟩ := by
    decide
  refine ⟨hone, htogether, fun hall => ?_⟩
  have hsame := hone.symm.trans ((hall [] b c).trans htogether)
  cases (Alerts.mk.inj hsame).1

end Alerts

end Interview

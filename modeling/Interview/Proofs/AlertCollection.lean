import Interview.Alert.Basic
import Interview.Proofs.Arrangement

/-!
# Collecting alerts

However alerts are collected, one by one or by taking over what others have collected, each message
is kept once for every item it is about. `Alerts.Collects` says this of collected alerts and the
list of those that were to be collected; `Alerts.Collects.push`, `pushAll` and `merge` go from one
step to the next.
-/

namespace Interview

/-- What an alert says, and about which item. -/
def Alert.subject (a : Alert) : String × Option String :=
  (a.key, a.item)

theorem Alert.repeats_iff {a b : Alert} : a.repeats b = true ↔ a.subject = b.subject := by
  simp [repeats, subject]

namespace Alerts

/-- The list for alerts of a kind. -/
def ofKind (a : Alerts) : AlertKind → List Alert
  | .warning => a.warnings
  | .error => a.errors

/-- Every alert is in the list for its kind. -/
def IsFiled (a : Alerts) : Prop :=
  ∀ k, ∀ x ∈ a.ofKind k, x.kind = k

/-- The alerts of a list are collected: each is in the list for its kind, and the alerts there are
about the same subjects as those to be collected, but about each subject there is only one. -/
structure Collects (a : Alerts) (xs : List Alert) : Prop where
  kind : ∀ k, ∀ x ∈ a.ofKind k, x.kind = k
  once : ∀ k, ((a.ofKind k).map Alert.subject).Nodup
  subjects : ∀ k p, p ∈ (a.ofKind k).map Alert.subject ↔ ∃ x ∈ xs, x.kind = k ∧ x.subject = p

variable {a b : Alerts} {x : Alert} {xs ys list : List Alert}

/-! ## One list -/

/-- An alert is only added if there is none about its subject. -/
theorem mem_append {y : Alert} (h : y ∈ append list x) :
    y ∈ list ∨ y = x ∧ x.subject ∉ list.map Alert.subject := by
  unfold append at h
  split at h
  · exact .inl h
  · next hany =>
    rcases List.mem_append.mp h with hy | hy
    · exact .inl hy
    · refine .inr ⟨List.mem_singleton.mp hy, fun hsubject => hany ?_⟩
      obtain ⟨z, hz, heq⟩ := List.mem_map.mp hsubject
      exact List.any_eq_true.mpr ⟨z, hz, Alert.repeats_iff.mpr heq⟩

/-- An alert is only left out if there is one about its subject. -/
theorem mem_subjects_append {p : String × Option String} :
    p ∈ (append list x).map Alert.subject ↔ p ∈ list.map Alert.subject ∨ x.subject = p := by
  unfold append
  split
  · next hany =>
    obtain ⟨y, hy, hyx⟩ := List.any_eq_true.mp hany
    have hknown : x.subject ∈ list.map Alert.subject :=
      List.mem_map.mpr ⟨y, hy, Alert.repeats_iff.mp hyx⟩
    constructor
    · exact .inl
    · rintro (hp | rfl)
      · exact hp
      · exact hknown
  · simp [eq_comm]

theorem nodup_subjects_append (h : (list.map Alert.subject).Nodup) :
    ((append list x).map Alert.subject).Nodup := by
  unfold append
  split
  · exact h
  · next hany =>
    refine nodup_map_concat h fun y hy hyx => ?_
    exact hany (List.any_eq_true.mpr ⟨y, hy, Alert.repeats_iff.mpr hyx⟩)

/-! ## Both lists -/

theorem ofKind_push (a : Alerts) (x : Alert) (k : AlertKind) :
    (a.push x).ofKind k = if x.kind = k then append (a.ofKind k) x else a.ofKind k := by
  unfold push
  cases hx : x.kind <;> cases k <;> rfl

/-- Alerts that are filed by their kinds stay so. -/
theorem IsFiled.push (h : a.IsFiled) (x : Alert) : (a.push x).IsFiled := by
  intro k y hy
  rw [ofKind_push] at hy
  split at hy
  · next hx =>
    rcases mem_append hy with hy | ⟨rfl, -⟩
    · exact h k y hy
    · exact hx
  · exact h k y hy

/-- The subjects of collected alerts stay collected. -/
theorem mem_subjects_push {p : String × Option String} {k : AlertKind}
    (h : p ∈ (a.ofKind k).map Alert.subject) : p ∈ ((a.push x).ofKind k).map Alert.subject := by
  rw [ofKind_push]
  split
  · exact mem_subjects_append.mpr (.inl h)
  · exact h

/-- What is in the lists after alerts of a list have been added was there before, or is one of the
list about a subject that there was no alert about. -/
theorem mem_pushAll {y : Alert} {k : AlertKind} (h : y ∈ (a.pushAll ys).ofKind k) :
    y ∈ a.ofKind k ∨ y ∈ ys ∧ y.kind = k ∧ y.subject ∉ (a.ofKind k).map Alert.subject := by
  induction ys generalizing a with
  | nil => exact .inl h
  | cons x ys ih =>
    rcases ih (a := a.push x) h with hy | ⟨hy, hkind, hfresh⟩
    · rw [ofKind_push] at hy
      split at hy
      · next hx =>
        rcases mem_append hy with hy | ⟨rfl, hfresh⟩
        · exact .inl hy
        · exact .inr ⟨List.mem_cons_self, hx, hfresh⟩
      · exact .inl hy
    · exact .inr ⟨List.mem_cons_of_mem x hy, hkind, fun h => hfresh (mem_subjects_push h)⟩

namespace Collects

theorem empty : Alerts.empty.Collects [] where
  kind k x hx := by cases k <;> cases hx
  once k := by cases k <;> exact List.nodup_nil
  subjects k p := by cases k <;> simp [ofKind, Alerts.empty]

theorem push (h : a.Collects xs) (x : Alert) : (a.push x).Collects (xs ++ [x]) where
  kind := IsFiled.push h.kind x
  once k := by
    rw [ofKind_push]
    split
    · exact nodup_subjects_append (h.once k)
    · exact h.once k
  subjects k p := by
    have hlast : (∃ y ∈ xs ++ [x], y.kind = k ∧ y.subject = p) ↔
        (∃ y ∈ xs, y.kind = k ∧ y.subject = p) ∨ x.kind = k ∧ x.subject = p := by
      simp only [List.mem_append, List.mem_singleton, or_and_right, exists_or, exists_eq_left]
    rw [hlast, ofKind_push, ← h.subjects k p]
    by_cases hx : x.kind = k
    · rw [if_pos hx, mem_subjects_append]
      simp [hx]
    · rw [if_neg hx]
      simp [hx]

/-- Going on with the alerts of a second list, collected one by one. -/
theorem pushAll (h : a.Collects xs) (ys : List Alert) : (a.pushAll ys).Collects (xs ++ ys) := by
  induction ys generalizing a xs with
  | nil =>
    rw [List.append_nil]
    exact h
  | cons y ys ih =>
    have hrest := ih (h.push y)
    rw [List.append_assoc, List.singleton_append] at hrest
    exact hrest

/-- Going on with what was collected of a second list. -/
theorem merge (ha : a.Collects xs) (hb : b.Collects ys) : (a.merge b).Collects (xs ++ ys) := by
  have hall : (a.merge b).Collects (xs ++ (b.warnings ++ b.errors)) := ha.pushAll _
  -- what is left of the second list is about the same subjects
  have hsame (k : AlertKind) (p : String × Option String) :
      (∃ x ∈ b.warnings ++ b.errors, x.kind = k ∧ x.subject = p) ↔
        ∃ x ∈ ys, x.kind = k ∧ x.subject = p := by
    rw [← hb.subjects k p, List.mem_map]
    constructor
    · rintro ⟨x, hx, hkind, hp⟩
      refine ⟨x, ?_, hp⟩
      rcases List.mem_append.mp hx with hx | hx
      · have hwarning : x.kind = .warning := hb.kind .warning x hx
        rw [← hkind, hwarning]
        exact hx
      · have herror : x.kind = .error := hb.kind .error x hx
        rw [← hkind, herror]
        exact hx
    · rintro ⟨x, hx, hp⟩
      refine ⟨x, ?_, hb.kind k x hx, hp⟩
      cases k with
      | warning => exact List.mem_append_left _ hx
      | error => exact List.mem_append_right _ hx
  refine ⟨hall.kind, hall.once, ?_⟩
  intro k p
  rw [hall.subjects k p]
  simp only [List.mem_append, or_and_right, exists_or] at hsame ⊢
  rw [hsame k p]

end Collects

end Alerts

end Interview

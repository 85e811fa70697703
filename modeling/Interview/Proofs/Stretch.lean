/-!
# Stretches of lists

The elements of a list that have a property form a *stretch* if nothing else stands between them.
The parts of a flow are stretches of its screens: what belongs to one loop, or to one subcategory,
is gone through without interruption. A list that is extended at its end keeps its stretches, as
long as the one that is still *open*, because it reaches to the end of the list, is the only one
that grows.

What comes after a given element of a list is cut off at the first element without a property
(`drop_dropWhile_eq`).
-/

namespace Interview

universe u

variable {α : Type u} {p : α → Bool} {xs : List α}

/-- The elements with a property stand next to each other. -/
def IsStretch (p : α → Bool) (xs : List α) : Prop :=
  ∃ before inside after, xs = before ++ inside ++ after ∧
    (∀ x ∈ before, p x = false) ∧ (∀ x ∈ inside, p x = true) ∧ (∀ x ∈ after, p x = false)

/-- The elements with a property stand next to each other, and nothing comes after them. -/
def IsOpenStretch (p : α → Bool) (xs : List α) : Prop :=
  ∃ before inside, xs = before ++ inside ∧
    (∀ x ∈ before, p x = false) ∧ (∀ x ∈ inside, p x = true)

namespace IsOpenStretch

/-- A stretch that no element belongs to is open at the end. -/
theorem of_none (h : ∀ x ∈ xs, p x = false) : IsOpenStretch p xs :=
  ⟨xs, [], by simp, h, by simp⟩

theorem isStretch (h : IsOpenStretch p xs) : IsStretch p xs := by
  obtain ⟨before, inside, rfl, hbefore, hinside⟩ := h
  exact ⟨before, inside, [], by simp, hbefore, hinside, by simp⟩

/-- An open stretch grows by an element that has the property. -/
theorem concat {x : α} (h : IsOpenStretch p xs) (hx : p x = true) :
    IsOpenStretch p (xs ++ [x]) := by
  obtain ⟨before, inside, rfl, hbefore, hinside⟩ := h
  refine ⟨before, inside ++ [x], by simp, hbefore, fun y hy => ?_⟩
  rcases List.mem_append.mp hy with hy | hy
  · exact hinside y hy
  · rw [List.mem_singleton.mp hy]
    exact hx

end IsOpenStretch

/-- A part of a list that starts with no element of the first half lies in the second. -/
theorem sublist_right {ys zs l : List α} {a : α} (h : (a :: l).Sublist (ys ++ zs))
    (ha : a ∉ ys) : (a :: l).Sublist zs := by
  obtain ⟨l₁, l₂, heq, h₁, h₂⟩ := List.sublist_append_iff.mp h
  -- a part of the first half would have to begin with the first element
  cases l₁ with
  | nil =>
    rw [List.nil_append] at heq
    rwa [heq]
  | cons x l₁ =>
    obtain ⟨rfl, -⟩ := List.cons.inj heq
    exact absurd (h₁.subset List.mem_cons_self) ha

/-- A part of a list that ends with no element of the second half lies in the first. -/
theorem sublist_left {ys zs l : List α} {c : α} (h : (l ++ [c]).Sublist (ys ++ zs))
    (hc : c ∉ zs) : (l ++ [c]).Sublist ys := by
  -- the same, read backwards
  have hrev : (c :: l.reverse).Sublist (zs.reverse ++ ys.reverse) := by
    simpa using List.reverse_sublist.mpr h
  have hleft := sublist_right hrev (by simpa using hc)
  simpa using List.reverse_sublist.mpr hleft

/-- What comes after the first element without a property, if that element is known. -/
theorem drop_dropWhile_eq {before after : List α} {a : α} (hbefore : ∀ x ∈ before, p x = true)
    (ha : p a = false) : ((before ++ a :: after).dropWhile p).drop 1 = after := by
  rw [List.dropWhile_append_of_pos hbefore, List.dropWhile_cons_of_neg (by simp [ha]),
    List.drop_one, List.tail_cons]

/-- Where something comes after the first element without a property, there is such an element. -/
theorem exists_of_drop_dropWhile {ys : List α} (h : (xs.dropWhile p).drop 1 = ys) (hys : ys ≠ []) :
    ∃ before a, xs = before ++ a :: ys ∧ (∀ x ∈ before, p x = true) ∧ p a = false := by
  cases hdrop : xs.dropWhile p with
  | nil =>
    rw [hdrop] at h
    exact absurd h.symm hys
  | cons a after =>
    rw [hdrop, List.drop_one, List.tail_cons] at h
    have hsplit := List.takeWhile_append_dropWhile (p := p) (l := xs)
    have hhead := List.head?_dropWhile_not p xs
    rw [hdrop] at hsplit hhead
    refine ⟨xs.takeWhile p, a, h ▸ hsplit.symm, fun x hx => ?_, by simpa using hhead⟩
    exact List.all_eq_true.mp List.all_takeWhile x hx

namespace IsStretch

/-- A stretch is kept when an element without the property is added at the end. -/
theorem concat {x : α} (h : IsStretch p xs) (hx : p x = false) : IsStretch p (xs ++ [x]) := by
  obtain ⟨before, inside, after, rfl, hbefore, hinside, hafter⟩ := h
  refine ⟨before, inside, after ++ [x], by simp, hbefore, hinside, fun y hy => ?_⟩
  rcases List.mem_append.mp hy with hy | hy
  · exact hafter y hy
  · rw [List.mem_singleton.mp hy]
    exact hx

/-- What lies around a stretch, with the stretch written as the elements that have the
property. -/
theorem split (h : IsStretch p xs) : ∃ before after, xs = before ++ xs.filter p ++ after ∧
    (∀ x ∈ before, p x = false) ∧ (∀ x ∈ after, p x = false) := by
  obtain ⟨before, inside, after, rfl, hbefore, hinside, hafter⟩ := h
  refine ⟨before, after, ?_, hbefore, hafter⟩
  have hb : before.filter p = [] := List.filter_eq_nil_iff.mpr fun x hx => by simp [hbefore x hx]
  have ha : after.filter p = [] := List.filter_eq_nil_iff.mpr fun x hx => by simp [hafter x hx]
  have hi : inside.filter p = inside := List.filter_eq_self.mpr hinside
  simp [hb, ha, hi]

/-- Between two elements of a stretch there are only elements of the stretch. -/
theorem mem_between (h : IsStretch p xs) {a b c : α} (hsub : [a, b, c].Sublist xs)
    (ha : p a = true) (hc : p c = true) : p b = true := by
  obtain ⟨before, inside, after, rfl, hbefore, hinside, hafter⟩ := h
  rw [List.append_assoc] at hsub
  -- nothing begins before the stretch, and nothing ends after it
  have hright : [a, b, c].Sublist (inside ++ after) :=
    sublist_right hsub fun hmem => by simp [hbefore a hmem] at ha
  have hleft : ([a, b] ++ [c]).Sublist inside :=
    sublist_left hright fun hmem => by simp [hafter c hmem] at hc
  exact hinside b (hleft.subset (by simp))

end IsStretch

end Interview

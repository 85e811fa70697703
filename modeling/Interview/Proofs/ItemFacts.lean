import Interview.Proofs.OneView

/-!
# Facts of items

An abstract path leads to a fact of its own for every item (`Path.bind_injective`), whatever
characters the items consist of: bound to two items, it is of the same length only if they are, and
up to its first place for an item it is the same text. So a write to the fact of one item is not
seen in the context of another (`items_share_no_fact`).
-/

namespace Interview

namespace Path

variable {c : Char} {cs : List Char} {path : String}

/-! ## Bound paths -/

/-- A place for an item becomes the mark and the item. -/
theorem bindChars_place (item cs : List Char) :
    bindChars item ('*' :: cs) = '#' :: (item ++ bindChars item cs) := rfl

/-- Every other character stays as it is. -/
theorem bindChars_cons (item : List Char) (hc : c ≠ '*') (cs : List Char) :
    bindChars item (c :: cs) = c :: bindChars item cs := by
  unfold bindChars
  rw [List.flatMap_cons, if_neg hc, List.singleton_append]

theorem length_bindChars (item cs : List Char) :
    (bindChars item cs).length = cs.length + cs.count '*' * item.length := by
  induction cs with
  | nil => simp [bindChars]
  | cons c cs ih =>
    by_cases hc : c = '*'
    · subst hc
      rw [bindChars_place, List.length_cons, List.length_append, ih, List.count_cons_self,
        List.length_cons, Nat.succ_mul]
      omega
    · rw [bindChars_cons item hc, List.length_cons, ih, List.count_cons_of_ne hc, List.length_cons]
      omega

/-- What stands in front of the first place stays as it is. -/
theorem bindChars_of_first (item : List Char) {before : List Char} (h : '*' ∉ before)
    (after : List Char) :
    bindChars item (before ++ '*' :: after) =
      before ++ '#' :: (item ++ bindChars item after) := by
  induction before with
  | nil => exact bindChars_place item after
  | cons c before ih =>
    obtain ⟨hc, hbefore⟩ := not_or.mp (mt List.mem_cons.mpr h)
    rw [List.cons_append, bindChars_cons item (Ne.symm hc), ih hbefore, List.cons_append]

theorem bindChars_injective (h : '*' ∈ cs) : Function.Injective fun item => bindChars item cs := by
  intro i j hbound
  have hlength : i.length = j.length := by
    have hboth := congrArg List.length hbound
    rw [length_bindChars, length_bindChars] at hboth
    have hplaces : 0 < cs.count '*' := List.count_pos_iff.mpr h
    exact Nat.eq_of_mul_eq_mul_left hplaces (Nat.add_left_cancel hboth)
  -- the items stand at the first place, both times followed by a text that depends on them
  obtain ⟨before, after, rfl, hbefore⟩ := List.eq_append_cons_of_mem h
  simp only [bindChars_of_first _ hbefore] at hbound
  have hplace := List.append_cancel_left hbound
  exact (List.append_inj (List.cons.inj hplace).2 hlength).1

/-- An abstract path leads to different facts for different items. -/
theorem bind_injective (h : isAbstract path = true) : Function.Injective (bind path) := by
  intro i j hbound
  have hplace : '*' ∈ path.toList := List.contains_iff_mem.mp h
  have hchars : bindChars i.toList path.toList = bindChars j.toList path.toList :=
    String.ofList_injective hbound
  exact String.toList_inj.mp (bindChars_injective hplace hchars)

end Path

/-! ## Changed stores -/

/-- A store after the fact at a path has been written, or removed. -/
inductive Store.ChangedAt (s : Store) (path : String) : Store → Prop
  | written (fact : Fact) : s.ChangedAt path (s.insert path fact)
  | removed : s.ChangedAt path (s.erase path)

variable {s s' : Store} {changed path : String} {item : Option String}

/-- The facts at other paths stay as they are. -/
theorem Store.ChangedAt.facts_eq (h : s.ChangedAt changed s') (hpath : path ≠ changed) :
    s'.facts path = s.facts path := by
  cases h with
  | written fact => rw [facts_insert, if_neg hpath]
  | removed => rw [facts_erase, if_neg hpath]

/-- A snapshot of a changed store tells the same of other paths, whatever it remembers. -/
theorem View.get_of_changedAt (h : s.ChangedAt changed s') (hpath : path ≠ changed)
    (seen : Snapshot) : (View.get Store.source path ⟨seen, s'⟩).1 =
      (View.get Store.source path ⟨seen, s⟩).1 := by
  unfold View.get
  cases seen.known? path with
  | some fact => rfl
  | none => exact h.facts_eq hpath

/-- A lookup that does not lead to the changed fact finds what it found before. -/
theorem Reading.lookup_of_changedAt (h : s.ChangedAt changed s')
    (hpath : Path.resolve path item ≠ some changed) (seen : Snapshot) :
    ((lookup path item).through Store.source ⟨seen, s'⟩).1 =
      ((lookup path item).through Store.source ⟨seen, s⟩).1 := by
  unfold lookup
  cases hconcrete : Path.resolve path item with
  | none => rfl
  | some concrete =>
    have hne : concrete ≠ changed := by
      rintro rfl
      exact hpath hconcrete
    simp only [through_map]
    exact congrArg some (View.get_of_changedAt h hne seen)

/-- In a fresh snapshot a lookup finds the fact that it leads to. -/
theorem Reading.lookup_of_store {concrete : String} (h : Path.resolve path item = some concrete)
    (s : Store) :
    ((lookup path item).through Store.source (.of s)).1 = some (s.facts concrete) := by
  unfold lookup
  rw [h]
  rfl

/-- A condition on a fact depends on what the lookup finds. -/
theorem Condition.through_fact (ctx : Context) (op : Operator) (v : View Store) :
    (((fact path op).holds ctx item).through Store.source v).1 =
      ((Reading.lookup path item).through Store.source v).1.any op.apply :=
  congrArg Prod.fst (Reading.through_map (Option.any op.apply) (Reading.lookup path item) v)

/-- **Items share no fact.** Bound to two items, an abstract path gives two paths. If the fact that
it leads to for an item is written or removed, then for every other item, and without an item, a
lookup of the path finds what it found before, and conditions on the path hold as before. For the
item itself a lookup finds what has been written, or an unknown fact. -/
theorem items_share_no_fact (habstract : Path.isAbstract path = true) :
    Function.Injective (Path.bind path) ∧
    (∀ (i : String) (s s' : Store), s.ChangedAt (Path.bind path i) s' →
      ∀ (item : Option String), item ≠ some i → ∀ seen : Snapshot,
        ((Reading.lookup path item).through Store.source ⟨seen, s'⟩).1 =
          ((Reading.lookup path item).through Store.source ⟨seen, s⟩).1 ∧
        ∀ ctx op, (((Condition.fact path op).holds ctx item).through Store.source ⟨seen, s'⟩).1 =
          (((Condition.fact path op).holds ctx item).through Store.source ⟨seen, s⟩).1) ∧
    ∀ (i : String) (s : Store),
      (∀ fact, ((Reading.lookup path (some i)).through Store.source
        (.of (s.insert (Path.bind path i) fact))).1 = some fact) ∧
      ((Reading.lookup path (some i)).through Store.source
        (.of (s.erase (Path.bind path i)))).1 = some .unknown := by
  have hinjective := Path.bind_injective habstract
  have hresolve : ∀ item, Path.resolve path item = item.map (Path.bind path) := by
    intro item
    unfold Path.resolve
    rw [if_pos habstract]
  refine ⟨hinjective, ?_, ?_⟩
  · intro i s s' hchanged item hitem seen
    have hpath : Path.resolve path item ≠ some (Path.bind path i) := by
      rw [hresolve]
      intro hbound
      obtain ⟨j, rfl, hsame⟩ := Option.map_eq_some_iff.mp hbound
      exact hitem (congrArg some (hinjective hsame))
    have hlookup := Reading.lookup_of_changedAt hchanged hpath seen
    refine ⟨hlookup, ?_⟩
    intro ctx op
    rw [Condition.through_fact, Condition.through_fact, hlookup]
  · intro i s
    have hitem : Path.resolve path (some i) = some (Path.bind path i) := hresolve (some i)
    constructor
    · intro fact
      rw [Reading.lookup_of_store hitem, Store.facts_insert, if_pos rfl]
    · rw [Reading.lookup_of_store hitem, Store.facts_erase, if_pos rfl]

namespace Household

/-- A path with two places for an item. -/
def firstJob : String := "/people/*/jobs/*/isFirst"

/-- Both people have a first job. One of them is known by a text that reads like part of a path. -/
def jobStore : Store :=
  ["ann", "#*/jobs/"].foldl
    (fun s item => s.insert (Path.bind firstJob item) ⟨true, some (.boolean true)⟩) .empty

end Household

open Household in
/-- When the one person's first job is taken back, the other person still has one. -/
theorem items_share_no_fact_household :
    Path.isAbstract firstJob = true ∧
    Path.bind firstJob "#*/jobs/" = "/people/##*/jobs//jobs/##*/jobs//isFirst" ∧
    Path.bind firstJob "#*/jobs/" ≠ Path.bind firstJob "ann" ∧
    jobStore.ChangedAt (Path.bind firstJob "#*/jobs/")
      (jobStore.erase (Path.bind firstJob "#*/jobs/")) ∧
    ((Reading.lookup firstJob (some "ann")).through Store.source
      (.of (jobStore.erase (Path.bind firstJob "#*/jobs/")))).1 =
        some ⟨true, some (.boolean true)⟩ ∧
    (((Condition.fact firstJob .isTrue).holds default (some "ann")).through Store.source
      (.of (jobStore.erase (Path.bind firstJob "#*/jobs/")))).1 = true := by
  have habstract : Path.isAbstract firstJob = true := rfl
  obtain ⟨hinjective, hunchanged, -⟩ := items_share_no_fact habstract
  have hremoved : jobStore.ChangedAt (Path.bind firstJob "#*/jobs/")
      (jobStore.erase (Path.bind firstJob "#*/jobs/")) := .removed
  obtain ⟨hlookup, hholds⟩ := hunchanged _ _ _ hremoved (some "ann") (by decide) .fresh
  refine ⟨habstract, rfl, hinjective.ne (by decide), hremoved, ?_, ?_⟩
  · rw [View.of, hlookup]
    rfl
  · rw [View.of, hholds]
    rfl

end Interview

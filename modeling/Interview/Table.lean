/-!
# Tables

A table gives at most one value to each text. Its entries are kept in the order of their keys, by
code point, so two tables with the same answers are the same table. The lemmas at the end say what
each operation does to the answers of `get?`.
-/

namespace Interview

universe u v

variable {α : Type u}

namespace Table

/-- Adds an entry to entries in key order, in place of one with the same key. -/
def insertEntry (key : String) (value : α) : List (String × α) → List (String × α)
  | [] => [(key, value)]
  | entry :: rest =>
    if key < entry.1 then (key, value) :: entry :: rest
    else if key = entry.1 then (key, value) :: rest
    else entry :: insertEntry key value rest

/-- Every entry of the longer list is the new one or an old one. -/
theorem mem_insertEntry {key : String} {value : α} {e : String × α} {es : List (String × α)}
    (h : e ∈ insertEntry key value es) : e = (key, value) ∨ e ∈ es := by
  induction es with
  | nil => exact .inl (by simpa [insertEntry] using h)
  | cons first rest ih =>
    unfold insertEntry at h
    split at h
    · simpa using h
    · split at h
      · rcases List.mem_cons.1 h with h | h
        · exact .inl h
        · exact .inr (List.mem_cons_of_mem _ h)
      · rcases List.mem_cons.1 h with h | h
        · exact .inr (h ▸ List.mem_cons_self)
        · exact (ih h).imp_right (List.mem_cons_of_mem _)

/-- Adding an entry keeps the order. -/
theorem pairwise_insertEntry (key : String) (value : α) {es : List (String × α)}
    (h : es.Pairwise (·.1 < ·.1)) : (insertEntry key value es).Pairwise (·.1 < ·.1) := by
  induction es with
  | nil => simp [insertEntry]
  | cons first rest ih =>
    obtain ⟨hfirst, hrest⟩ := List.pairwise_cons.1 h
    unfold insertEntry
    split
    · next hlt =>
      refine List.pairwise_cons.2 ⟨fun e he => ?_, h⟩
      rcases List.mem_cons.1 he with rfl | he
      · exact hlt
      · exact String.lt_trans hlt (hfirst e he)
    · next hle =>
      split
      · next heq => exact List.pairwise_cons.2 ⟨fun e he => heq ▸ hfirst e he, hrest⟩
      · next hne =>
        refine List.pairwise_cons.2 ⟨fun e he => ?_, ih hrest⟩
        rcases mem_insertEntry he with rfl | he
        · exact Decidable.byContradiction fun hge =>
            hne (String.le_antisymm (String.not_lt.1 hge) (String.not_lt.1 hle))
        · exact hfirst e he

end Table

/-- Texts with a value each, in the order of the texts. -/
structure Table (α : Type u) where
  /-- The texts and their values. -/
  entries : List (String × α)
  /-- The texts ascend, so none occurs twice. -/
  ascending : entries.Pairwise (·.1 < ·.1)
deriving DecidableEq

namespace Table

/-- The table without entries. -/
def empty : Table α := ⟨[], .nil⟩

instance : Inhabited (Table α) := ⟨empty⟩

/-- The value of a text. -/
def get? (t : Table α) (key : String) : Option α :=
  t.entries.lookup key

/-- Gives a text a value, in place of the one it had. -/
def insert (t : Table α) (key : String) (value : α) : Table α :=
  ⟨insertEntry key value t.entries, pairwise_insertEntry key value t.ascending⟩

/-- Takes a text and its value out. -/
def erase (t : Table α) (key : String) : Table α :=
  ⟨t.entries.filter (·.1 ≠ key), t.ascending.filter _⟩

/-- How many texts have a value. -/
def size (t : Table α) : Nat :=
  t.entries.length

/-- The table of a list of entries, where a later entry replaces an earlier one for its text. -/
def ofList (es : List (String × α)) : Table α :=
  es.foldl (fun t e => t.insert e.1 e.2) empty

/-! ## Answers -/

@[simp] theorem get?_empty (key : String) : (empty : Table α).get? key = none := rfl

private theorem lookup_cons (key : String) (value : α) (es : List (String × α)) (other : String) :
    ((key, value) :: es).lookup other = if other = key then some value else es.lookup other := by
  rw [List.lookup_cons]
  by_cases h : other = key
  · simp [h]
  · simp [h, beq_eq_false_iff_ne.2 h]

private theorem lookup_insertEntry (key : String) (value : α) (es : List (String × α))
    (other : String) : (insertEntry key value es).lookup other =
      if other = key then some value else es.lookup other := by
  induction es with
  | nil => simp [insertEntry, lookup_cons]
  | cons first rest ih =>
    obtain ⟨name, old⟩ := first
    simp only [insertEntry]
    split
    · simp only [lookup_cons]
    · split
      · next heq =>
        subst heq
        by_cases h : other = key <;> simp [lookup_cons, h]
      · next hne =>
        by_cases h : other = name
        · subst h
          simp [Ne.symm hne, lookup_cons other]
        · simp [lookup_cons, h, ih]

theorem get?_insert (t : Table α) (key : String) (value : α) (other : String) :
    (t.insert key value).get? other = if other = key then some value else t.get? other :=
  lookup_insertEntry key value t.entries other

private theorem lookup_filter_ne (key : String) (es : List (String × α)) (other : String) :
    (es.filter (·.1 ≠ key)).lookup other = if other = key then none else es.lookup other := by
  induction es with
  | nil => simp
  | cons first rest ih =>
    obtain ⟨name, old⟩ := first
    rw [List.filter_cons, lookup_cons]
    by_cases hn : name = key
    · subst hn
      by_cases ho : other = name <;> simpa [ho] using ih
    · by_cases ho : other = name
      · subst ho
        simp [hn]
      · simpa [hn, ho, lookup_cons] using ih

theorem get?_erase (t : Table α) (key other : String) :
    (t.erase key).get? other = if other = key then none else t.get? other :=
  lookup_filter_ne key t.entries other

/-! ## Lists of entries -/

private theorem get?_foldl_insert_of_not_mem {es : List (String × α)} {key : String}
    (h : key ∉ es.map Prod.fst) (t : Table α) :
    (es.foldl (fun t e => t.insert e.1 e.2) t).get? key = t.get? key := by
  induction es generalizing t with
  | nil => rfl
  | cons e es ih =>
    obtain ⟨hne, hrest⟩ := not_or.1 (mt List.mem_cons.2 h)
    rw [List.foldl_cons, ih hrest, get?_insert, if_neg hne]

/-- What no entry is about has no value. -/
theorem get?_ofList_of_not_mem {es : List (String × α)} {key : String}
    (h : key ∉ es.map Prod.fst) : (ofList es).get? key = none :=
  get?_foldl_insert_of_not_mem h empty

/-- The last entry for a text gives it its value. -/
theorem get?_ofList_of_last (before after : List (String × α)) {key : String} (value : α)
    (h : key ∉ after.map Prod.fst) :
    (ofList (before ++ (key, value) :: after)).get? key = some value := by
  rw [ofList, List.foldl_append, List.foldl_cons, get?_foldl_insert_of_not_mem h, get?_insert,
    if_pos rfl]

/-- Of the elements with a key there is a last one. -/
theorem exists_last_of_mem {β : Type v} {key : β → String} {xs : List β} {name : String}
    (h : name ∈ xs.map key) :
    ∃ before x after, xs = before ++ x :: after ∧ key x = name ∧ name ∉ after.map key := by
  induction xs with
  | nil => cases h
  | cons x xs ih =>
    by_cases hrest : name ∈ xs.map key
    · obtain ⟨before, last, after, rfl, hlast⟩ := ih hrest
      exact ⟨x :: before, last, after, rfl, hlast⟩
    · rw [List.map_cons, List.mem_cons] at h
      exact ⟨[], x, xs, rfl, (h.resolve_right hrest).symm, hrest⟩

end Table

end Interview

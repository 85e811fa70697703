import Interview.Json.Decode
import Interview.Proofs.Arrangement

/-!
# Decoding what has been written

The fields of a written object have distinct names. So each is found by its name, whatever stands
beside it, and decoded to what it was written from (`Json.Holds`); names of kinds are told apart in
the same way (`Json.IsNaming`). In the other direction, what a field is decoded to comes from some
value, or is the default.
-/

namespace Interview

/-! ## Lists -/

/-- What was written item by item is decoded item by item. -/
theorem mapM_map_eq_ok {ε α β : Type} {write : α → β} {decode : β → Except ε α} {xs : List α}
    (h : ∀ x ∈ xs, decode (write x) = .ok x) : (xs.map write).mapM decode = .ok xs := by
  induction xs with
  | nil => rfl
  | cons x xs ih =>
    rw [List.map_cons, List.mapM_cons, h x List.mem_cons_self,
      ih fun y hy => h y (List.mem_cons_of_mem x hy)]
    rfl

/-- What is decoded item by item comes from the items. -/
theorem exists_of_mapM_eq_ok {ε α β : Type} {decode : β → Except ε α} {ys : List β} {xs : List α}
    (h : ys.mapM decode = .ok xs) : ∀ x ∈ xs, ∃ y ∈ ys, decode y = .ok x := by
  induction ys generalizing xs with
  | nil =>
    obtain rfl : [] = xs := Except.ok.inj h
    exact fun x hx => nomatch hx
  | cons y ys ih =>
    rw [List.mapM_cons, bind_eq_ok] at h
    obtain ⟨x, hx, h⟩ := h
    obtain ⟨rest, hrest, h⟩ := bind_eq_ok.mp h
    obtain rfl := pure_eq_ok.mp h
    intro z hz
    rcases List.mem_cons.mp hz with rfl | hz
    · exact ⟨y, List.mem_cons_self, hx⟩
    · obtain ⟨w, hw, hdecode⟩ := ih hrest z hz
      exact ⟨w, List.mem_cons_of_mem y hw, hdecode⟩

/-- All items are decoded iff each of them is. -/
theorem exists_mapM_eq_ok {ε α β : Type} {decode : β → Except ε α} {ys : List β} :
    (∃ xs, ys.mapM decode = .ok xs) ↔ ∀ y ∈ ys, ∃ x, decode y = .ok x := by
  induction ys with
  | nil => exact ⟨fun _ y hy => (nomatch hy), fun _ => ⟨[], rfl⟩⟩
  | cons y ys ih =>
    rw [List.forall_mem_cons, ← ih]
    simp only [List.mapM_cons, bind_eq_ok, pure_eq_ok]
    constructor
    · rintro ⟨-, x, hx, xs, hxs, -⟩
      exact ⟨⟨x, hx⟩, ⟨xs, hxs⟩⟩
    · rintro ⟨⟨x, hx⟩, ⟨xs, hxs⟩⟩
      exact ⟨x :: xs, x, hx, xs, hxs, rfl⟩

/-- What decoding keeps of every item, it keeps of the list. -/
theorem map_eq_of_mapM_eq_ok {ε α β γ : Type} {decode : β → Except ε α} {key : α → γ}
    {written : β → γ} (hkey : ∀ y x, decode y = .ok x → key x = written y) {ys : List β}
    {xs : List α} (h : ys.mapM decode = .ok xs) : xs.map key = ys.map written := by
  induction ys generalizing xs with
  | nil =>
    obtain rfl : [] = xs := Except.ok.inj h
    rfl
  | cons y ys ih =>
    rw [List.mapM_cons, bind_eq_ok] at h
    obtain ⟨x, hx, h⟩ := h
    obtain ⟨rest, hrest, h⟩ := bind_eq_ok.mp h
    obtain rfl := pure_eq_ok.mp h
    rw [List.map_cons, List.map_cons, hkey y x hx, ih hrest]

section Entries

variable {ε α β : Type} {decode : β → Except ε (String × α)} {written : β → String} {ys : List β}
  {es : List (String × α)} {name : String}
  (hwritten : ∀ y e, decode y = .ok e → e.1 = written y) (h : ys.mapM decode = .ok es)
include hwritten h

/-- The last item that was written for a text gives it its value. -/
theorem exists_get?_ofList_of_last {before after : List β} {y : β}
    (hys : ys = before ++ y :: after) (hname : written y = name)
    (hafter : name ∉ after.map written) :
    ∃ v, decode y = .ok (name, v) ∧ (Table.ofList es).get? name = some v := by
  rw [hys, List.mapM_append, bind_eq_ok] at h
  obtain ⟨first, -, h⟩ := h
  obtain ⟨rest, hrest, h⟩ := bind_eq_ok.mp h
  obtain rfl := pure_eq_ok.mp h
  rw [List.mapM_cons, bind_eq_ok] at hrest
  obtain ⟨⟨key, v⟩, hy, hrest⟩ := hrest
  obtain ⟨last, hmapM, hrest⟩ := bind_eq_ok.mp hrest
  obtain rfl := pure_eq_ok.mp hrest
  obtain rfl : key = name := (hwritten y _ hy).trans hname
  rw [← map_eq_of_mapM_eq_ok hwritten hmapM] at hafter
  exact ⟨v, hy, Table.get?_ofList_of_last first last v hafter⟩

/-- In a table of decoded entries, a text has the value of the last item that was written for it. -/
theorem get?_ofList_of_mapM {value : α} :
    (Table.ofList es).get? name = some value ↔ ∃ before y after, ys = before ++ y :: after ∧
      name ∉ after.map written ∧ decode y = .ok (name, value) := by
  constructor
  · intro hget
    have hmem : name ∈ ys.map written := by
      rw [← map_eq_of_mapM_eq_ok hwritten h]
      by_contra habsent
      rw [Table.get?_ofList_of_not_mem habsent] at hget
      cases hget
    obtain ⟨before, y, after, hys, hname, hafter⟩ := Table.exists_last_of_mem hmem
    obtain ⟨v, hy, hv⟩ := exists_get?_ofList_of_last hwritten h hys hname hafter
    obtain rfl := Option.some.inj (hv.symm.trans hget)
    exact ⟨before, y, after, hys, hafter, hy⟩
  · rintro ⟨before, y, after, hys, hafter, hy⟩
    obtain ⟨v, hy', hv⟩ := exists_get?_ofList_of_last hwritten h hys (hwritten y _ hy).symm hafter
    obtain rfl := (Prod.mk.inj (Except.ok.inj (hy.symm.trans hy'))).2
    exact hv

/-- A text has a value in such a table iff an item was written for it. -/
theorem isSome_get?_ofList_of_mapM :
    ((Table.ofList es).get? name).isSome = true ↔ name ∈ ys.map written := by
  constructor
  · intro hsome
    obtain ⟨value, hget⟩ := Option.isSome_iff_exists.mp hsome
    obtain ⟨before, y, after, rfl, -, hy⟩ := (get?_ofList_of_mapM hwritten h).mp hget
    have hname : name = written y := hwritten y _ hy
    simp [hname]
  · intro hmem
    obtain ⟨before, y, after, hys, hname, hafter⟩ := Table.exists_last_of_mem hmem
    obtain ⟨v, -, hv⟩ := exists_get?_ofList_of_last hwritten h hys hname hafter
    rw [hv]
    rfl

end Entries

namespace Json

variable {α : Type} {name : String} {j : Json} {fields written : List (String × Json)}

/-! ## Values -/

theorem toOption_textOrNull (s : Option String) :
    toOption toText (textOrNull s) = .ok s := by
  cases s <;> rfl

theorem toOption_boolOrNull (b : Option Bool) :
    toOption toBool ((b.map bool).getD .null) = .ok b := by
  cases b <;> rfl

theorem toList_array {write : α → Json} {decode : Json → Decoded α} {xs : List α}
    (h : ∀ x ∈ xs, decode (write x) = .ok x) : toList decode (.array (xs.map write)) = .ok xs :=
  mapM_map_eq_ok h

theorem toList_texts (ss : List String) : toList toText (texts ss) = .ok ss :=
  toList_array fun _ _ => rfl

/-- What an array is decoded to comes from its items. -/
theorem exists_of_toList_eq_ok {decode : Json → Decoded α} {xs : List α}
    (h : toList decode j = .ok xs) : ∀ x ∈ xs, ∃ i, decode i = .ok x := by
  cases j with
  | array items =>
    intro x hx
    obtain ⟨i, -, hi⟩ := exists_of_mapM_eq_ok h x hx
    exact ⟨i, hi⟩
  | null | bool | number | string | object | unusable => cases h

theorem toText_eq_ok {s : String} : toText j = .ok s ↔ j = .string s := by
  cases j <;> simp [toText]

theorem fields_eq_ok : j.fields = .ok fields ↔ j = .object fields := by
  cases j <;> simp [Json.fields]

theorem toBool_eq_ok {b : Bool} : toBool j = .ok b ↔ j = .bool b := by
  cases j <;> simp [toBool]

theorem toOption_eq_none {value : Json → Decoded α} : toOption value j = .ok none ↔ j = .null := by
  unfold toOption
  split
  · simp
  · next hnull =>
    have hne : j ≠ .null := hnull
    simp [map_eq_ok, hne]

theorem toOption_eq_some {value : Json → Decoded α} {a : α} :
    toOption value j = .ok (some a) ↔ j ≠ .null ∧ value j = .ok a := by
  unfold toOption
  split
  · simp
  · next hnull =>
    have hne : j ≠ .null := hnull
    simp [map_eq_ok, hne]

/-! ## Usable values -/

theorem areUsable_eq (items : List Json) : areUsable items = items.all isUsable := by
  induction items with
  | nil => rfl
  | cons item rest ih => rw [areUsable, ih, List.all_cons]

theorem haveUsable_eq (fields : List (String × Json)) :
    haveUsable fields = fields.all (·.2.isUsable) := by
  induction fields with
  | nil => rfl
  | cons field rest ih => rw [haveUsable, ih, List.all_cons]

@[simp] theorem isUsable_array (items : List Json) :
    (array items).isUsable = items.all isUsable := by
  rw [isUsable, areUsable_eq]

@[simp] theorem isUsable_object (fields : List (String × Json)) :
    (object fields).isUsable = fields.all (·.2.isUsable) := by
  rw [isUsable, haveUsable_eq]

@[simp] theorem isUsable_string (s : String) : (string s).isUsable = true := by rw [isUsable]

@[simp] theorem isUsable_bool (b : Bool) : (bool b).isUsable = true := by rw [isUsable]

@[simp] theorem isUsable_textOrNull (s : Option String) : (textOrNull s).isUsable = true := by
  cases s <;> rfl

@[simp] theorem isUsable_boolOrNull (b : Option Bool) :
    ((b.map bool).getD .null).isUsable = true := by
  cases b <;> rfl

@[simp] theorem isUsable_texts (ss : List String) : (texts ss).isUsable = true := by
  simp [texts]

theorem kept_eq_ok (h : j.isUsable = true) : j.kept = .ok j :=
  if_pos h

/-! ## Names -/

/-- Some things are told apart by their names, and there are no others. -/
structure IsNaming (all : List α) (name : α → String) : Prop where
  distinct : (all.map name).Nodup
  complete : ∀ a, a ∈ all

namespace IsNaming

variable {all : List α} {name : α → String}

theorem ofName (h : IsNaming all name) (a : α) : Json.ofName all name (name a) = .ok a := by
  have hfind : all.find? (name · == name a) = some a :=
    find?_key_eq_some h.distinct (h.complete a)
  rw [Json.ofName, hfind]

theorem ofName_eq_ok (h : IsNaming all name) {s : String} {a : α} :
    Json.ofName all name s = .ok a ↔ name a = s := by
  constructor
  · intro hdecode
    unfold Json.ofName at hdecode
    split at hdecode
    · next b hfind =>
      obtain rfl := Except.ok.inj hdecode
      simpa using List.find?_some hfind
    · cases hdecode
  · rintro rfl
    exact h.ofName a

theorem toNamed (h : IsNaming all name) (a : α) :
    Json.toNamed all name (.string (name a)) = .ok a :=
  h.ofName a

theorem toKeptNamed (h : IsNaming all name) (a : α) :
    Json.toKeptNamed all name (.string (name a)) = .ok a :=
  h.ofName a

theorem toKind (h : IsNaming all name) (a : α) : Json.toKind all name (.string (name a)) = .ok a :=
  h.ofName a

theorem toKeptKind (h : IsNaming all name) (a : α) :
    Json.toKeptKind all name (.string (name a)) = .ok a :=
  h.ofName a

end IsNaming

/-! ## Written fields -/

/-- An object whose fields have distinct names holds some fields. -/
structure Holds (fields written : List (String × Json)) : Prop where
  distinct : (fields.map Prod.fst).Nodup
  holds : written ⊆ fields

namespace Holds

theorem refl (h : (fields.map Prod.fst).Nodup) : Holds fields fields :=
  ⟨h, List.Subset.refl fields⟩

theorem mono (h : Holds fields written) {part : List (String × Json)} (hpart : part ⊆ written) :
    Holds fields part :=
  ⟨h.distinct, fun _ hmem => h.holds (hpart hmem)⟩

theorem sole? (h : Holds fields written) (hmem : (name, j) ∈ written) :
    Json.sole? [name] fields = .ok (some j) := by
  obtain ⟨before, after, heq⟩ := List.append_of_mem (h.holds hmem)
  have hdistinct := h.distinct
  rw [heq, List.map_append, List.map_cons, List.nodup_append] at hdistinct
  obtain ⟨-, hafter, hbefore⟩ := hdistinct
  have hnone : before.filter ([name].contains ·.1) = [] :=
    List.filter_eq_nil_iff.mpr fun field hfield => by
      simpa using hbefore _ (List.mem_map_of_mem hfield) _ List.mem_cons_self
  have hnone' : after.filter ([name].contains ·.1) = [] :=
    List.filter_eq_nil_iff.mpr fun field hfield heq => by
      refine (List.nodup_cons.mp hafter).1 ?_
      have hname : field.1 = name := by simpa using heq
      exact List.mem_map.mpr ⟨field, hfield, hname⟩
  rw [Json.sole?, heq, List.filter_append, hnone, List.nil_append,
    List.filter_cons_of_pos (by simp), hnone']

theorem required (h : Holds fields written) (hmem : (name, j) ∈ written)
    (value : Json → Decoded α) : Json.required name value fields = value j := by
  rw [Json.required, h.sole? hmem]
  rfl

theorem optional (h : Holds fields written) (hmem : (name, j) ∈ written)
    (value : Json → Decoded α) : Json.optional name value fields = toOption value j := by
  rw [Json.optional, h.sole? hmem]
  rfl

theorem defaulted (h : Holds fields written) (hmem : (name, j) ∈ written)
    (value : Json → Decoded α) (default : α) :
    Json.defaulted name value default fields = value j := by
  rw [Json.defaulted, h.sole? hmem]
  rfl

theorem text (h : Holds fields written) {s : String} (hmem : (name, .string s) ∈ written) :
    Json.required name toText fields = .ok s :=
  h.required hmem toText

theorem optionalText (h : Holds fields written) {s : Option String}
    (hmem : (name, textOrNull s) ∈ written) : Json.optional name toText fields = .ok s :=
  (h.optional hmem toText).trans (toOption_textOrNull s)

theorem named (h : Holds fields written) {all : List α} {label : α → String}
    (hnaming : IsNaming all label) {a : α} (hmem : (name, .string (label a)) ∈ written) :
    Json.required name (toNamed all label) fields = .ok a :=
  (h.required hmem _).trans (hnaming.toNamed a)

theorem optionalNamed (h : Holds fields written) {all : List α} {label : α → String}
    (hnaming : IsNaming all label) {a : α} (hmem : (name, .string (label a)) ∈ written) :
    Json.optional name (toNamed all label) fields = .ok (some a) :=
  (h.optional hmem _).trans (congrArg (·.map some) (hnaming.toNamed a))

theorem flag (h : Holds fields written) {b : Bool} (hmem : (name, .bool b) ∈ written) :
    Json.flag name fields = .ok b :=
  h.defaulted hmem toBool false

end Holds

/-! ## Fields without doubles -/

theorem sole?_of_not_mem (h : name ∉ fields.map Prod.fst) : sole? [name] fields = .ok none := by
  have hnone : fields.filter ([name].contains ·.1) = [] :=
    List.filter_eq_nil_iff.mpr fun field hfield heq => by
      have hname : field.1 = name := by simpa using heq
      exact h (List.mem_map.mpr ⟨field, hfield, hname⟩)
  rw [sole?, hnone]

/-- Where a field could be looked up, it is written at most once. -/
theorem mem_iff_of_sole? {written : Option Json} (h : sole? [name] fields = .ok written) :
    (name, j) ∈ fields ↔ written = some j := by
  have hmem : (name, j) ∈ fields ↔ (name, j) ∈ fields.filter ([name].contains ·.1) := by
    simp
  rw [hmem]
  unfold sole? at h
  split at h
  · next hnone =>
    obtain rfl := Except.ok.inj h
    rw [hnone]
    simp
  · next field hone =>
    obtain rfl := Except.ok.inj h
    obtain ⟨other, i⟩ := field
    have hfield : (other, i) ∈ fields.filter ([name].contains ·.1) := hone ▸ List.mem_cons_self
    obtain rfl : other = name := by simpa using (List.mem_filter.mp hfield).2
    rw [hone]
    simp [eq_comm]
  · cases h

section Distinct

variable (hdistinct : (fields.map Prod.fst).Nodup)
include hdistinct

theorem required_eq_ok {value : Json → Decoded α} {a : α} :
    required name value fields = .ok a ↔ ∃ j, (name, j) ∈ fields ∧ value j = .ok a := by
  constructor
  · intro h
    by_cases hmem : name ∈ fields.map Prod.fst
    · obtain ⟨⟨_, j⟩, hj, rfl⟩ := List.mem_map.mp hmem
      rw [(Holds.refl hdistinct).required hj] at h
      exact ⟨j, hj, h⟩
    · rw [required, sole?_of_not_mem hmem] at h
      cases h
  · rintro ⟨j, hj, h⟩
    rw [(Holds.refl hdistinct).required hj, h]

theorem optional_eq_ok {value : Json → Decoded α} {o : Option α} :
    optional name value fields = .ok o ↔ (name ∉ fields.map Prod.fst ∧ o = none) ∨
      ∃ j, (name, j) ∈ fields ∧ toOption value j = .ok o := by
  by_cases hmem : name ∈ fields.map Prod.fst
  · obtain ⟨⟨_, j⟩, hj, rfl⟩ := List.mem_map.mp hmem
    rw [(Holds.refl hdistinct).optional hj]
    constructor
    · intro h
      exact .inr ⟨j, hj, h⟩
    · rintro (⟨habsent, -⟩ | ⟨i, hi, h⟩)
      · exact absurd hmem habsent
      · obtain rfl := (Prod.mk.inj (List.inj_on_of_nodup_map hdistinct hi hj rfl)).2
        exact h
  · rw [optional, sole?_of_not_mem hmem]
    constructor
    · intro h
      exact .inl ⟨hmem, (Except.ok.inj h).symm⟩
    · rintro (⟨-, rfl⟩ | ⟨j, hj, -⟩)
      · rfl
      · exact absurd (List.mem_map_of_mem hj) hmem

end Distinct

/-! ## Where decoded values come from -/

/-- A required field that has been decoded is written, and only once. -/
theorem written_of_required {value : Json → Decoded α} {a : α}
    (h : required name value fields = .ok a) :
    ∃ j, (∀ i, (name, i) ∈ fields ↔ i = j) ∧ value j = .ok a := by
  obtain ⟨written, hsole, h⟩ := bind_eq_ok.mp h
  cases written with
  | none => cases h
  | some j => exact ⟨j, fun i => (mem_iff_of_sole? hsole).trans (by simp [eq_comm]), h⟩

/-- An optional field that has been decoded is absent, or written only once. -/
theorem written_of_optional {value : Json → Decoded α} {o : Option α}
    (h : optional name value fields = .ok o) : (o = none ∧ ∀ i, (name, i) ∉ fields) ∨
      ∃ j, (∀ i, (name, i) ∈ fields ↔ i = j) ∧ toOption value j = .ok o := by
  obtain ⟨written, hsole, h⟩ := bind_eq_ok.mp h
  cases written with
  | none =>
    refine .inl ⟨(Except.ok.inj h).symm, fun i hi => ?_⟩
    cases (mem_iff_of_sole? hsole).mp hi
  | some j => exact .inr ⟨j, fun i => (mem_iff_of_sole? hsole).trans (by simp [eq_comm]), h⟩

theorem exists_of_required {value : Json → Decoded α} {a : α}
    (h : required name value fields = .ok a) : ∃ j, value j = .ok a := by
  obtain ⟨j, -, hj⟩ := written_of_required h
  exact ⟨j, hj⟩

theorem exists_of_optional {value : Json → Decoded α} {a : α}
    (h : optional name value fields = .ok (some a)) : ∃ j, value j = .ok a := by
  rcases written_of_optional h with ⟨hnone, -⟩ | ⟨j, -, hj⟩
  · cases hnone
  · exact ⟨j, (toOption_eq_some.mp hj).2⟩

theorem exists_of_defaulted {value : Json → Decoded α} {default a : α}
    (h : defaulted name value default fields = .ok a) : a = default ∨ ∃ j, value j = .ok a := by
  obtain ⟨written, -, h⟩ := bind_eq_ok.mp h
  cases written with
  | none => exact .inl (Except.ok.inj h).symm
  | some j => exact .inr ⟨j, h⟩

end Json

end Interview

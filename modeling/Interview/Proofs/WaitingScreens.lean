import Interview.Proofs.Routing

/-!
# Screens that wait for an answer

A screen waits if it can be shown and a fact is open that the filer has to answer there, or that
leaving the screen sets (`Screen.WaitsAt`). What the filer has to answer is said element by element
(`Screen.AsksFor`). A search for a screen to go on with ends at the first one that waits
(`Screen.firstUnanswered_eq_some_iff`).
-/

namespace Interview

variable {ctx : Context} {facts : String → Fact} {item : Option String}

/-! ## First elements -/

section

variable {α β : Type} {P : α → Prop} {xs : List α} {x : α}

/-- An element of a list is the first one with a property. -/
def IsFirst (P : α → Prop) (xs : List α) (x : α) : Prop :=
  ∃ before after, xs = before ++ x :: after ∧ P x ∧ ∀ y ∈ before, ¬ P y

theorem IsFirst.mem (h : IsFirst P xs x) : x ∈ xs := by
  obtain ⟨before, after, rfl, -⟩ := h
  exact List.mem_append_right before List.mem_cons_self

theorem IsFirst.prop (h : IsFirst P xs x) : P x := by
  obtain ⟨-, -, -, hx, -⟩ := h
  exact hx

theorem find?_eq_some_iff_isFirst {p : α → Bool} (hp : ∀ y, p y = true ↔ P y) :
    xs.find? p = some x ↔ IsFirst P xs x := by
  rw [List.find?_eq_some_iff_append]
  constructor
  · rintro ⟨hx, before, after, heq, hbefore⟩
    refine ⟨before, after, heq, (hp x).mp hx, fun y hy hPy => ?_⟩
    have hnot := hbefore y hy
    rw [(hp y).mpr hPy] at hnot
    cases hnot
  · rintro ⟨before, after, heq, hx, hbefore⟩
    refine ⟨(hp x).mpr hx, before, after, heq, fun y hy => ?_⟩
    cases hpy : p y with
    | false => rfl
    | true => exact absurd ((hp y).mp hpy) (hbefore y hy)

/-- A search for a result takes that of the first element with one. -/
theorem findSome?_eq_some_iff_isFirst {g : α → Option β} {b : β}
    (hg : ∀ y, (g y).isSome = true ↔ P y) :
    xs.findSome? g = some b ↔ ∃ x, IsFirst P xs x ∧ g x = some b := by
  rw [List.findSome?_eq_some_iff]
  constructor
  · rintro ⟨before, x, after, heq, hx, hbefore⟩
    refine ⟨x, ⟨before, after, heq, (hg x).mp (by rw [hx]; rfl), fun y hy hPy => ?_⟩, hx⟩
    have hsome := (hg y).mpr hPy
    rw [hbefore y hy] at hsome
    cases hsome
  · rintro ⟨x, ⟨before, after, heq, -, hbefore⟩, hx⟩
    refine ⟨before, x, after, heq, hx, fun y hy => ?_⟩
    rw [← Option.not_isSome_iff_eq_none]
    exact fun hsome => hbefore y hy ((hg y).mp hsome)

theorem exists_isFirst (h : ∃ x ∈ xs, P x) : ∃ x, IsFirst P xs x := by
  classical
  have hsome : (xs.find? fun y => decide (P y)).isSome = true := by
    simpa [List.find?_isSome] using h
  obtain ⟨x, hx⟩ := Option.isSome_iff_exists.mp hsome
  exact ⟨x, (find?_eq_some_iff_isFirst fun _ => decide_eq_true_iff).mp hx⟩

end

/-! ## Screens that wait -/

/-- The fact at a path is complete in the context of an item. -/
def IsCompleteAt (facts : String → Fact) (item : Option String) (path : String) : Prop :=
  ∃ concrete, Path.resolve path item = some concrete ∧ (facts concrete).complete = true

namespace Screen

variable {x : Screen} {path : String}

/-- The filer has to answer the fact at a path on a screen: there is a field for it that is shown
while editing, can be written and does not just pick an item, and the answer is not optional. -/
inductive AsksFor (ctx : Context) (facts : String → Fact) (item : Option String) (x : Screen)
    (path : String) : Prop where
  | field {e : Element} {kind : FieldKind} {onlyOn : Option Rendering} (mem : e ∈ x.content)
      (shown : (Condition.allHold ctx item e.conditions).run facts = true)
      (content : e.content = .field path kind false onlyOn) (input : kind ≠ .select)
      (edited : onlyOn ≠ some .dataView) (mandatory : ctx.settings.isOptional path = false)

/-- Leaving a screen sets the fact at a path. -/
inductive Sets (ctx : Context) (facts : String → Fact) (item : Option String) (x : Screen)
    (path : String) : Prop where
  | setFact {e : Element} {source : String} (mem : e ∈ x.content)
      (shown : (Condition.allHold ctx item e.conditions).run facts = true)
      (content : e.content = .setFact path source)

/-- A screen can be shown and waits: a fact that the filer has to answer there, or that it sets, is
not complete. -/
structure WaitsAt (ctx : Context) (facts : String → Fact) (item : Option String) (x : Screen) :
    Prop where
  available : x.availableAt ctx facts item = true
  lacks : ∃ path, (x.AsksFor ctx facts item path ∨ x.Sets ctx facts item path) ∧
    ¬ IsCompleteAt facts item path

/-- A screen manages the items of a collection. -/
def IsManager (x : Screen) : Prop :=
  ∃ e ∈ x.content, ∃ path loop, e.content = .collectionManager path loop

theorem isManager_iff : x.content.any (·.content.managesCollection) = true ↔ x.IsManager := by
  rw [List.any_eq_true]
  refine exists_congr fun e => and_congr_right fun _ => ?_
  cases e.content <;> simp [Content.managesCollection]

theorem requiredPath_eq_some {c : Content} : c.requiredPath = some path ↔
    ∃ kind onlyOn, c = .field path kind false onlyOn ∧ kind ≠ .select ∧
      onlyOn ≠ some .dataView := by
  cases c with
  | field path' kind readOnly onlyOn =>
    cases readOnly <;> simp [Content.requiredPath, and_comm, and_assoc]
  | heading | info | setFact | taxReturnAlert | rejectionAlert | collectionManager
  | collectionPreview | saveAndContinue | setFactAndContinue | exit | submit | knockout | link
  | dataViewLink => simp [Content.requiredPath]

theorem mem_requiredPaths :
    path ∈ (x.requiredPaths ctx item).run facts ↔ x.AsksFor ctx facts item path := by
  simp only [requiredPaths, Reading.run_bind, Reading.run_filterM, Reading.run_pure,
    List.mem_filter, List.mem_filterMap, requiredPath_eq_some, Bool.not_eq_true']
  constructor
  · rintro ⟨⟨e, ⟨hmem, hshown⟩, kind, onlyOn, hcontent, hkind, hrendering⟩, hmandatory⟩
    exact .field hmem hshown hcontent hkind hrendering hmandatory
  · rintro ⟨hmem, hshown, hcontent, hkind, hrendering, hmandatory⟩
    exact ⟨⟨_, ⟨hmem, hshown⟩, _, _, hcontent, hkind, hrendering⟩, hmandatory⟩

theorem run_isAnswered : (isAnswered item path).run facts = true ↔
    IsCompleteAt facts item path := by
  simp [isAnswered, IsCompleteAt, Option.any_eq_true]

theorem run_setsOpenFact : (x.setsOpenFact ctx item).run facts = true ↔
    ∃ path, x.Sets ctx facts item path ∧ ¬ IsCompleteAt facts item path := by
  simp only [setsOpenFact, Reading.run_anyM, List.any_eq_true]
  constructor
  · rintro ⟨e, hmem, hopen⟩
    cases hcontent : e.content with
    | setFact path source =>
      simp only [hcontent, Content.setPath, Reading.run_bind, Reading.run_ite,
        Reading.run_pure] at hopen
      split at hopen
      · next hshown =>
        refine ⟨path, .setFact hmem hshown hcontent, fun hcomplete => ?_⟩
        rw [run_isAnswered.mpr hcomplete] at hopen
        cases hopen
      · cases hopen
    | _ => simp [hcontent, Content.setPath] at hopen
  · rintro ⟨path, ⟨hmem, hshown, hcontent⟩, hopen⟩
    refine ⟨_, hmem, ?_⟩
    have hanswered : (isAnswered item path).run facts = false :=
      Bool.eq_false_iff.mpr fun h => hopen (run_isAnswered.mp h)
    simp [hcontent, Content.setPath, hshown, hanswered]

theorem run_isUnanswered : (x.isUnanswered ctx item).run facts = true ↔
    ∃ path, (x.AsksFor ctx facts item path ∨ x.Sets ctx facts item path) ∧
      ¬ IsCompleteAt facts item path := by
  have hfields : ((x.requiredPaths ctx item).run facts).any
      (fun path => !(isAnswered item path).run facts) = true ↔
      ∃ path, x.AsksFor ctx facts item path ∧ ¬ IsCompleteAt facts item path := by
    simp only [List.any_eq_true, mem_requiredPaths, Bool.not_eq_true', Bool.eq_false_iff, ne_eq,
      run_isAnswered]
  simp only [isUnanswered, Reading.run_bind, Reading.run_anyM, Reading.run_pure, Reading.run_ite,
    or_and_right, exists_or, ← hfields, ← run_setsOpenFact]
  split
  · next h => simp [h]
  · next h => simp [h]

variable {xs : List Screen}

theorem run_firstUnanswered : (firstUnanswered ctx item xs).run facts =
    xs.find? fun x => x.availableAt ctx facts item && (x.isUnanswered ctx item).run facts := by
  rw [firstUnanswered, Reading.run_findM?]
  congr 1
  funext x
  cases h : x.availableAt ctx facts item <;> simp [h]

theorem waitsAt_iff :
    (x.availableAt ctx facts item && (x.isUnanswered ctx item).run facts) = true ↔
      x.WaitsAt ctx facts item := by
  rw [Bool.and_eq_true_iff, run_isUnanswered]
  exact ⟨fun ⟨havail, hlacks⟩ => ⟨havail, hlacks⟩, fun h => ⟨h.available, h.lacks⟩⟩

theorem firstUnanswered_eq_some_iff : (firstUnanswered ctx item xs).run facts = some x ↔
    IsFirst (·.WaitsAt ctx facts item) xs x := by
  rw [run_firstUnanswered]
  exact find?_eq_some_iff_isFirst fun _ => waitsAt_iff

theorem isSome_firstUnanswered_iff : ((firstUnanswered ctx item xs).run facts).isSome = true ↔
    ∃ x ∈ xs, x.WaitsAt ctx facts item := by
  rw [run_firstUnanswered, List.find?_isSome]
  exact exists_congr fun _ => and_congr_right fun _ => waitsAt_iff

end Screen

end Interview

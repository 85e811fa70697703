import Interview.Proofs.DateText
import Interview.Proofs.WrittenConditions
import Mathlib.Data.List.Induction

/-!
# Written parts of outlines

Batches, the elements of screens, and what is declared about a node are written as objects with one
field for each of their data, also for those that a document may leave out. So each of them is
decoded from what is written for it. For the data of a node, this holds of every object that has
the fields, because the kind of the node and the nodes below it stand among them.
-/

namespace Interview

/-! ## Tables -/

namespace Table

variable {α : Type} {key : String} {value : α} {es : List (String × α)}

/-- An entry past all others goes to the end. -/
theorem insertEntry_of_lt (h : ∀ e ∈ es, e.1 < key) :
    insertEntry key value es = es ++ [(key, value)] := by
  induction es with
  | nil => rfl
  | cons first rest ih =>
    have hlt := h first List.mem_cons_self
    have hne : key ≠ first.1 := fun heq => String.lt_irrefl key (heq ▸ hlt)
    rw [insertEntry, if_neg (String.lt_asymm hlt), if_neg hne,
      ih fun e he => h e (List.mem_cons_of_mem first he), List.cons_append]

theorem entries_ofList (h : es.Pairwise (·.1 < ·.1)) : (ofList es).entries = es := by
  -- from the end, as the last entry is the one that is added last
  induction es using List.reverseRecOn with
  | nil => rfl
  | append_singleton es e ih =>
    obtain ⟨hes, -, hlt⟩ := List.pairwise_append.mp h
    have hlast : ofList (es ++ [e]) = (ofList es).insert e.1 e.2 := by
      simp [ofList, List.foldl_append]
    rw [hlast]
    show insertEntry e.1 e.2 (ofList es).entries = _
    rw [ih hes, insertEntry_of_lt fun d hd => hlt d hd e List.mem_cons_self]

theorem ofList_entries (t : Table α) : ofList t.entries = t := by
  have hentries := entries_ofList t.ascending
  generalize ofList t.entries = s at hentries
  cases s
  cases t
  cases hentries
  rfl

end Table

/-! ## Batches -/

namespace Batch

theorem Status.isNaming : Json.IsNaming all label :=
  ⟨by decide, fun status => by cases status <;> decide⟩

theorem Purpose.isNaming : Json.IsNaming all label :=
  ⟨by decide, fun purpose => by cases purpose <;> decide⟩

theorem dateOfJson_dateToJson (date : Option Calendar.Date) :
    dateOfJson (dateToJson date) = .ok date := by
  cases date with
  | none => rfl
  | some d =>
    show dateOfJson (.string d.toText) = _
    simp [dateOfJson, d.isAllBlank_toText, d.ofText?_toText]

theorem HistoryEntry.ofJson_toJson (e : HistoryEntry) : ofJson e.toJson = .ok e := by
  have hf : Json.Holds [("status", .string e.status.label), ("completed", dateToJson e.completed)]
    _ := .refl (by simp)
  simp only [ofJson, bind_eq_ok, pure_eq_ok]
  exact ⟨_, rfl, e.status, hf.named Status.isNaming (by simp), e.completed,
    (hf.defaulted (by simp) _ _).trans (dateOfJson_dateToJson e.completed), rfl⟩

theorem ofJson_toJson (b : Batch) : ofJson b.toJson = .ok b := by
  have hf : Json.Holds [("type", .string b.purpose.label), ("status", .string b.status.label),
    ("started", dateToJson b.started), ("history", .array (b.history.map HistoryEntry.toJson))]
    _ := .refl (by simp)
  have hhistory : Json.toList HistoryEntry.ofJson (.array (b.history.map HistoryEntry.toJson)) =
      .ok b.history := Json.toList_array fun e _ => e.ofJson_toJson
  simp only [ofJson, bind_eq_ok, pure_eq_ok]
  exact ⟨_, rfl, b.purpose, (hf.defaulted (by simp) _ _).trans (Purpose.isNaming.toNamed b.purpose),
    b.status, hf.named Status.isNaming (by simp),
    b.started, (hf.defaulted (by simp) _ _).trans (dateOfJson_dateToJson b.started),
    b.history, (hf.defaulted (by simp) _ _).trans hhistory, rfl⟩

/-- **A registry of batches is decoded from what is written for it.** -/
theorem Registry.ofJson_toJson (r : Registry) : Registry.ofJson (Registry.toJson r) = .ok r := by
  have hbatch (e : String × Batch) : (do
      let batch ← Batch.ofJson e.2.toJson
      return (e.1, batch) : Json.Decoded (String × Batch)) = .ok e := by
    rw [e.2.ofJson_toJson]
    rfl
  simp only [Registry.ofJson, bind_eq_ok, pure_eq_ok]
  exact ⟨_, rfl, r.entries, mapM_map_eq_ok fun e _ => hbatch e, r.ofList_entries.symm⟩

end Batch

/-! ## Content -/

theorem AlertKind.isNaming : Json.IsNaming all name :=
  ⟨by decide, fun kind => by cases kind <;> decide⟩

theorem FieldKind.isNaming : Json.IsNaming all name :=
  ⟨by decide, fun kind => by cases kind <;> decide⟩

theorem Rendering.isNaming : Json.IsNaming all name :=
  ⟨by decide, fun rendering => by cases rendering <;> decide⟩

namespace Content

variable {content : Content} {fields : List (String × Json)}

theorem Kind.isNaming : Json.IsNaming all name :=
  ⟨by decide, fun kind => by cases kind <;> simp [all]⟩

theorem alertKind_eq_ok {kind : AlertKind} {written : List (String × Json)}
    (hf : Json.Holds fields written) (hmem : ("alert_type", .string kind.name) ∈ written) :
    alertKind fields = .ok kind :=
  (hf.required hmem _).trans (AlertKind.isNaming.toKeptNamed kind)

theorem alertPaths_eq_ok {paths : List String} {written : List (String × Json)}
    (hf : Json.Holds fields written) (hmem : ("fact_paths", Json.texts paths) ∈ written) :
    alertPaths fields = .ok paths :=
  (hf.defaulted hmem _ _).trans (Json.toList_texts paths)

/-- The fields of a content stand in any object of its type. -/
theorem ofFields_of_holds (hf : Json.Holds fields content.toFields) :
    ofFields content.kind fields = .ok content := by
  cases content with
  | heading key | info key =>
    simp only [kind, ofFields, bind_eq_ok, pure_eq_ok]
    exact ⟨key, hf.text (by simp [toFields]), rfl⟩
  | field path kind readOnly onlyOn =>
    have hkind : Json.required "kind" (Json.toKeptNamed FieldKind.all (·.name)) fields = .ok kind :=
      (hf.required (by simp [toFields]) _).trans (FieldKind.isNaming.toKeptNamed kind)
    have honlyOn : Json.toOption (Json.toKeptNamed Rendering.all (·.name))
        (Json.textOrNull (onlyOn.map Rendering.name)) = .ok onlyOn := by
      cases onlyOn with
      | none => rfl
      | some rendering => exact congrArg (·.map some) (Rendering.isNaming.toKeptNamed rendering)
    simp only [Content.kind, ofFields, bind_eq_ok, pure_eq_ok]
    exact ⟨path, hf.text (by simp [toFields]), kind, hkind, readOnly, hf.flag (by simp [toFields]),
      onlyOn, (hf.optional (by simp [toFields]) _).trans honlyOn, rfl⟩
  | setFact path source =>
    simp only [kind, ofFields, bind_eq_ok, pure_eq_ok]
    exact ⟨path, hf.text (by simp [toFields]), source, hf.text (by simp [toFields]), rfl⟩
  | taxReturnAlert kind key paths =>
    simp only [Content.kind, ofFields, bind_eq_ok, pure_eq_ok]
    exact ⟨kind, alertKind_eq_ok hf (by simp [toFields]), key, hf.text (by simp [toFields]),
      paths, alertPaths_eq_ok hf (by simp [toFields]), rfl⟩
  | rejectionAlert kind key code paths =>
    simp only [Content.kind, ofFields, bind_eq_ok, pure_eq_ok]
    exact ⟨kind, alertKind_eq_ok hf (by simp [toFields]), key, hf.text (by simp [toFields]),
      code, hf.text (by simp [toFields]), paths, alertPaths_eq_ok hf (by simp [toFields]), rfl⟩
  | collectionManager path loop =>
    simp only [kind, ofFields, bind_eq_ok, pure_eq_ok]
    exact ⟨path, hf.text (by simp [toFields]), loop, hf.optionalText (by simp [toFields]), rfl⟩
  | link route | dataViewLink route =>
    simp only [kind, ofFields, bind_eq_ok, pure_eq_ok]
    exact ⟨route, hf.text (by simp [toFields]), rfl⟩
  | collectionPreview | saveAndContinue | setFactAndContinue | exit | submit | knockout => rfl

end Content

namespace Element

@[simp] theorem isUsable_toJson (e : Element) : e.toJson.isUsable = true := by
  obtain ⟨content, conditions, batches⟩ := e
  cases content <;> simp [toJson, Content.toFields]

/-- **An element is decoded from what is written for it.** -/
theorem ofJson_toJson {e : Element} (habs : ∀ c ∈ e.conditions, c.IsAbsolute) :
    ofJson e.toJson = .ok e := by
  have hf : Json.Holds (("type", .string e.content.kind.name) :: e.content.toFields
      ++ [("conditions", Condition.toJsonAll e.conditions), ("batches", Json.texts e.batches)]) _ :=
    .refl (by cases e.content <;> simp [Content.toFields])
  have hpart : e.content.toFields ⊆ ("type", .string e.content.kind.name) :: e.content.toFields
      ++ [("conditions", Condition.toJsonAll e.conditions), ("batches", Json.texts e.batches)] :=
    fun field hfield => by simp [hfield]
  have hkind : Json.required "type" (Json.toKeptKind Content.Kind.all (·.name)) _ =
    .ok e.content.kind := (hf.required (by simp) _).trans (Content.Kind.isNaming.toKeptKind _)
  simp only [ofJson, bind_eq_ok, pure_eq_ok]
  exact ⟨_, Json.kept_eq_ok e.isUsable_toJson, _, rfl, e.conditions,
    hf.conditions habs (by simp), e.batches,
    (hf.defaulted (by simp) _ _).trans (Json.toList_texts e.batches), e.content.kind, hkind,
    e.content, Content.ofFields_of_holds (hf.mono hpart), rfl⟩

end Element

/-! ## What is declared about nodes -/

section Heads

variable {fields : List (String × Json)}

theorem SubcategoryHead.ofFields_of_holds {h : SubcategoryHead}
    (hf : Json.Holds fields h.toFields) (habs : ∀ c ∈ h.conditions, c.IsAbsolute) :
    ofFields fields = .ok h := by
  obtain ⟨hcomplete, hdisplay⟩ := List.forall_mem_append.mp habs
  simp only [ofFields, bind_eq_ok, pure_eq_ok]
  exact ⟨h.route, hf.text (by simp [toFields]),
    h.completeIf, hf.conditions hcomplete (by simp [toFields]),
    h.displayOnlyIf, hf.conditions hdisplay (by simp [toFields]),
    h.skipsDataView, hf.flag (by simp [toFields]),
    h.signsAndSubmits, hf.flag (by simp [toFields]),
    h.locksOnUnfinishedItems, hf.flag (by simp [toFields]),
    h.collection, hf.optionalText (by simp [toFields]), rfl⟩

theorem LoopHead.ofFields_of_holds {h : LoopHead} (hf : Json.Holds fields h.toFields)
    (habs : ∀ c ∈ h.conditions, c.IsAbsolute) : ofFields fields = .ok h := by
  simp only [ofFields, bind_eq_ok, pure_eq_ok]
  exact ⟨h.name, hf.text (by simp [toFields]),
    h.collection, hf.optionalText (by simp [toFields]),
    h.autoIterates, hf.flag (by simp [toFields]),
    h.isInner, hf.flag (by simp [toFields]),
    h.itemCompleteIf, hf.optionalCondition habs (by simp [toFields]),
    h.donePath, hf.optionalText (by simp [toFields]),
    h.knockoutRoute, hf.optionalText (by simp [toFields]), rfl⟩

theorem ScreenHead.ofFields_of_holds {h : ScreenHead} (hf : Json.Holds fields h.toFields)
    (habs : ∀ c ∈ h.conditions, c.IsAbsolute) : ofFields fields = .ok h := by
  obtain ⟨hcondition, helements⟩ := List.forall_mem_append.mp habs
  have hcontent : Json.toList Element.ofJson (.array (h.content.map Element.toJson)) =
      .ok h.content :=
    Json.toList_array fun e he => Element.ofJson_toJson fun c hc =>
      helements c (List.mem_flatMap.mpr ⟨e, he, hc⟩)
  simp only [ofFields, bind_eq_ok, pure_eq_ok]
  exact ⟨h.route, hf.text (by simp [toFields]),
    h.condition, hf.optionalCondition hcondition (by simp [toFields]),
    h.routesAutomatically,
    (hf.optional (by simp [toFields]) _).trans (Json.toOption_boolOrNull h.routesAutomatically),
    h.isKnockout, hf.flag (by simp [toFields]),
    h.actsAsDataView, hf.flag (by simp [toFields]),
    h.overridesRoute, hf.flag (by simp [toFields]),
    h.content, (hf.required (by simp [toFields]) _).trans hcontent, rfl⟩

theorem AssertionHead.ofFields_of_holds {h : AssertionHead} (hf : Json.Holds fields h.toFields)
    (habs : ∀ c ∈ h.conditions, c.IsAbsolute) : ofFields fields = .ok h := by
  simp only [ofFields, bind_eq_ok, pure_eq_ok]
  exact ⟨h.kind, (hf.required (by simp [toFields]) _).trans (AlertKind.isNaming.toKeptNamed h.kind),
    h.key, hf.text (by simp [toFields]),
    h.conditions, hf.conditions habs (by simp [toFields]),
    h.editRoute, hf.optionalText (by simp [toFields]), rfl⟩

end Heads

end Interview

import Interview.Proofs.AbsolutePaths

/-!
# Written conditions

The forms of a condition are tried one after the other, and a text or an object with an operator may
stand for a fact or for something else. What is written for a condition is decoded to it all the
same (`Condition.decode_toJson`): only a fact whose path is not absolute would be taken for another
condition, or for none.
-/

namespace Interview

theorem Operator.isNaming : Json.IsNaming all label :=
  ⟨by decide, fun op => by cases op <;> decide⟩

theorem Import.Question.isNaming : Json.IsNaming all label :=
  ⟨by decide, fun question => by cases question <;> decide⟩

theorem Import.Operator.isNaming : Json.IsNaming all label :=
  ⟨by decide, fun op => by cases op <;> decide⟩

namespace Condition

variable {c : Condition} {cs : List Condition} {name path : String}

/-! ## Forms -/

theorem ne_of_absolute (hpath : path.toList.head? = some '/')
    (hname : name.toList.head? ≠ some '/') : path ≠ name := by
  rintro rfl
  exact hname hpath

theorem ofName_of_absolute (hpath : path.toList.head? = some '/') (op : Option Operator) :
    ofName path op = .ok (fact path (op.getD .default)) := by
  have hexperimental : path ≠ experimentalName := ne_of_absolute hpath (by decide)
  have hsubmission : path ≠ submissionName := ne_of_absolute hpath (by decide)
  have hsigning : path ≠ signingName := ne_of_absolute hpath (by decide)
  simp only [ofName, if_neg hexperimental, if_neg hsubmission, if_neg hsigning, if_pos hpath]

section WithOperator

variable {op : Operator} {fields : List (String × Json)}

/-- A name with an operator is not taken for a condition on imported data. -/
theorem importForm_of_holds (hname : name ≠ importName)
    (hf : Json.Holds fields [("operator", .string op.label), ("condition", .string name)]) :
    importForm fields = .error (.unknownName name) := by
  have hmark : Json.toNamed [()] (fun _ => importName) (.string name) =
      .error (.unknownName name) := by
    simp [Json.toNamed, Json.toNamedBy, Json.ofName, hname.symm]
  rw [importForm, hf.required (List.mem_cons_of_mem _ List.mem_cons_self), hmark]
  rfl

theorem operatorForm_of_holds
    (hf : Json.Holds fields [("operator", .string op.label), ("condition", .string name)]) :
    operatorForm fields = .ok (name, some op) := by
  simp only [operatorForm, bind_eq_ok, pure_eq_ok]
  exact ⟨some op, hf.optionalNamed Operator.isNaming (by simp), name, hf.text (by simp), rfl⟩

theorem ofJson_withOperator (hname : name ≠ importName) :
    ofJson (withOperator name op) = ofName name (some op) := by
  have hf : Json.Holds [("operator", .string op.label), ("condition", .string name)] _ :=
    .refl (by simp)
  rw [withOperator, ofJson, importForm_of_holds hname hf, operatorForm_of_holds hf]

end WithOperator

theorem ofJson_imported (question : Import.Question) (op : Import.Operator) :
    ofJson (imported question op).toJson = .ok (imported question op) := by
  have hf : Json.Holds [("condition", .string importName), ("section", .string question.label),
    ("operator", .string op.label)] _ := .refl (by simp)
  have hform : importForm [("condition", .string importName), ("section", .string question.label),
      ("operator", .string op.label)] = .ok (imported question op) := by
    simp only [importForm, bind_eq_ok, pure_eq_ok]
    exact ⟨(), hf.required List.mem_cons_self _,
      question, hf.named Import.Question.isNaming (by simp),
      some op, hf.optionalNamed Import.Operator.isNaming (by simp), rfl⟩
  rw [toJson, ofJson, hform]

/-! ## Conditions -/

theorem ofJson_toJson (habs : c.IsAbsolute) : ofJson c.toJson = .ok c := by
  cases c with
  | fact path op =>
    rw [toJson.eq_1]
    split
    · -- the operator that is left out is the one that its absence stands for
      next htrue =>
      rw [htrue]
      exact ofName_of_absolute habs none
    · rw [ofJson_withOperator (ne_of_absolute habs (by decide)), ofName_of_absolute habs]
      rfl
  | experimental => rfl
  | nothingBlocksSubmission => rfl
  | signingPath op => exact ofJson_withOperator (by decide)
  | imported question op => exact ofJson_imported question op

@[simp] theorem isUsable_toJson (c : Condition) : c.toJson.isUsable = true := by
  cases c with
  | fact path op =>
    rw [toJson]
    split <;> simp [withOperator]
  | experimental | nothingBlocksSubmission | signingPath | imported =>
    simp [toJson, withOperator]

@[simp] theorem isUsable_toJsonAll (cs : List Condition) : (toJsonAll cs).isUsable = true := by
  simp [toJsonAll]

/-- **A condition is decoded from what is written for it.** -/
theorem decode_toJson (habs : c.IsAbsolute) : decode c.toJson = .ok c :=
  bind_eq_ok.mpr
    ⟨c.toJson, Json.kept_eq_ok c.isUsable_toJson, mapError_eq_ok.mpr (ofJson_toJson habs)⟩

theorem decodeAll_toJsonAll (habs : ∀ c ∈ cs, c.IsAbsolute) : decodeAll (toJsonAll cs) = .ok cs :=
  mapM_map_eq_ok fun c hc => decode_toJson (habs c hc)

theorem toJson_ne_null (c : Condition) : c.toJson ≠ .null := by
  cases c with
  | fact path op =>
    rw [toJson]
    split <;> nofun
  | experimental | nothingBlocksSubmission | signingPath | imported => nofun

@[simp] theorem isUsable_orNull (condition : Option Condition) :
    (orNull condition).isUsable = true := by
  cases condition with
  | none => rfl
  | some c => exact c.isUsable_toJson

theorem toOption_orNull {condition : Option Condition}
    (habs : ∀ c ∈ condition.toList, c.IsAbsolute) :
    Json.toOption decode (orNull condition) = .ok condition := by
  cases condition with
  | none => rfl
  | some c =>
    have hsome : Json.toOption decode c.toJson = (decode c.toJson).map some := by
      unfold Json.toOption
      split
      · next hnull => exact absurd hnull c.toJson_ne_null
      · rfl
    show Json.toOption decode c.toJson = _
    rw [hsome, decode_toJson (habs c (List.mem_singleton.mpr rfl))]
    rfl

end Condition

/-! ## Fields -/

namespace Json.Holds

variable {name : String} {fields written : List (String × Json)}

theorem conditions (h : Holds fields written) {cs : List Condition}
    (habs : ∀ c ∈ cs, c.IsAbsolute) (hmem : (name, Condition.toJsonAll cs) ∈ written) :
    Condition.field name fields = .ok cs :=
  (h.defaulted hmem _ _).trans (Condition.decodeAll_toJsonAll habs)

theorem optionalCondition (h : Holds fields written) {condition : Option Condition}
    (habs : ∀ c ∈ condition.toList, c.IsAbsolute)
    (hmem : (name, Condition.orNull condition) ∈ written) :
    Json.optional name Condition.decode fields = .ok condition :=
  (h.optional hmem _).trans (Condition.toOption_orNull habs)

end Json.Holds

end Interview

import Interview.Proofs.WrittenConditions

/-!
# The grammar of conditions

A condition is decoded by trying its forms one after the other, and the name that is found in a form
may still be refused. The grammar says the same without the order: `Condition.Writes` says what
condition a value writes, if any, and `Condition.Decides` what a value is decoded to or refused for.
Every value in the usual way of writing is decoded as it says (`Condition.Decides.ofJson_eq`).

An object that is marked as a condition on imported data but is none is judged as an object with a
name and an operator, and the mark is then the name. So it is refused for its name if it could be of
that form, and for its form otherwise.
-/

namespace Interview

namespace Json

variable {α : Type} {all : List α} {label : α → String} {field : String} {j : Json}
  {fields : List (String × Json)}

/-- An object gives one of several things by its name, or nothing: the field is left out or
`null`. -/
def GivesName (fields : List (String × Json)) (field : String) (label : α → String) :
    Option α → Prop
  | none => field ∉ fields.map Prod.fst ∨ (field, .null) ∈ fields
  | some a => (field, .string (label a)) ∈ fields

/-- A name is decoded from a text only, unless it is written as an object. -/
theorem IsNaming.toNamed_eq_ok (h : IsNaming all label)
    (hplain : ∀ name content, j ≠ .object [(name, content)]) {a : α} :
    Json.toNamed all label j = .ok a ↔ j = .string (label a) := by
  constructor
  · intro hdecode
    unfold Json.toNamed toNamedBy at hdecode
    split at hdecode
    · exact congrArg string (h.ofName_eq_ok.mp hdecode).symm
    · next name content => exact absurd rfl (hplain name content)
    · cases hdecode
  · rintro rfl
    exact h.toNamed a

theorem required_toNamed_eq_ok (h : IsNaming all label)
    (hdistinct : (fields.map Prod.fst).Nodup)
    (hplain : ∀ j, (field, j) ∈ fields → ∀ name content, j ≠ .object [(name, content)]) {a : α} :
    required field (Json.toNamed all label) fields = .ok a ↔
      (field, .string (label a)) ∈ fields := by
  rw [required_eq_ok hdistinct]
  constructor
  · rintro ⟨j, hj, hdecode⟩
    exact (h.toNamed_eq_ok (hplain j hj)).mp hdecode ▸ hj
  · intro hj
    exact ⟨_, hj, h.toNamed a⟩

theorem optional_toNamed_eq_ok (h : IsNaming all label)
    (hdistinct : (fields.map Prod.fst).Nodup)
    (hplain : ∀ j, (field, j) ∈ fields → ∀ name content, j ≠ .object [(name, content)])
    {o : Option α} :
    optional field (Json.toNamed all label) fields = .ok o ↔ GivesName fields field label o := by
  rw [optional_eq_ok hdistinct]
  cases o with
  | none =>
    simp only [toOption_eq_none, and_true, GivesName]
    exact or_congr_right ⟨fun ⟨j, hj, hnull⟩ => hnull ▸ hj, fun hj => ⟨_, hj, rfl⟩⟩
  | some a =>
    simp only [reduceCtorEq, and_false, false_or, GivesName]
    constructor
    · rintro ⟨j, hj, hdecode⟩
      have hname := (h.toNamed_eq_ok (hplain j hj)).mp (toOption_eq_some.mp hdecode).2
      exact hname ▸ hj
    · intro hj
      exact ⟨_, hj, toOption_eq_some.mpr ⟨nofun, h.toNamed a⟩⟩

end Json

namespace Condition

variable {j : Json} {c : Condition} {name : String} {op : Option Operator}
  {fields : List (String × Json)}

/-! ## The grammar -/

/-- The name of a condition, with the operator that stands beside it, if any. In the absence of an
operator the condition asks for `isTrue`. -/
inductive Names : String → Option Operator → Condition → Prop where
  | experimental : Names "experimental" none experimental
  | submission : Names "submissionBlockingFactsAreFalse" none nothingBlocksSubmission
  | signing (op : Option Operator) : Names "isEssarSigningPath" op (signingPath (op.getD .isTrue))
  | path {path : String} (op : Option Operator) (absolute : path.toList.head? = some '/') :
    Names path op (fact path (op.getD .isTrue))

/-- A value has the form of a name with an operator or without one: it is a text, or an object with
a text as its condition. -/
inductive HasForm : Json → String → Option Operator → Prop where
  | text (name : String) : HasForm (.string name) name none
  | object {fields : List (String × Json)} {name : String} {op : Option Operator}
      (condition : ("condition", .string name) ∈ fields)
      (operator : Json.GivesName fields "operator" Operator.label op) :
      HasForm (.object fields) name op

/-- A value writes a condition. -/
inductive Writes : Json → Condition → Prop where
  | named {j : Json} {name : String} {op : Option Operator} {c : Condition}
      (form : HasForm j name op) (names : Names name op c) : Writes j c
  | imported {fields : List (String × Json)} {question : Import.Question}
      {op : Option Import.Operator} (mark : ("condition", .string "data-import") ∈ fields)
      (about : ("section", .string question.label) ∈ fields)
      (operator : Json.GivesName fields "operator" Import.Operator.label op) :
      Writes (.object fields) (imported question (op.getD .isTrue))

/-- The names of conditions that take no operator. -/
def switches : List String := ["experimental", "submissionBlockingFactsAreFalse"]

/-- What is made of a value. -/
inductive Decides : Json → Except Error Condition → Prop where
  | accepted {j : Json} {c : Condition} (writes : Writes j c) : Decides j (.ok c)
  /-- An operator stands beside the name of a condition that takes none. -/
  | unexpectedOperator {j : Json} {name : String} {op : Operator} (form : HasForm j name (some op))
      (isSwitch : name ∈ switches) : Decides j (.error (.unexpectedOperator name))
  /-- The form is right, but the name is neither that of a condition nor an absolute path. -/
  | unknown {j : Json} {name : String} {op : Option Operator} (form : HasForm j name op)
      (unknown : name ∉ switches ∧ name ≠ "isEssarSigningPath")
      (relative : name.toList.head? ≠ some '/') (refused : ∀ c, ¬ Writes j c) :
      Decides j (.error (.unknown name))
  /-- The value has neither form. -/
  | shape {j : Json} (form : ∀ name op, ¬ HasForm j name op) (refused : ∀ c, ¬ Writes j c) :
      Decides j (.error .shape)

/-- A value may stand for a name or for none. -/
def mayName : Json → Bool
  | .null | .string _ | .object _ => true
  | .bool _ | .number _ | .array _ | .unusable => false

/-- A value is written in the usual way: an object has no field twice and gives names as texts, and
no array stands for an object, as one of two or three items might that starts with two names. -/
def IsPlain : Json → Prop
  | .object fields => (fields.map Prod.fst).Nodup ∧
      ∀ field ∈ fields, field.1 ∈ ["condition", "section", "operator"] →
        ∀ name content, field.2 ≠ .object [(name, content)]
  | .array items => items.length < 2 ∨ 3 < items.length ∨ ∃ i ∈ items.take 2, mayName i = false
  | .null | .bool _ | .number _ | .string _ | .unusable => True

/-! ## Names -/

theorem Names.ofName_eq (h : Names name op c) : ofName name op = .ok c := by
  cases h with
  | experimental => rfl
  | submission => rfl
  | signing op => rfl
  | path op absolute => exact ofName_of_absolute absolute op

/-- A name is that of a condition unless an operator is too much or the name is unknown. -/
theorem names_or_refused (name : String) (op : Option Operator) :
    (∃ c, Names name op c) ∨ (name ∈ switches ∧ op.isSome = true) ∨
      ((name ∉ switches ∧ name ≠ "isEssarSigningPath") ∧ name.toList.head? ≠ some '/') := by
  by_cases hswitch : name ∈ switches
  · cases op with
    | some op => exact .inr (.inl ⟨hswitch, rfl⟩)
    | none =>
      rcases List.mem_pair.mp hswitch with rfl | rfl
      · exact .inl ⟨_, .experimental⟩
      · exact .inl ⟨_, .submission⟩
  · by_cases hsigning : name = "isEssarSigningPath"
    · subst hsigning
      exact .inl ⟨_, .signing op⟩
    · by_cases hpath : name.toList.head? = some '/'
      · exact .inl ⟨_, .path op hpath⟩
      · exact .inr (.inr ⟨⟨hswitch, hsigning⟩, hpath⟩)

theorem ofName_eq_unexpectedOperator (h : name ∈ switches) (op : Operator) :
    ofName name (some op) = .error (.unexpectedOperator name) := by
  rcases List.mem_pair.mp h with rfl | rfl
  · rfl
  · rfl

theorem ofName_eq_unknown (h : name ∉ switches ∧ name ≠ "isEssarSigningPath")
    (hrelative : name.toList.head? ≠ some '/') (op : Option Operator) :
    ofName name op = .error (.unknown name) := by
  obtain ⟨hswitch, hsigning⟩ := h
  have hexperimental : name ≠ experimentalName := fun heq => hswitch (heq ▸ .head _)
  have hsubmission : name ≠ submissionName := fun heq => hswitch (heq ▸ .tail _ (.head _))
  have hname : name ≠ signingName := hsigning
  simp only [ofName, if_neg hexperimental, if_neg hsubmission, if_neg hname, if_neg hrelative]

/-! ## Objects -/

section Objects

variable (hplain : IsPlain (.object fields))
include hplain

/-- The form of a condition on imported data is decoded as the grammar says. -/
theorem importForm_eq_ok : importForm fields = .ok c ↔
    ∃ question op, c = imported question (op.getD .isTrue) ∧
      ("condition", .string "data-import") ∈ fields ∧
      ("section", .string question.label) ∈ fields ∧
      Json.GivesName fields "operator" Import.Operator.label op := by
  have hmark : Json.IsNaming [()] fun _ => importName := ⟨by decide, fun _ => .head _⟩
  have hcondition (u : Unit) :
      Json.required "condition" (Json.toNamed [()] fun _ => importName) fields = .ok u ↔
        ("condition", .string importName) ∈ fields :=
    Json.required_toNamed_eq_ok hmark hplain.1 fun j hj => hplain.2 _ hj (by simp)
  have hsection (question : Import.Question) :
      Json.required "section" (Json.toNamed Import.Question.all (·.label)) fields = .ok question ↔
        ("section", .string question.label) ∈ fields :=
    Json.required_toNamed_eq_ok Import.Question.isNaming hplain.1
      fun j hj => hplain.2 _ hj (by simp)
  have hoperator (op : Option Import.Operator) :
      Json.optional "operator" (Json.toNamed Import.Operator.all (·.label)) fields = .ok op ↔
        Json.GivesName fields "operator" Import.Operator.label op :=
    Json.optional_toNamed_eq_ok Import.Operator.isNaming hplain.1
      fun j hj => hplain.2 _ hj (by simp)
  simp only [importForm, bind_eq_ok, pure_eq_ok, hcondition, hsection, hoperator]
  constructor
  · rintro ⟨-, hcondition, question, hsection, op, hop, rfl⟩
    exact ⟨question, op, rfl, hcondition, hsection, hop⟩
  · rintro ⟨question, op, rfl, hcondition, hsection, hop⟩
    exact ⟨(), hcondition, question, hsection, op, hop, rfl⟩

/-- The form of a name with an operator is decoded as the grammar says. -/
theorem operatorForm_eq_ok :
    operatorForm fields = .ok (name, op) ↔ HasForm (.object fields) name op := by
  have hoperator (op : Option Operator) :
      Json.optional "operator" (Json.toNamed Operator.all (·.label)) fields = .ok op ↔
        Json.GivesName fields "operator" Operator.label op :=
    Json.optional_toNamed_eq_ok Operator.isNaming hplain.1 fun j hj => hplain.2 _ hj (by simp)
  simp only [operatorForm, bind_eq_ok, pure_eq_ok, hoperator, Json.required_eq_ok hplain.1]
  constructor
  · rintro ⟨_, hop, _, ⟨j, hj, htext⟩, heq⟩
    obtain ⟨rfl, rfl⟩ := Prod.mk.inj heq
    exact .object (Json.toText_eq_ok.mp htext ▸ hj) hop
  · intro hform
    cases hform with
    | object hcondition hop => exact ⟨op, hop, name, ⟨_, hcondition, rfl⟩, rfl⟩

end Objects

theorem Names.ne_importName (h : Names name op c) : name ≠ "data-import" := by
  cases h with
  | experimental | submission | signing => decide
  | path op absolute => exact ne_of_absolute absolute (by decide)

/-- The name in a value of the right form decides, unless the value is a condition on imported
data. -/
theorem HasForm.ofJson_eq (hplain : IsPlain j) (hform : HasForm j name op)
    (h : name ≠ "data-import" ∨ ∀ c, ¬ Writes j c) : ofJson j = ofName name op := by
  cases hform with
  | text name => rfl
  | object hcondition hop =>
    next fields =>
    have himport (c : Condition) : importForm fields ≠ .ok c := by
      intro hc
      obtain ⟨question, op', -, hmark, hsection, hop'⟩ := (importForm_eq_ok hplain).mp hc
      rcases h with hname | hrefused
      · -- the condition of the object is written once, so its name is the mark
        have heq := List.inj_on_of_nodup_map hplain.1 hcondition hmark rfl
        exact hname (Json.string.inj (Prod.mk.inj heq).2)
      · exact hrefused _ (.imported hmark hsection hop')
    have hoperator := (operatorForm_eq_ok hplain).mpr (.object hcondition hop)
    cases hform : importForm fields with
    | ok c => exact absurd hform (himport c)
    | error e => rw [ofJson, hform, hoperator]

/-! ## Decoding -/

/-- What the grammar decides is what decoding gives. -/
theorem Decides.ofJson_eq {r : Except Error Condition} (hplain : IsPlain j) (h : Decides j r) :
    ofJson j = r := by
  cases h with
  | accepted hwrites =>
    cases hwrites with
    | named hform hnames =>
      rw [hform.ofJson_eq hplain (.inl hnames.ne_importName), hnames.ofName_eq]
    | imported hmark hsection hop =>
      have himport := (importForm_eq_ok hplain).mpr ⟨_, _, rfl, hmark, hsection, hop⟩
      rw [ofJson, himport]
  | unexpectedOperator hform hswitch =>
    have hname := ne_of_mem_of_not_mem hswitch (by decide : "data-import" ∉ switches)
    rw [hform.ofJson_eq hplain (.inl hname), ofName_eq_unexpectedOperator hswitch]
  | unknown hform hunknown hrelative hrefused =>
    rw [hform.ofJson_eq hplain (.inr hrefused), ofName_eq_unknown hunknown hrelative]
  | shape hform hrefused =>
    cases j with
    | string name => exact absurd (.text name) (hform name none)
    | object fields =>
      rw [ofJson]
      split
      · next c himport =>
        obtain ⟨question, op, -, hmark, hsection, hop⟩ := (importForm_eq_ok hplain).mp himport
        exact absurd (.imported hmark hsection hop) (hrefused _)
      · split
        · next hoperator => exact absurd ((operatorForm_eq_ok hplain).mp hoperator) (hform _ _)
        · rfl
    | null | bool | number | array | unusable => rfl

/-- The grammar decides about every value. -/
theorem exists_decides (j : Json) : ∃ r, Decides j r := by
  by_cases hwrites : ∃ c, Writes j c
  · obtain ⟨c, hc⟩ := hwrites
    exact ⟨_, .accepted hc⟩
  rw [not_exists] at hwrites
  by_cases hform : ∃ name op, HasForm j name op
  · obtain ⟨name, op, hform⟩ := hform
    rcases names_or_refused name op with ⟨c, hc⟩ | ⟨hswitch, hop⟩ | ⟨hunknown, hrelative⟩
    · exact absurd (.named hform hc) (hwrites c)
    · obtain ⟨op, rfl⟩ := Option.isSome_iff_exists.mp hop
      exact ⟨_, .unexpectedOperator hform hswitch⟩
    · exact ⟨_, .unknown hform hunknown hrelative hwrites⟩
  · simp only [not_exists] at hform
    exact ⟨_, .shape hform hwrites⟩

/-- **A value is decoded as the grammar says**, to the condition that it writes, or refused for the
reason that the grammar names. In a document, the reason is given in its wording. Where several
conditions may stand, one stands for the list of it alone. -/
theorem decodes_as_written (hplain : IsPlain j) :
    (∀ r, ofJson j = r ↔ Decides j r) ∧
    (j.isUsable = true → decode j = (ofJson j).mapError fun e => .condition e.message) ∧
    ((∀ items, j ≠ .array items) → decodeAll (.array [j]) = decodeAll j) := by
  refine ⟨fun r => ⟨fun h => ?_, fun h => h.ofJson_eq hplain⟩, fun husable => ?_, fun harray => ?_⟩
  · obtain ⟨r', hr'⟩ := exists_decides j
    have heq : r' = r := (hr'.ofJson_eq hplain).symm.trans h
    exact heq ▸ hr'
  · rw [decode, Json.kept_eq_ok husable]
    rfl
  · have hone : decodeAll j = (decode j).map ([·]) := by
      unfold decodeAll
      split
      · next items => exact absurd rfl (harray items)
      · rfl
    rw [hone]
    show [j].mapM decode = _
    cases hdecode : decode j with
    | ok c => simp [hdecode, Except.map]
    | error e => simp [hdecode, Except.map]

end Condition

namespace Household

/-- A question about imported data with an operator for facts. -/
def mixedCondition : Json :=
  .object [("condition", .string "data-import"), ("section", .string "about-you"),
    ("operator", .string "isComplete")]

/-- A condition without an operator. -/
def plainCondition : Json :=
  .object [("operator", .null), ("condition", .string "/isNew")]

end Household

namespace Condition

open Household in
/-- A question about imported data that has an operator for facts is refused for its name, also in a
list. A condition asks for `isTrue` if its operator is `null`. -/
theorem decodes_as_written_household :
    IsPlain mixedCondition ∧ Decides mixedCondition (.error (.unknown "data-import")) ∧
    decodeAll (.array [mixedCondition]) = decodeAll mixedCondition ∧
    IsPlain plainCondition ∧ Writes plainCondition (.fact "/isNew" .isTrue) ∧
    decode plainCondition = .ok (.fact "/isNew" .isTrue) := by
  have hmixed : IsPlain mixedCondition := by simp [IsPlain, mixedCondition]
  have hplain : IsPlain plainCondition := by simp [IsPlain, plainCondition]
  obtain ⟨hdecides, -, hone⟩ := decodes_as_written hmixed
  obtain ⟨hdecides', hdecode, -⟩ := decodes_as_written hplain
  have hwrites : Writes plainCondition (.fact "/isNew" .isTrue) := by
    cases (hdecides' (.ok (.fact "/isNew" .isTrue))).mp rfl with
    | accepted h => exact h
  exact ⟨hmixed, (hdecides _).mp rfl, hone nofun, hplain, hwrites, hdecode rfl⟩

end Condition

end Interview

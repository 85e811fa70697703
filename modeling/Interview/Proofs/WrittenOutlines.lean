import Interview.Proofs.WrittenParts

/-!
# Written outlines

A node is written as an object with its kind, what is declared about it and the nodes below it. All
of these have fields of their own, so the node is decoded from the object, given that the nodes
below it are. An induction on the tree takes this to whole outlines (`Outline.ofJson_toJson`).
-/

namespace Interview

open Json (Decoded)

namespace Node

variable {n : Node} {ns : List Node}

/-! ## The fields of a node -/

theorem Kind.isNaming : Json.IsNaming all name :=
  ⟨by decide, fun kind => by cases kind <;> simp [all]⟩

/-- The kind of a node in documents. -/
def kind : Node → Kind
  | category .. => .category
  | subcategory .. => .subcategory
  | topic .. => .topic
  | loop .. => .loop
  | gate .. => .gate
  | screen _ => .screen
  | assertion _ => .assertion

/-- The fields for what is declared about a node. -/
def ownFields : Node → List (String × Json)
  | category route _ | topic route _ => [("route", .string route)]
  | subcategory head _ => head.toFields
  | loop head _ => head.toFields
  | gate condition _ => [("condition", condition.toJson)]
  | screen head => head.toFields
  | assertion head => head.toFields

/-- The field for the nodes below a node; some kinds have none. -/
def childFields : Node → List (String × Json)
  | category _ children | subcategory _ children | topic _ children | loop _ children
  | gate _ children => [("children", .array (itemsToJson children))]
  | screen _ | assertion _ => []

/-- The fields of a node. -/
def toFields (n : Node) : List (String × Json) :=
  ("kind", .string n.kind.name) :: n.ownFields ++ n.childFields

theorem toJson_eq (n : Node) : n.toJson = .object n.toFields := by
  cases n <;> rfl

theorem holds_toFields (n : Node) : Json.Holds n.toFields n.toFields :=
  .refl (by
    cases n <;> simp [toFields, ownFields, childFields, SubcategoryHead.toFields,
      LoopHead.toFields, ScreenHead.toFields, AssertionHead.toFields])

/-- No other field is taken for that of the nodes below. -/
theorem soleChildren_toFields (n : Node) :
    soleChildren (childrenOf n.toFields) = itemsOfJson (itemsToJson n.children) := by
  cases n <;> simp [toFields, ownFields, childFields, SubcategoryHead.toFields,
    LoopHead.toFields, ScreenHead.toFields, AssertionHead.toFields, childrenOf, soleChildren,
    listOfJson, children, itemsToJson, itemsOfJson]

/-! ## Nodes -/

theorem ofFields_of_holds {fields : List (String × Json)} {children : List (Decoded (List Node))}
    (hf : Json.Holds fields n.toFields) (habs : ∀ c ∈ n.conditions, c.IsAbsolute)
    (hchildren : soleChildren children = .ok n.children) :
    Node.ofFields fields children = .ok n := by
  have hown : Json.Holds fields n.ownFields := hf.mono fun field hfield => by
    simp [toFields, hfield]
  have hkind : Json.required "kind" (Json.toKeptKind Kind.all Kind.name) fields = .ok n.kind :=
    (hf.required List.mem_cons_self _).trans (Kind.isNaming.toKeptKind n.kind)
  refine bind_eq_ok.mpr ⟨n.kind, hkind, ?_⟩
  cases n <;> simp only [kind, bind_eq_ok, pure_eq_ok]
  case category route children | topic route children =>
    exact ⟨route, hown.text List.mem_cons_self, children, hchildren, rfl⟩
  case subcategory head children =>
    exact ⟨head, SubcategoryHead.ofFields_of_holds hown habs, children, hchildren, rfl⟩
  case loop head children =>
    exact ⟨head, LoopHead.ofFields_of_holds hown habs, children, hchildren, rfl⟩
  case gate condition children =>
    exact ⟨condition, (hown.required List.mem_cons_self _).trans
      (Condition.decode_toJson (habs condition List.mem_cons_self)), children, hchildren, rfl⟩
  case screen head => exact ⟨head, ScreenHead.ofFields_of_holds hown habs, rfl⟩
  case assertion head => exact ⟨head, AssertionHead.ofFields_of_holds hown habs, rfl⟩

/-- A node is decoded if the nodes below it are. -/
theorem ofJson_toJson (habs : ∀ c ∈ n.conditions, c.IsAbsolute)
    (hchildren : itemsOfJson (itemsToJson n.children) = .ok n.children) :
    Node.ofJson n.toJson = .ok n := by
  rw [toJson_eq, Node.ofJson]
  exact ofFields_of_holds n.holds_toFields habs (n.soleChildren_toFields.trans hchildren)

theorem itemsOfJson_itemsToJson (habs : AreAbsolute ns) :
    itemsOfJson (itemsToJson ns) = .ok ns := by
  induction ns using nodes_induction with
  | nil => rfl
  | cons n ns children rest =>
    obtain ⟨hown, hbelow, hafter⟩ := areAbsolute_cons.mp habs
    rw [itemsToJson, itemsOfJson, ofJson_toJson hown (children hbelow), rest hafter]
    rfl

/-! ## Usable nodes -/

theorem all_isUsable_ownFields (n : Node) : n.ownFields.all (·.2.isUsable) = true := by
  cases n <;> simp [ownFields, SubcategoryHead.toFields, LoopHead.toFields, ScreenHead.toFields,
    AssertionHead.toFields]

theorem isUsable_toJson (hchildren : (itemsToJson n.children).all Json.isUsable = true) :
    n.toJson.isUsable = true := by
  have hbelow : n.childFields.all (·.2.isUsable) = true := by
    cases n with
    | category | subcategory | topic | loop | gate => simpa [childFields, children] using hchildren
    | screen | assertion => rfl
  simp only [toJson_eq, toFields, Json.isUsable_object, Json.isUsable_string, List.cons_append,
    List.all_cons, List.all_append, n.all_isUsable_ownFields, hbelow, Bool.and_self]

theorem all_isUsable_itemsToJson (ns : List Node) :
    (itemsToJson ns).all Json.isUsable = true := by
  induction ns using nodes_induction with
  | nil => rfl
  | cons n ns children rest =>
    rw [itemsToJson, List.all_cons, isUsable_toJson children, rest, Bool.and_self]

/-- At the top of an outline, a node shows its kind. -/
theorem topOfJson_toJson (habs : AreAbsolute [n]) : topOfJson n.toJson = .ok n := by
  obtain ⟨hown, hbelow, -⟩ := areAbsolute_cons.mp habs
  have husable : n.toJson.isUsable = true := isUsable_toJson (all_isUsable_itemsToJson n.children)
  have hfields : n.toJson.fields = .ok n.toFields := by
    rw [toJson_eq]
    rfl
  have hkind : Json.required "kind" (Json.toKind Kind.all Kind.name) n.toFields = .ok n.kind :=
    (n.holds_toFields.required List.mem_cons_self _).trans (Kind.isNaming.toKind n.kind)
  simp only [topOfJson, bind_eq_ok]
  exact ⟨n.toJson, Json.kept_eq_ok husable, n.toFields, hfields, n.kind, hkind,
    ofJson_toJson hown (itemsOfJson_itemsToJson hbelow)⟩

theorem itemsToJson_eq (ns : List Node) : itemsToJson ns = ns.map Node.toJson := by
  induction ns with
  | nil => rfl
  | cons n ns ih => rw [itemsToJson, ih, List.map_cons]

end Node

/-! ## Outlines -/

namespace Outline

theorem ofJson_toJson {o : Outline} (habs : o.IsAbsolute) : ofJson o.toJson = .ok o := by
  have hf : Json.Holds [("batches", Batch.Registry.toJson o.batches),
    ("categories", .array (Node.itemsToJson o.nodes))] _ := .refl (by simp)
  have hnodes : Json.toList Node.topOfJson (.array (Node.itemsToJson o.nodes)) = .ok o.nodes := by
    rw [Node.itemsToJson_eq]
    have hall := Node.areAbsolute_iff_forall.mp habs
    exact Json.toList_array fun n hn => Node.topOfJson_toJson (hall n hn)
  simp only [ofJson, bind_eq_ok, pure_eq_ok]
  exact ⟨_, rfl, o.batches,
    (hf.defaulted (by simp) _ _).trans (Batch.Registry.ofJson_toJson o.batches),
    o.nodes, (hf.required (by simp) _).trans hnodes, rfl⟩

end Outline

/-- A document about the household. It leaves out what may be left out, writes conditions without a
list and its fields in any order, and has dates from before the first year and past year 9999. -/
def Household.document : Json :=
  .object [
    ("categories", .array [.object [
      ("children", .array [.object [
        ("kind", .string "subcategory"), ("route", .string "family"),
        ("complete_if", .string "/familyIsDone"),
        ("children", .array [.object [
          ("kind", .string "gate"),
          ("condition", .object [("condition", .string "data-import"),
            ("section", .string "about-you")]),
          ("children", .array [.object [
            ("kind", .string "screen"), ("route", .string "start"),
            ("content", .array [
              .object [("i18n_key", .string "start"), ("type", .string "heading"),
                ("batches", .array [.string "hall"])],
              .object [("type", .string "fact"), ("path", .string "/size"),
                ("kind", .string "text"),
                ("conditions", .object [("operator", .string "isComplete"),
                  ("condition", .string "/people")])],
              .object [("type", .string "save_and_continue_button")]])]])]])]]),
      ("kind", .string "category"), ("route", .string "you")]]),
    ("batches", .object [("hall", .object [
      ("status", .string "WIP"), ("started", .string " -44-3-15"),
      ("history", .array [.object [("completed", .string "+12026-01-05"),
        ("status", .string "Complete")]])])])]

/-- The outline that it declares. -/
def Household.declared : Outline :=
  ⟨.ofList [("hall", ⟨.content, .inProgress, some ⟨-44, 3, 15, by decide⟩,
      [⟨.complete, some ⟨12026, 1, 5, by decide⟩⟩]⟩)],
    [.category "you" [
      .subcategory ⟨"family", [.fact "/familyIsDone" .isTrue], [], false, false, false, none⟩ [
        .gate (.imported .aboutYou .isTrue) [
          .screen ⟨"start", none, none, false, false, false, [
            ⟨.heading "start", [], ["hall"]⟩,
            ⟨.field "/size" .text false none, [.fact "/people" .isComplete], []⟩,
            ⟨.saveAndContinue, [], []⟩]⟩]]]]⟩

end Interview

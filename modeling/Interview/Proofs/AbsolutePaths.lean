import Interview.Outline.Document
import Interview.Proofs.Decoding
import Interview.Proofs.Sites

/-!
# Absolute paths

A condition on a fact names the path of the fact. Where a document has such a condition, the path
is absolute: any other text is the name of a condition or is refused. So all paths of a decoded
outline are absolute (`Outline.isAbsolute_of_ofJson`), however deep in the tree they stand.
-/

namespace Interview

open Json (Decoded)

/-! ## Outlines -/

/-- The path in a condition on a fact starts at the root. -/
def Condition.IsAbsolute : Condition → Prop
  | fact path _ => path.toList.head? = some '/'
  | experimental | nothingBlocksSubmission | signingPath _ | imported .. => True

instance : DecidablePred Condition.IsAbsolute
  | .fact path _ => inferInstanceAs (Decidable (path.toList.head? = some '/'))
  | .experimental | .nothingBlocksSubmission | .signingPath _ | .imported .. => .isTrue trivial

/-- The conditions of a subcategory. -/
def SubcategoryHead.conditions (h : SubcategoryHead) : List Condition :=
  h.completeIf ++ h.displayOnlyIf

/-- The conditions of a loop. -/
def LoopHead.conditions (h : LoopHead) : List Condition :=
  h.itemCompleteIf.toList

/-- The conditions of a screen and those of its content. -/
def ScreenHead.conditions (h : ScreenHead) : List Condition :=
  h.condition.toList ++ h.content.flatMap (·.conditions)

/-- The conditions that are declared at a node. -/
def Node.conditions : Node → List Condition
  | category .. | topic .. => []
  | subcategory head _ => head.conditions
  | loop head _ => head.conditions
  | gate condition _ => [condition]
  | screen head => head.conditions
  | assertion head => head.conditions

/-- The paths at several nodes and below them are absolute. -/
def Node.AreAbsolute (ns : List Node) : Prop :=
  ∀ x ∈ Node.allSites [] ns, ∀ c ∈ x.node.conditions, c.IsAbsolute

/-- **Outlines with absolute paths.** -/
def Outline.IsAbsolute (o : Outline) : Prop :=
  ∀ x ∈ o.sites, ∀ c ∈ x.node.conditions, c.IsAbsolute

instance (o : Outline) : Decidable o.IsAbsolute :=
  inferInstanceAs (Decidable (∀ x ∈ o.sites, ∀ c ∈ x.node.conditions, c.IsAbsolute))

namespace Node

theorem areAbsolute_nil : AreAbsolute [] :=
  nofun

/-- The paths at a node, below it and after it. -/
theorem areAbsolute_cons {n : Node} {ns : List Node} : AreAbsolute (n :: ns) ↔
    (∀ c ∈ n.conditions, c.IsAbsolute) ∧ AreAbsolute n.children ∧ AreAbsolute ns := by
  -- the sites below have the node around them, but which nodes there are does not depend on it
  have hbelow : (∀ x ∈ allSites [n] n.children, ∀ c ∈ x.node.conditions, c.IsAbsolute) ↔
      AreAbsolute n.children := by
    have hnodes (around : List Node) :
        (∀ x ∈ allSites around n.children, ∀ c ∈ x.node.conditions, c.IsAbsolute) ↔
          ∀ m ∈ (allSites around n.children).map (·.node), ∀ c ∈ m.conditions, c.IsAbsolute := by
      rw [List.forall_mem_map]
    rw [AreAbsolute, hnodes, hnodes, map_node_allSites _ [n] []]
  rw [← hbelow]
  simp only [AreAbsolute, allSites, sites_eq, List.forall_mem_append, List.forall_mem_cons,
    and_assoc]

theorem areAbsolute_iff_forall {ns : List Node} :
    AreAbsolute ns ↔ ∀ n ∈ ns, AreAbsolute [n] := by
  induction ns with
  | nil => simp [areAbsolute_nil]
  | cons n ns ih =>
    rw [List.forall_mem_cons, areAbsolute_cons, areAbsolute_cons, ih]
    simp only [areAbsolute_nil, and_true, and_assoc]

end Node

/-! ## Conditions -/

namespace Condition

variable {j : Json} {c : Condition} {cs : List Condition}

theorem isAbsolute_of_ofName {name : String} {op : Option Operator}
    (h : ofName name op = .ok c) : c.IsAbsolute := by
  unfold ofName at h
  split at h
  · split at h <;> cases h
    trivial
  split at h
  · split at h <;> cases h
    trivial
  split at h
  · cases h
    trivial
  split at h
  · next hroot =>
    cases h
    exact hroot
  · cases h

theorem isAbsolute_of_importForm {fields : List (String × Json)}
    (h : importForm fields = .ok c) : c.IsAbsolute := by
  simp only [importForm, bind_eq_ok, pure_eq_ok] at h
  obtain ⟨-, -, question, -, op, -, rfl⟩ := h
  trivial

theorem isAbsolute_of_ofJson (h : ofJson j = .ok c) : c.IsAbsolute := by
  unfold ofJson at h
  split at h
  · exact isAbsolute_of_ofName h
  · split at h
    · next himport =>
      cases h
      exact isAbsolute_of_importForm himport
    · split at h
      · exact isAbsolute_of_ofName h
      · cases h
  · cases h

theorem isAbsolute_of_decode (h : decode j = .ok c) : c.IsAbsolute := by
  obtain ⟨i, -, h⟩ := bind_eq_ok.mp h
  exact isAbsolute_of_ofJson (mapError_eq_ok.mp h)

theorem isAbsolute_of_decodeAll (h : decodeAll j = .ok cs) : ∀ c ∈ cs, c.IsAbsolute := by
  intro c hc
  unfold decodeAll at h
  split at h
  · obtain ⟨i, -, hi⟩ := exists_of_mapM_eq_ok h c hc
    exact isAbsolute_of_decode hi
  · -- one condition without a list
    obtain ⟨d, hd, rfl⟩ := map_eq_ok.mp h
    obtain rfl := List.mem_singleton.mp hc
    exact isAbsolute_of_decode hd

theorem isAbsolute_of_defaulted {name : String} {fields : List (String × Json)}
    (h : Json.defaulted name decodeAll [] fields = .ok cs) : ∀ c ∈ cs, c.IsAbsolute := by
  rcases Json.exists_of_defaulted h with rfl | ⟨j, hj⟩
  · exact nofun
  · exact isAbsolute_of_decodeAll hj

theorem isAbsolute_of_optional {name : String} {fields : List (String × Json)}
    {condition : Option Condition} (h : Json.optional name decode fields = .ok condition) :
    ∀ c ∈ condition.toList, c.IsAbsolute := by
  intro c hc
  obtain rfl := Option.mem_toList.mp hc
  obtain ⟨j, hj⟩ := Json.exists_of_optional h
  exact isAbsolute_of_decode hj

end Condition

/-! ## Nodes -/

section Heads

variable {fields : List (String × Json)}

theorem SubcategoryHead.isAbsolute_of_ofFields {h : SubcategoryHead}
    (hdecode : ofFields fields = .ok h) : ∀ c ∈ h.conditions, c.IsAbsolute := by
  simp only [ofFields, bind_eq_ok, pure_eq_ok] at hdecode
  obtain ⟨-, -, completeIf, hcomplete, displayOnlyIf, hdisplay, -, -, -, -, -, -, -, -, rfl⟩ :=
    hdecode
  exact List.forall_mem_append.mpr ⟨Condition.isAbsolute_of_defaulted hcomplete,
    Condition.isAbsolute_of_defaulted hdisplay⟩

theorem LoopHead.isAbsolute_of_ofFields {h : LoopHead} (hdecode : ofFields fields = .ok h) :
    ∀ c ∈ h.conditions, c.IsAbsolute := by
  simp only [ofFields, bind_eq_ok, pure_eq_ok] at hdecode
  obtain ⟨-, -, -, -, -, -, -, -, completeIf, hcomplete, -, -, -, -, rfl⟩ := hdecode
  exact Condition.isAbsolute_of_optional hcomplete

theorem Element.isAbsolute_of_ofJson {j : Json} {e : Element} (hdecode : ofJson j = .ok e) :
    ∀ c ∈ e.conditions, c.IsAbsolute := by
  simp only [ofJson, bind_eq_ok, pure_eq_ok] at hdecode
  obtain ⟨i, -, fields, -, conditions, hconditions, batches, -, kind, -, content, -, rfl⟩ := hdecode
  exact Condition.isAbsolute_of_defaulted hconditions

theorem ScreenHead.isAbsolute_of_ofFields {h : ScreenHead} (hdecode : ofFields fields = .ok h) :
    ∀ c ∈ h.conditions, c.IsAbsolute := by
  simp only [ofFields, bind_eq_ok, pure_eq_ok] at hdecode
  obtain ⟨-, -, condition, hcondition, -, -, -, -, -, -, -, -, content, hcontent, rfl⟩ := hdecode
  refine List.forall_mem_append.mpr ⟨Condition.isAbsolute_of_optional hcondition, fun c hc => ?_⟩
  obtain ⟨e, he, hc⟩ := List.mem_flatMap.mp hc
  obtain ⟨list, hlist⟩ := Json.exists_of_required hcontent
  obtain ⟨j, hj⟩ := Json.exists_of_toList_eq_ok hlist e he
  exact Element.isAbsolute_of_ofJson hj c hc

theorem AssertionHead.isAbsolute_of_ofFields {h : AssertionHead}
    (hdecode : ofFields fields = .ok h) : ∀ c ∈ h.conditions, c.IsAbsolute := by
  simp only [ofFields, bind_eq_ok, pure_eq_ok] at hdecode
  obtain ⟨-, -, -, -, conditions, hconditions, -, -, rfl⟩ := hdecode
  exact Condition.isAbsolute_of_defaulted hconditions

end Heads

namespace Node

variable {fields : List (String × Json)} {n : Node} {ns : List Node}

theorem areAbsolute_of_soleChildren {children : List (Decoded (List Node))}
    (hchildren : ∀ ms, .ok ms ∈ children → AreAbsolute ms)
    (h : soleChildren children = .ok ns) : AreAbsolute ns := by
  match children, h with
  | [], h =>
    cases h
    exact areAbsolute_nil
  | [d], h => exact hchildren ns (h ▸ List.mem_cons_self)

/-- What is declared at a node has absolute paths; so has the whole if what is below has. -/
theorem areAbsolute_of_ofFields {children : List (Decoded (List Node))}
    (hchildren : ∀ ms, .ok ms ∈ children → AreAbsolute ms)
    (h : Node.ofFields fields children = .ok n) : AreAbsolute [n] := by
  suffices hn : (∀ c ∈ n.conditions, c.IsAbsolute) ∧ AreAbsolute n.children from
    areAbsolute_cons.mpr ⟨hn.1, hn.2, areAbsolute_nil⟩
  obtain ⟨kind, -, h⟩ := bind_eq_ok.mp h
  cases kind <;> simp only [bind_eq_ok, pure_eq_ok] at h
  case category | topic =>
    obtain ⟨route, -, ms, hms, rfl⟩ := h
    exact ⟨nofun, areAbsolute_of_soleChildren hchildren hms⟩
  case subcategory =>
    obtain ⟨head, hhead, ms, hms, rfl⟩ := h
    exact ⟨SubcategoryHead.isAbsolute_of_ofFields hhead, areAbsolute_of_soleChildren hchildren hms⟩
  case loop =>
    obtain ⟨head, hhead, ms, hms, rfl⟩ := h
    exact ⟨LoopHead.isAbsolute_of_ofFields hhead, areAbsolute_of_soleChildren hchildren hms⟩
  case gate =>
    obtain ⟨condition, hcondition, ms, hms, rfl⟩ := h
    obtain ⟨j, hj⟩ := Json.exists_of_required hcondition
    exact ⟨List.forall_mem_singleton.mpr (Condition.isAbsolute_of_decode hj),
      areAbsolute_of_soleChildren hchildren hms⟩
  case screen =>
    obtain ⟨head, hhead, rfl⟩ := h
    exact ⟨ScreenHead.isAbsolute_of_ofFields hhead, areAbsolute_nil⟩
  case assertion =>
    obtain ⟨head, hhead, rfl⟩ := h
    exact ⟨AssertionHead.isAbsolute_of_ofFields hhead, areAbsolute_nil⟩

mutual

/-- A decoded node has absolute paths. -/
theorem areAbsolute_of_ofJson : ∀ (j : Json) {n : Node}, Node.ofJson j = .ok n → AreAbsolute [n]
  | .object fields, n, h => by
    rw [Node.ofJson] at h
    exact areAbsolute_of_ofFields (fun ms hms => areAbsolute_of_childrenOf fields hms) h

/-- So do the nodes below one. -/
theorem areAbsolute_of_childrenOf : ∀ (fields : List (String × Json)) {ns : List Node},
    .ok ns ∈ Node.childrenOf fields → AreAbsolute ns
  | (name, value) :: rest, ns, h => by
    rw [Node.childrenOf] at h
    split at h
    · rcases List.mem_cons.mp h with h | h
      · exact areAbsolute_of_listOfJson value h.symm
      · exact areAbsolute_of_childrenOf rest h
    · exact areAbsolute_of_childrenOf rest h

/-- So do the nodes of a list. -/
theorem areAbsolute_of_listOfJson : ∀ (j : Json) {ns : List Node},
    Node.listOfJson j = .ok ns → AreAbsolute ns
  | .array items, ns, h => by
    rw [Node.listOfJson] at h
    exact areAbsolute_of_itemsOfJson items h

/-- So do nodes that are decoded one after the other. -/
theorem areAbsolute_of_itemsOfJson : ∀ (items : List Json) {ns : List Node},
    Node.itemsOfJson items = .ok ns → AreAbsolute ns
  | [], ns, h => by
    cases h
    exact areAbsolute_nil
  | item :: rest, ns, h => by
    rw [Node.itemsOfJson, bind_eq_ok] at h
    obtain ⟨n, hn, h⟩ := h
    obtain ⟨ms, hms, h⟩ := bind_eq_ok.mp h
    obtain rfl := pure_eq_ok.mp h
    obtain ⟨hown, hbelow, -⟩ := areAbsolute_cons.mp (areAbsolute_of_ofJson item hn)
    exact areAbsolute_cons.mpr ⟨hown, hbelow, areAbsolute_of_itemsOfJson rest hms⟩

end

end Node

/-- **A decoded outline has absolute paths.** -/
theorem Outline.isAbsolute_of_ofJson {j : Json} {o : Outline} (h : Outline.ofJson j = .ok o) :
    o.IsAbsolute := by
  simp only [Outline.ofJson, bind_eq_ok, pure_eq_ok] at h
  obtain ⟨fields, -, batches, -, nodes, hnodes, rfl⟩ := h
  obtain ⟨list, hlist⟩ := Json.exists_of_required hnodes
  refine Node.areAbsolute_iff_forall.mpr fun n hn => ?_
  obtain ⟨i, hi⟩ := Json.exists_of_toList_eq_ok hlist n hn
  simp only [Node.topOfJson, bind_eq_ok] at hi
  obtain ⟨-, -, -, -, kind, -, hi⟩ := hi
  exact Node.areAbsolute_of_ofJson i hi

end Interview

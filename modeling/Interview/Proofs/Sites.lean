import Interview.Outline.Entry
import Interview.Outline.WellFormed

/-!
# Entries and sites

An outline is read in two ways: as entries, each with its scope, when a flow is built from it, and
as sites, each with the nodes around it, when it is said which outlines are well-formed. This file
takes both apart in the same way, into a node, what is below it and the nodes after it, and says
what a scope knows of the nodes around (`Scope.Matches`).
-/

namespace Interview

/-! ## Induction on trees -/

namespace Node

variable {Q : List Node → Prop}

mutual

private theorem children_of_node (nil : Q [])
    (cons : ∀ n ns, Q (children n) → Q ns → Q (n :: ns)) : ∀ n : Node, Q n.children
  | .category _ children => nodes_induction nil cons children
  | .subcategory _ children => nodes_induction nil cons children
  | .topic _ children => nodes_induction nil cons children
  | .loop _ children => nodes_induction nil cons children
  | .gate _ children => nodes_induction nil cons children
  | .screen _ => nil
  | .assertion _ => nil

/-- What holds of no nodes, and of a node and those after it if it holds of its children and of
those after it, holds of all nodes. -/
theorem nodes_induction (nil : Q []) (cons : ∀ n ns, Q (children n) → Q ns → Q (n :: ns)) :
    ∀ ns, Q ns
  | [] => nil
  | n :: ns => cons n ns (children_of_node nil cons n) (nodes_induction nil cons ns)

end

/-- The entries of a node that come before those of its children. -/
def opening (sc : Scope) : Node → List Entry
  | category route _ => [⟨sc, .category route⟩]
  | subcategory head _ => [⟨sc, .subcategory head⟩]
  | topic route _ => [⟨sc, .topic route⟩]
  | loop head _ => [⟨sc, .loop head⟩]
  | gate _ _ => []
  | screen head => [⟨sc, .screen head⟩]
  | assertion head => [⟨sc, .assertion head⟩]

/-- The entries of a node that come after those of its children. -/
def closing (sc : Scope) : Node → List Entry
  | loop head _ => [⟨sc, .loopEnd head.name⟩]
  | _ => []

end Node

/-- The scope of the children of a node. -/
def Scope.enter (sc : Scope) : Node → Scope
  | .category route _ => sc.enterCategory route
  | .subcategory head _ => sc.enterSubcategory head
  | .topic route _ => sc.enterTopic route
  | .loop head _ => sc.enterLoop head
  | .gate condition _ => sc.enterGate condition
  | .screen _ | .assertion _ => sc

theorem Node.entries_eq (sc : Scope) (n : Node) : n.entries sc =
    n.opening sc ++ (Node.allEntries (sc.enter n) n.children ++ n.closing sc) := by
  cases n <;> simp [Node.entries, opening, closing, children, Scope.enter, Node.allEntries]

theorem Node.sites_eq (around : List Node) (n : Node) :
    n.sites around = ⟨n, around⟩ :: Node.allSites (n :: around) n.children := by
  cases n <;> simp [Node.sites, children, Node.allSites]

/-- Which nodes there are does not depend on those around. -/
theorem Node.map_node_allSites (ns : List Node) (around around' : List Node) :
    (Node.allSites around ns).map (·.node) = (Node.allSites around' ns).map (·.node) := by
  induction ns using Node.nodes_induction generalizing around around' with
  | nil => rfl
  | cons n ns children rest =>
    simp only [allSites, sites_eq, List.map_append, List.map_cons]
    rw [children (n :: around) (n :: around'), rest around around']

theorem Node.exists_mem_allSites (ns : List Node) (around : List Node) (kind : Placed) :
    (∃ y ∈ Node.allSites around ns, y.node.kind? = some kind) ↔
      ∃ y ∈ Node.allSites [] ns, y.node.kind? = some kind := by
  have hmap (around : List Node) : (∃ y ∈ Node.allSites around ns, y.node.kind? = some kind) ↔
      ∃ n ∈ (Node.allSites around ns).map (·.node), n.kind? = some kind := by
    constructor
    · rintro ⟨y, hy, hkind⟩
      exact ⟨y.node, List.mem_map_of_mem hy, hkind⟩
    · rintro ⟨n, hn, hkind⟩
      obtain ⟨y, hy, rfl⟩ := List.mem_map.mp hn
      exact ⟨y, hy, hkind⟩
  rw [hmap around, hmap [], Node.map_node_allSites ns around []]

/-! ## Scopes -/

/-- A scope tells what the nodes around are. -/
structure Scope.Matches (sc : Scope) (around : List Node) : Prop where
  category : sc.category = categoryAround around
  subcategory : sc.subcategory = subcategoryAround around
  topic : sc.topic.isSome ↔ ∃ n ∈ around, n.kind? = some .topic
  loop : sc.loop.isSome ↔ ∃ n ∈ around, n.kind? = some .loop
  /-- Outside of loops, the collection is that of a subcategory around. -/
  collection : sc.loop = none → (sc.collection.isSome ↔ ∃ n ∈ around, n.subject?.isSome)

theorem isSome_categoryAround (around : List Node) :
    (categoryAround around).isSome ↔ ∃ n ∈ around, n.kind? = some .category := by
  induction around with
  | nil => simp
  | cons n around ih => cases n <;> simp [Node.kind?, ih]

theorem isSome_subcategoryAround (around : List Node) :
    (subcategoryAround around).isSome ↔ ∃ n ∈ around, n.kind? = some .subcategory := by
  induction around with
  | nil => simp
  | cons n around ih => cases n <;> simp [Node.kind?, ih]

namespace Scope.Matches

variable {sc : Scope} {around : List Node}

theorem outermost : Scope.outermost.Matches [] := by
  constructor <;> simp [Scope.outermost]

/-- The scope below a node tells of it and of the nodes around it. -/
theorem enter (hsc : sc.Matches around) (n : Node) : (sc.enter n).Matches (n :: around) where
  category := by
    cases n with
    | category route children => rfl
    | subcategory | topic | loop | gate | screen | assertion => exact hsc.category
  subcategory := by
    cases n with
    | subcategory head children =>
      show some (Scope.below sc.category head.route) = _
      rw [hsc.category]
      rfl
    | category | topic | loop | gate | screen | assertion => exact hsc.subcategory
  topic := by
    simp only [List.mem_cons, exists_eq_or_imp]
    cases n with
    | topic route children => exact iff_of_true rfl (.inl rfl)
    | category | subcategory | loop | gate | screen | assertion =>
      exact hsc.topic.trans (or_iff_right nofun).symm
  loop := by
    simp only [List.mem_cons, exists_eq_or_imp]
    cases n with
    | loop head children => exact iff_of_true rfl (.inl rfl)
    | category | subcategory | topic | gate | screen | assertion =>
      exact hsc.loop.trans (or_iff_right nofun).symm
  collection := by
    simp only [List.mem_cons, exists_eq_or_imp]
    intro hout
    cases n with
    | subcategory head children =>
      -- a subcategory that is about no collection goes on with that around it
      show (head.collection.or sc.collection).isSome ↔ head.collection.isSome ∨ _
      rw [Option.isSome_or, Bool.or_eq_true, hsc.collection hout]
    | loop head children => cases hout
    | category | topic | gate | screen | assertion =>
      exact (hsc.collection hout).trans (or_iff_right nofun).symm

theorem category_eq_none (hsc : sc.Matches around) (n : Node) :
    sc.category = none ↔ ¬ Site.LiesIn ⟨n, around⟩ .category := by
  rw [hsc.category, Site.LiesIn, ← isSome_categoryAround]
  simp

theorem exists_category (hsc : sc.Matches around) (n : Node) :
    (∃ c, sc.category = some c) ↔ Site.LiesIn ⟨n, around⟩ .category := by
  rw [hsc.category, Site.LiesIn, ← isSome_categoryAround, Option.isSome_iff_exists]

theorem subcategory_eq_none (hsc : sc.Matches around) (n : Node) :
    sc.subcategory = none ↔ ¬ Site.LiesIn ⟨n, around⟩ .subcategory := by
  rw [hsc.subcategory, Site.LiesIn, ← isSome_subcategoryAround]
  simp

theorem exists_subcategory (hsc : sc.Matches around) (n : Node) :
    (∃ r, sc.subcategory = some r) ↔ Site.LiesIn ⟨n, around⟩ .subcategory := by
  rw [hsc.subcategory, Site.LiesIn, ← isSome_subcategoryAround, Option.isSome_iff_exists]

theorem loop_eq_none (hsc : sc.Matches around) (n : Node) :
    sc.loop = none ↔ ¬ Site.LiesIn ⟨n, around⟩ .loop := by
  rw [Site.LiesIn, ← hsc.loop]
  simp

end Scope.Matches

end Interview

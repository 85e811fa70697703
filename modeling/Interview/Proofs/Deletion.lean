import Interview.Proofs.Entries

/-!
# Taking a node out of an outline

When a category or a subcategory is taken out of an outline from which a flow is built, a flow is
built from the rest as well, if there is still a screen (`Flow.exists_build_of_deletion`): only
categories and gates stand around such a node, so nothing that is left needs it, and the routes and
names that are left still differ. The entries of the rest are those before and those after the node
(`Flow.exists_entries_eq`).
-/

namespace Interview

namespace Node

/-! ## Deletion -/

/-- A node with other nodes below it. -/
def withChildren : Node → List Node → Node
  | category route _, children => category route children
  | subcategory head _, children => subcategory head children
  | topic route _, children => topic route children
  | loop head _, children => loop head children
  | gate condition _, children => gate condition children
  | screen head, _ => screen head
  | assertion head, _ => assertion head

/-- The second list has the nodes of the first without one, which stands anywhere among or below
them. -/
inductive Deletion (n : Node) : List Node → List Node → Prop where
  | here (rest : List Node) : Deletion n (n :: rest) rest
  | later (m : Node) {ns ns' : List Node} (h : Deletion n ns ns') : Deletion n (m :: ns) (m :: ns')
  | inside (m : Node) {children : List Node} (rest : List Node)
      (h : Deletion n m.children children) :
      Deletion n (m :: rest) (m.withChildren children :: rest)

@[simp] theorem opening_withChildren (m : Node) (children : List Node) (sc : Scope) :
    (m.withChildren children).opening sc = m.opening sc := by
  cases m <;> rfl

@[simp] theorem closing_withChildren (m : Node) (children : List Node) (sc : Scope) :
    (m.withChildren children).closing sc = m.closing sc := by
  cases m <;> rfl

@[simp] theorem enter_withChildren (m : Node) (children : List Node) (sc : Scope) :
    sc.enter (m.withChildren children) = sc.enter m := by
  cases m <;> rfl

theorem children_withChildren {m : Node} (hm : m.children ≠ []) (children : List Node) :
    (m.withChildren children).children = children := by
  cases m with
  | category | subcategory | topic | loop | gate => rfl
  | screen | assertion => exact absurd rfl hm

namespace Deletion

variable {n m : Node} {ns ns' : List Node}

theorem ne_nil (h : Deletion n ns ns') : ns ≠ [] := by
  cases h <;> exact List.cons_ne_nil _ _

/-- The entries of a node with one taken out below it. -/
theorem entries_withChildren {children : List Node} (h : Deletion n m.children children)
    (sc : Scope) : (m.withChildren children).entries sc =
      m.opening sc ++ (Node.allEntries (sc.enter m) children ++ m.closing sc) := by
  rw [Node.entries_eq, children_withChildren h.ne_nil]
  simp

end Deletion

/-- A category or a subcategory. -/
def IsSection (n : Node) : Prop :=
  n.kind? = some .category ∨ n.kind? = some .subcategory

end Node

namespace Flow

variable {f g : Flow} {sc : Scope} {around : List Node} {n m : Node} {ns ns' : List Node}

/-! ## Building from the rest -/

/-- Sections lie in no subcategory. -/
theorem subcategory_eq_none_of_opening (hopen : sc.IsOpen f) (hn : n.IsSection)
    (hopening : (n.opening sc).foldlM add f = .ok g) : sc.subcategory = none := by
  cases n with
  | category route children =>
    rw [Node.opening, foldlM_singleton] at hopening
    exact subcategory_none hopen (addCategory_eq_ok.mp hopening).1
  | subcategory head children =>
    rw [Node.opening, foldlM_singleton] at hopening
    obtain ⟨c, -, hsub, -⟩ := addSubcategory_eq_ok.mp hopening
    exact hsub
  | topic | loop | gate | screen | assertion => simp [Node.IsSection, Node.kind?] at hn

theorem subcategory_eq_none_of_deletion (h : Node.Deletion n ns ns') (hn : n.IsSection)
    (hf : f.Arranged ∧ sc.IsOpen f) (htakes : (Node.allEntries sc ns).foldlM add f = .ok g) :
    sc.subcategory = none := by
  induction h generalizing sc f g with
  | here rest =>
    obtain ⟨f₂, hfirst, -⟩ := takes_cons_iff.mp htakes
    obtain ⟨f₁, hopening, -⟩ := takes_node_iff.mp hfirst
    exact subcategory_eq_none_of_opening hf.2 hn hopening
  | later m h ih =>
    obtain ⟨f₂, hfirst, hrest⟩ := takes_cons_iff.mp htakes
    exact ih (kept_arranged.of_node m hf hfirst) hrest
  | inside m rest h ih =>
    obtain ⟨f₂, hfirst, -⟩ := takes_cons_iff.mp htakes
    obtain ⟨f₁, hopening, hchildren, -⟩ := takes_node_iff.mp hfirst
    have hinside := ih (kept_arranged.of_opening hf m hopening) hchildren
    cases m with
    | subcategory head children => cases hinside
    | category | topic | loop | gate | screen | assertion => exact hinside

/-- Nothing is checked when a node around a section is left. -/
theorem closing_eq_nil_of_deletion {children : List Node} (h : Node.Deletion n m.children children)
    (hn : n.IsSection) (hf : f.Arranged ∧ sc.IsOpen f)
    (htakes : (m.entries sc).foldlM add f = .ok g) : m.closing sc = [] := by
  obtain ⟨f₁, hopening, hchildren, -⟩ := takes_node_iff.mp htakes
  have hf₁ := kept_arranged.of_opening hf m hopening
  have hinside := subcategory_eq_none_of_deletion h hn hf₁ hchildren
  cases m with
  | loop head children =>
    -- a loop lies in a subcategory
    rw [Node.opening, foldlM_singleton] at hopening
    obtain ⟨r, c, fullRoute, hsub, -⟩ := addLoop_eq_ok.mp hopening
    cases hsub.symm.trans hinside
  | category | subcategory | topic | gate | screen | assertion => rfl

/-- Nodes that are taken are taken as well if fewer routes and names are taken before. -/
theorem exists_takes_of_sublist {f' : Flow} (hf : f.Arranged ∧ sc.IsOpen f)
    (hf' : f'.Arranged ∧ sc.IsOpen f') (hsc : sc.Matches around)
    (hbatches : f'.batches = f.batches) (hnames : ∀ k, (f'.names k).Sublist (f.names k))
    (htakes : (Node.allEntries sc ns).foldlM add f = .ok g) :
    ∃ g', (Node.allEntries sc ns).foldlM add f' = .ok g' ∧
      ∀ k, (g'.names k).Sublist (g.names k) := by
  obtain ⟨hsound, hroom⟩ := (exists_takes_iff hf.1 hf.2 hsc).mp ⟨g, htakes⟩
  have hroom' : f'.HasRoomFor (Node.allSites around ns) := fun k =>
    (hroom k).sublist ((hnames k).append_right _)
  rw [← hbatches] at hsound
  obtain ⟨g', htakes'⟩ := (exists_takes_iff hf'.1 hf'.2 hsc).mpr ⟨hsound, hroom'⟩
  refine ⟨g', htakes', fun k => ?_⟩
  rw [takesNames_of_nodes hsc htakes k, takesNames_of_nodes hsc htakes' k]
  exact (hnames k).append_right _

/-- **Without a section, the other nodes are taken as well**, and with them fewer routes and
names. -/
theorem exists_takes_of_deletion (h : Node.Deletion n ns ns') (hn : n.IsSection)
    (hf : f.Arranged ∧ sc.IsOpen f) (hsc : sc.Matches around)
    (htakes : (Node.allEntries sc ns).foldlM add f = .ok g) :
    ∃ g', (Node.allEntries sc ns').foldlM add f = .ok g' ∧
      ∀ k, (g'.names k).Sublist (g.names k) := by
  induction h generalizing sc f g around with
  | here rest =>
    obtain ⟨f₂, hfirst, hrest⟩ := takes_cons_iff.mp htakes
    have hgrow := growsTo_of_foldlM hfirst
    have hnames : ∀ k, (f.names k).Sublist (f₂.names k) := by
      intro k
      have hnode : (Node.allEntries sc [n]).foldlM add f = .ok f₂ :=
        takes_cons_iff.mpr ⟨f₂, hfirst, rfl⟩
      rw [takesNames_of_nodes hsc hnode k]
      exact List.sublist_append_left _ _
    exact exists_takes_of_sublist (kept_arranged.of_node n hf hfirst) hf hsc hgrow.batches hnames
      hrest
  | later m h ih =>
    obtain ⟨f₂, hfirst, hrest⟩ := takes_cons_iff.mp htakes
    obtain ⟨g', hrest', hnames⟩ := ih (kept_arranged.of_node m hf hfirst) hsc hrest
    exact ⟨g', takes_cons_iff.mpr ⟨f₂, hfirst, hrest'⟩, hnames⟩
  | @inside m children rest h ih =>
    obtain ⟨f₂, hfirst, hrest⟩ := takes_cons_iff.mp htakes
    have hclosing := closing_eq_nil_of_deletion h hn hf hfirst
    obtain ⟨f₁, hopening, hchildren, -⟩ := takes_node_iff.mp hfirst
    have hf₁ := kept_arranged.of_opening hf m hopening
    obtain ⟨f₂', hchildren', hnames⟩ := ih hf₁ (hsc.enter m) hchildren
    have hfirst' : ((m.withChildren children).entries sc).foldlM add f = .ok f₂' := by
      rw [h.entries_withChildren, hclosing, List.append_nil, List.foldlM_append]
      exact bind_eq_ok.mpr ⟨f₁, hopening, hchildren'⟩
    have hbatches : f₂'.batches = f₂.batches :=
      (growsTo_of_foldlM hfirst').batches.symm.trans (growsTo_of_foldlM hfirst).batches
    obtain ⟨g', hrest', hnames'⟩ := exists_takes_of_sublist (kept_arranged.of_node m hf hfirst)
      (kept_arranged.of_node _ hf hfirst') hsc hbatches hnames hrest
    exact ⟨g', takes_cons_iff.mpr ⟨f₂', hfirst', hrest'⟩, hnames'⟩

/-- **A flow is built without a section as well**, if there is still a screen. -/
theorem exists_build_of_deletion {o : Outline} (hbuild : build o = .ok f)
    (h : Node.Deletion n o.nodes ns') (hn : n.IsSection)
    (hscreen : ∃ x ∈ Node.allSites [] ns', x.node.kind? = some .screen) :
    ∃ f', build { o with nodes := ns' } = .ok f' := by
  obtain ⟨hfold, -⟩ := build_eq_ok.mp hbuild
  obtain ⟨f', hfold', -⟩ := exists_takes_of_deletion h hn
    ⟨arranged_empty o.batches, isOpen_outermost _⟩ Scope.Matches.outermost hfold
  have hne : f'.screens ≠ [] :=
    (screens_ne_nil_iff (o := { o with nodes := ns' }) hfold').mpr hscreen
  exact ⟨f', build_eq_ok.mpr ⟨hfold', hne⟩⟩

/-! ## Entries of the rest -/

/-- The entries that are left are those before and those after the node that is taken out, which is
taken in a flow that has been built so far. -/
theorem exists_entries_eq {P : Scope → Flow → Prop} (hP : Kept P) (h : Node.Deletion n ns ns')
    (hf : P sc f) (htakes : (Node.allEntries sc ns).foldlM add f = .ok g) :
    ∃ before sc' after f₁ f₂, Node.allEntries sc ns = before ++ n.entries sc' ++ after ∧
      Node.allEntries sc ns' = before ++ after ∧ P sc' f₁ ∧
      (n.entries sc').foldlM add f₁ = .ok f₂ ∧ f₂.GrowsTo g := by
  induction h generalizing sc f g with
  | here rest =>
    obtain ⟨f₂, hfirst, hrest⟩ := takes_cons_iff.mp htakes
    exact ⟨[], sc, Node.allEntries sc rest, f, f₂, rfl, rfl, hf, hfirst, growsTo_of_foldlM hrest⟩
  | later m h ih =>
    obtain ⟨f', hfirst, hrest⟩ := takes_cons_iff.mp htakes
    obtain ⟨before, sc', after, f₁, f₂, hns, hns', htaken⟩ := ih (hP.of_node m hf hfirst) hrest
    refine ⟨m.entries sc ++ before, sc', after, f₁, f₂, ?_, ?_, htaken⟩
    · simp [Node.allEntries, hns]
    · simp [Node.allEntries, hns']
  | inside m rest h ih =>
    obtain ⟨f', hfirst, hrest⟩ := takes_cons_iff.mp htakes
    obtain ⟨f'', hopening, hchildren, -⟩ := takes_node_iff.mp hfirst
    obtain ⟨before, sc', after, f₁, f₂, hns, hns', hf₁, htaken, hgrow⟩ :=
      ih (hP.of_opening hf m hopening) hchildren
    refine ⟨m.opening sc ++ before, sc', after ++ m.closing sc ++ Node.allEntries sc rest, f₁, f₂,
      ?_, ?_, hf₁, htaken, hgrow.trans (growsTo_of_foldlM hrest)⟩
    · simp [Node.allEntries, Node.entries_eq, hns]
    · simp [Node.allEntries, h.entries_withChildren, hns']

end Flow

end Interview

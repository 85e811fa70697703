import Interview.Proofs.Flattening

/-!
# Publication status

What the batches of a screen say about it is said of the names before the first one that is not
registered: the screen is open if one of them has an unfinished batch, locked if one of them has a
batch in review, and publishable if it is not open (`Batch.tells_screenStatus`). In general the
order of the names matters, as it decides which of them come before. But a screen of a graph lists
registered names only (`Flow.listsBatches_of_build`), so its status depends on nothing but the set
of batches that its content carries (`Graph.status_told_by_batches`).
-/

namespace Interview

/-! ## Lists of names -/

namespace Batch

variable {registry : Registry} {name : String} {names names' : List String} {b : Batch}
  {status status' : ScreenStatus}

/-- The names before the first one that is not registered. -/
def registered (registry : Registry) (names : List String) : List String :=
  names.takeWhile fun name => (registry.get? name).isSome

/-- They are the longest beginning of registered names: its beginnings are those that consist of
registered names. -/
theorem isPrefix_registered_iff {first : List String} : first <+: registered registry names ↔
    first <+: names ∧ ∀ name ∈ first, (registry.get? name).isSome = true := by
  constructor
  · intro h
    refine ⟨h.trans (List.takeWhile_prefix _), fun name hname => ?_⟩
    have hmem : name ∈ names.takeWhile fun name => (registry.get? name).isSome := h.subset hname
    exact List.mem_takeWhile_imp (p := fun name => (registry.get? name).isSome) hmem
  · rintro ⟨⟨rest, rfl⟩, hfirst⟩
    unfold registered
    rw [List.takeWhile_append_of_pos hfirst]
    exact List.prefix_append _ _

theorem registered_eq_self (h : ∀ name ∈ names, (registry.get? name).isSome = true) :
    registered registry names = names :=
  List.takeWhile_eq_self_iff.mpr h

theorem Status.isReview_iff (step : Status) :
    step.isReview = true ↔ step ∈ [firstReview, secondReview, translationCheck] := by
  cases step <;> decide

/-- A status says of a screen what follows from the batches with given names. -/
structure ScreenStatus.Tells (status : ScreenStatus) (registry : Registry) (names : List String) :
    Prop where
  /-- It is open if there is an unfinished batch. -/
  isOpen : status.isOpen = true ↔
    ∃ name ∈ names, ∃ b, registry.get? name = some b ∧ b.status ≠ .complete
  /-- It is locked if there is a batch in one of the reviews or in the check of its translation. -/
  isLocked : status.isLocked = true ↔ ∃ name ∈ names, ∃ b, registry.get? name = some b ∧
    b.status ∈ [Status.firstReview, .secondReview, .translationCheck]
  isPublishable : status.isPublishable = true ↔ ¬ status.isOpen = true

namespace ScreenStatus.Tells

theorem initial : ScreenStatus.initial.Tells registry [] where
  isOpen := by simp [ScreenStatus.initial]
  isLocked := by simp [ScreenStatus.initial]
  isPublishable := by simp [ScreenStatus.initial]

/-- One more batch. -/
theorem add (h : status.Tells registry names) (hb : registry.get? name = some b) :
    (status.add b.status).Tells registry (names ++ [name]) where
  isOpen := by
    simp [ScreenStatus.add, h.isOpen, or_and_right, exists_or, hb]
  isLocked := by
    simp only [ScreenStatus.add, Bool.or_eq_true, h.isLocked, Status.isReview_iff]
    simp [or_and_right, exists_or, hb]
  isPublishable := by
    simp [ScreenStatus.add, h.isPublishable]

/-- The batches up to the first name that is not registered. -/
theorem addAll (h : status.Tells registry names) (more : List String) :
    (ScreenStatus.addAll registry more status).Tells registry
      (names ++ registered registry more) := by
  induction more generalizing status names with
  | nil =>
    rw [registered, List.takeWhile_nil, List.append_nil]
    exact h
  | cons name more ih =>
    unfold ScreenStatus.addAll registered
    cases hname : registry.get? name with
    | some b =>
      rw [List.takeWhile_cons_of_pos (by rw [hname]; rfl), List.append_cons]
      exact ih (h.add hname)
    | none =>
      rw [List.takeWhile_cons_of_neg (by rw [hname]; decide), List.append_nil]
      exact h

/-- A locked screen is open, so it cannot be published. -/
theorem of_isLocked (h : status.Tells registry names) (hlocked : status.isLocked = true) :
    status.isOpen = true ∧ status.isPublishable = false := by
  obtain ⟨name, hname, b, hb, hreview⟩ := h.isLocked.mp hlocked
  have hopen : status.isOpen = true := by
    refine h.isOpen.mpr ⟨name, hname, b, hb, fun hcomplete => ?_⟩
    rw [hcomplete] at hreview
    exact absurd hreview (by decide)
  refine ⟨hopen, Bool.eq_false_iff.mpr fun hpublishable => ?_⟩
  exact h.isPublishable.mp hpublishable hopen

/-- What is said of the same names is the same. -/
theorem eq_of_mem_iff (h : status.Tells registry names) (h' : status'.Tells registry names')
    (hnames : ∀ name, name ∈ names ↔ name ∈ names') : status = status' := by
  have hopen : status.isOpen = status'.isOpen := by
    rw [Bool.eq_iff_iff, h.isOpen, h'.isOpen]
    simp only [hnames]
  have hlocked : status.isLocked = status'.isLocked := by
    rw [Bool.eq_iff_iff, h.isLocked, h'.isLocked]
    simp only [hnames]
  have hpublishable : status.isPublishable = status'.isPublishable := by
    rw [Bool.eq_iff_iff, h.isPublishable, h'.isPublishable, hopen]
  cases status
  cases status'
  exact congr (congr (congrArg _ hopen) hlocked) hpublishable

end ScreenStatus.Tells

theorem tells_screenStatus (names : List String) (registry : Registry) :
    (screenStatus names registry).Tells registry (registered registry names) :=
  ScreenStatus.Tells.initial.addAll names

end Batch

/-! ## Screens -/

/-- The content of a screen belongs to a batch. -/
def Screen.Carries (s : Screen) (name : String) : Prop :=
  ∃ e ∈ s.content, name ∈ e.batches

theorem Screen.mem_batchNames {content : List Element} {name : String} :
    name ∈ batchNames content ↔ ∃ e ∈ content, name ∈ e.batches := by
  rw [batchNames_eq, List.mem_eraseDups, List.mem_flatMap]

theorem Screen.nodup_batchNames (content : List Element) : (batchNames content).Nodup := by
  have hfold (more : List String) {names : List String} (h : names.Nodup) :
      (more.foldl (fun names name => if names.contains name then names else names ++ [name])
        names).Nodup := by
    induction more generalizing names with
    | nil => exact h
    | cons name more ih =>
      rw [List.foldl_cons]
      refine ih ?_
      split
      · exact h
      · next hnew =>
        rw [List.contains_iff_mem] at hnew
        rw [← List.concat_eq_append]
        exact h.concat hnew
  exact hfold _ .nil

/-- A screen lists the batches of its content, each once, and all of them are registered. -/
structure Screen.ListsBatches (s : Screen) (registry : Batch.Registry) : Prop where
  nodup : s.batches.Nodup
  mem_iff : ∀ name, name ∈ s.batches ↔ s.Carries name
  registered : ∀ name ∈ s.batches, (registry.get? name).isSome = true

/-- The status of such a screen is what all its batches say. -/
theorem Screen.ListsBatches.tells {s : Screen} {registry : Batch.Registry}
    (h : s.ListsBatches registry) :
    (Batch.screenStatus s.batches registry).Tells registry s.batches := by
  have hstatus := Batch.tells_screenStatus s.batches registry
  rwa [Batch.registered_eq_self h.registered] at hstatus

theorem Flow.listsBatches_of_build {o : Outline} {f : Flow} (hbuild : build o = .ok f) {s : Screen}
    (hs : s ∈ f.screens) : s.ListsBatches f.batches := by
  have hregistry : o.batches = f.batches :=
    (growsTo_of_foldlM (build_eq_ok.mp hbuild).1).batches
  have hsound := ((exists_build_iff o).mp ⟨f, hbuild⟩).screens
  rw [screens_of_build hbuild] at hs
  obtain ⟨⟨node, around⟩, hx, hscreen⟩ := List.mem_filterMap.mp hs
  cases node with
  | screen head =>
    have hcontent : s.content = head.content := by
      rw [← Option.some.inj hscreen]
    have hbatches : s.batches = Screen.batchNames s.content := by
      rw [Screen.batchNames_eq, ← Option.some.inj hscreen]
    have hmem (name : String) : name ∈ s.batches ↔ s.Carries name := by
      rw [hbatches]
      exact Screen.mem_batchNames
    refine ⟨?_, hmem, fun name hname => ?_⟩
    · rw [hbatches]
      exact Screen.nodup_batchNames _
    · obtain ⟨e, he, hcarried⟩ := (hmem name).mp hname
      rw [hcontent] at he
      rw [← hregistry]
      exact (hsound _ hx head rfl).batches e he name hcarried
  | category | subcategory | topic | loop | gate | assertion => cases hscreen

open Batch in
/-- **Publication status.** For every list of names, the status is what the batches of its longest
beginning of registered names say: open if one is unfinished, publishable if the screen is not open,
locked if one is in review; a locked screen is open and cannot be published. A screen of a graph
lists the batches of its content, each once and all of them registered. Its status is what all of
them say, and it is that of every screen, also of another graph with the same batches, whose content
carries the same ones. -/
theorem Graph.status_told_by_batches :
    (∀ registry names,
      (∀ first, first <+: registered registry names ↔
        first <+: names ∧ ∀ name ∈ first, (registry.get? name).isSome = true) ∧
      (screenStatus names registry).Tells registry (registered registry names) ∧
      ((screenStatus names registry).isLocked = true →
        (screenStatus names registry).isOpen = true ∧
          (screenStatus names registry).isPublishable = false)) ∧
    ∀ o G, Graph.build o = .ok G → ∀ s ∈ G.screens,
      s.ListsBatches G.batches ∧
      (screenStatus s.batches G.batches).Tells G.batches s.batches ∧
      ∀ o' G', Graph.build o' = .ok G' → G'.batches = G.batches → ∀ s' ∈ G'.screens,
        (∀ name, s'.Carries name ↔ s.Carries name) →
          screenStatus s'.batches G'.batches = screenStatus s.batches G.batches := by
  refine ⟨fun registry names => ?_, fun o G hbuild s hs => ?_⟩
  · have htells := tells_screenStatus names registry
    exact ⟨fun first => isPrefix_registered_iff, htells, htells.of_isLocked⟩
  · obtain ⟨f, hflow, rfl⟩ := Graph.build_eq_ok.mp hbuild
    have hlists : s.ListsBatches f.batches := Flow.listsBatches_of_build hflow hs
    refine ⟨hlists, hlists.tells, fun o' G' hbuild' hbatches s' hs' hcarries => ?_⟩
    obtain ⟨f', hflow', rfl⟩ := Graph.build_eq_ok.mp hbuild'
    have hlists' : s'.ListsBatches f'.batches := Flow.listsBatches_of_build hflow' hs'
    have htells' : (screenStatus s'.batches f'.batches).Tells f.batches s'.batches := by
      have hregistry : f'.batches = f.batches := hbatches
      have htells' := hlists'.tells
      rwa [hregistry] at htells' ⊢
    refine htells'.eq_of_mem_iff hlists.tells fun name => ?_
    rw [hlists'.mem_iff, hlists.mem_iff]
    exact hcarries name

/-! ## An example

Two pages carry the same batches in different order, and one of them carries one twice. -/

namespace Household

/-- A page whose heading and button belong to batches. -/
def reviewedPage (route : String) (heading button : List String) : Node :=
  .screen ⟨route, none, none, false, false, false,
    [⟨.heading route, [], heading⟩, ⟨.saveAndContinue, [], button⟩]⟩

/-- A batch that is complete, one that is being reviewed, and one that has just been begun. -/
def reviewedBatches : Batch.Registry :=
  [("done", Batch.Status.complete), ("read", .secondReview), ("begun", .inProgress)].foldl
    (fun t (name, status) => t.insert name ⟨.content, status, none, []⟩) .empty

/-- Three pages with content of the batches. -/
def reviewedOutline : Outline where
  batches := reviewedBatches
  nodes := [.category "you" [.subcategory ⟨"family", [], [], false, false, false, none⟩
    [reviewedPage "name" ["done", "read"] ["read"], reviewedPage "age" ["read"] ["done"],
     reviewedPage "work" ["done"] ["begun"]]]]

/-- The flow of the outline. -/
def reviewedFlow : Flow :=
  (Flow.build reviewedOutline).toOption.getD (.empty .empty)

end Household

open Household Batch in
/-- The first two pages are locked, whichever batch comes first. Where a name is not registered,
what comes after it says nothing. -/
theorem Graph.status_told_household :
    Graph.build reviewedOutline = .ok reviewedFlow.graph ∧
    ∃ name age work, reviewedFlow.graph.screens = [name, age, work] ∧
      name.batches = ["done", "read"] ∧ age.batches = ["read", "done"] ∧
      (∀ batch, age.Carries batch ↔ name.Carries batch) ∧
      screenStatus age.batches reviewedBatches = screenStatus name.batches reviewedBatches ∧
      screenStatus name.batches reviewedBatches = ⟨true, true, false⟩ ∧
      screenStatus work.batches reviewedBatches = ⟨true, false, false⟩ ∧
      screenStatus ["done", "lost", "read"] reviewedBatches = ⟨false, false, true⟩ ∧
      registered reviewedBatches ["done", "lost", "read"] = ["done"] := by
  have hbuild : Graph.build reviewedOutline = .ok reviewedFlow.graph :=
    Graph.build_eq_ok.mpr ⟨reviewedFlow, rfl, rfl⟩
  have hscreens : ∃ name age work, reviewedFlow.graph.screens = [name, age, work] ∧
      name.batches = ["done", "read"] ∧ age.batches = ["read", "done"] ∧
      work.batches = ["done", "begun"] :=
    ⟨_, _, _, rfl, rfl, rfl, rfl⟩
  obtain ⟨name, age, work, heq, hname, hage, hwork⟩ := hscreens
  obtain ⟨-, hgraphs⟩ := Graph.status_told_by_batches
  have hmem {s : Screen} (hs : s ∈ [name, age, work]) : s ∈ reviewedFlow.graph.screens := heq ▸ hs
  obtain ⟨hlists, -, hsame⟩ := hgraphs _ _ hbuild name (hmem (by simp))
  obtain ⟨hlists', -, -⟩ := hgraphs _ _ hbuild age (hmem (by simp))
  have hcarries : ∀ batch, age.Carries batch ↔ name.Carries batch := by
    intro batch
    rw [← hlists.mem_iff, ← hlists'.mem_iff, hname, hage]
    simp [or_comm]
  refine ⟨hbuild, name, age, work, heq, hname, hage, hcarries,
    hsame _ _ hbuild rfl age (hmem (by simp)) hcarries, ?_, ?_, rfl, rfl⟩
  · rw [hname]
    rfl
  · rw [hwork]
    rfl

end Interview

import Interview.Proofs.Arrangement
import Interview.Session

/-!
# One view of changing facts

The store behind a snapshot may change at any time, and yet all answers agree with one assignment of
facts that does not change: every path has the fact that it had when it was read first, and it is
read no more than once. The assignment is known only afterwards, from the record of the reads, so
the statements that an induction carries along are about every record that goes on from the one so
far (`View.Leads`).

This is what makes the statements over `Reading.run` statements about the engine: whatever is shown
of a question in front of fixed facts holds of the same question asked of a snapshot.
-/

namespace Interview

universe u v

variable {σ : Type} {α : Type u} {get : Source σ} {ctx : Context}

/-! ## Records of reads -/

/-- The assignment of facts that a record of reads shows; a path that has not been read has any
fact. -/
def frozen (log : List (String × Fact)) (others : String → Fact) (path : String) : Fact :=
  (log.lookup path).getD (others path)

/-- What has been read first stays as it is when the record goes on. -/
theorem frozen_of_isPrefix {log log' : List (String × Fact)} {path : String} {fact : Fact}
    (hlog : log <+: log') (h : log.lookup path = some fact) (others : String → Fact) :
    frozen log' others path = fact := by
  obtain ⟨rest, rfl⟩ := hlog
  simp [frozen, List.lookup_append, h]

theorem lookup_eq_none {log : List (String × Fact)} {path : String} :
    log.lookup path = none ↔ path ∉ log.map Prod.fst := by
  rw [List.lookup_eq_none_iff]
  constructor
  · intro h hmem
    obtain ⟨entry, hentry, rfl⟩ := List.mem_map.mp hmem
    simpa using h entry hentry
  · intro h entry hentry
    have hne : path ≠ entry.1 := fun heq => h (heq ▸ List.mem_map_of_mem hentry)
    simpa using hne

namespace View

/-- The paths that have been read. -/
def paths (v : View (Recorded σ)) : List String :=
  v.store.log.map Prod.fst

/-- The snapshot remembers what the store has on record, and no path has been read twice. -/
structure IsExact (v : View (Recorded σ)) : Prop where
  remembered : v.snapshot.seen = v.store.log
  once : v.paths.Nodup

/-- What a view has become when paths have been asked for: there is nothing new on record about
those that it had read, and the others that were asked for have been read. -/
structure Leads (v v' : View (Recorded σ)) (requested : List String) : Prop where
  exact : v'.IsExact
  log : v.store.log <+: v'.store.log
  mem_paths : ∀ path, path ∈ v'.paths ↔ path ∈ v.paths ∨ path ∈ requested

theorem isExact_of (store : σ) : (View.of (Recorded.unread store)).IsExact :=
  ⟨rfl, List.nodup_nil⟩

theorem Leads.refl {v : View (Recorded σ)} (hv : v.IsExact) : v.Leads v [] :=
  ⟨hv, List.prefix_refl _, by simp⟩

theorem Leads.trans {v w x : View (Recorded σ)} {ps qs : List String} (hvw : v.Leads w ps)
    (hwx : w.Leads x qs) : v.Leads x (ps ++ qs) where
  exact := hwx.exact
  log := hvw.log.trans hwx.log
  mem_paths path := by
    rw [hwx.mem_paths, hvw.mem_paths, List.mem_append, or_assoc]

/-! ## One read -/

/-- A fact that is read through a snapshot is the one that the record shows from then on. -/
theorem leads_get (get : Source σ) {v : View (Recorded σ)} (hv : v.IsExact) (path : String) :
    v.Leads (v.get get.recorded path).2 [path] ∧
      ∀ log others, (v.get get.recorded path).2.store.log <+: log →
        (v.get get.recorded path).1 = frozen log others path := by
  unfold View.get
  rw [Snapshot.known?, hv.remembered]
  cases hknown : v.store.log.lookup path with
  | some fact =>
    have hmem : path ∈ v.paths := by
      by_contra hnot
      rw [lookup_eq_none.mpr hnot] at hknown
      cases hknown
    refine ⟨⟨hv, List.prefix_refl _, fun p => ?_⟩, fun log others hlog => ?_⟩
    · rw [List.mem_singleton]
      exact ⟨.inl, fun h => h.elim id fun heq => heq ▸ hmem⟩
    · exact (frozen_of_isPrefix hlog hknown others).symm
  | none =>
    -- the store is read, and the path is the last one on record
    have hnew : path ∉ v.paths := lookup_eq_none.mp hknown
    refine ⟨⟨⟨?_, ?_⟩, List.prefix_append _ _, fun p => ?_⟩, fun log others hlog => ?_⟩
    · simp [Snapshot.remember, Source.recorded, hv.remembered]
    · refine nodup_map_concat hv.once fun entry hentry (heq : entry.1 = path) => hnew ?_
      exact heq ▸ List.mem_map_of_mem hentry
    · simp [paths, Source.recorded]
    · refine (frozen_of_isPrefix hlog ?_ others).symm
      simp [Source.recorded, List.lookup_append, hknown]

end View

/-! ## One question -/

namespace Reading

theorem run_traced_fst (facts : String → Fact) (r : Reading α) :
    (r.traced.run facts).1 = r.run facts := by
  induction r with
  | answer a => rfl
  | read path next ih =>
    simp only [traced, run, run_map]
    exact ih (facts path)

theorem through_map {β : Type u} (f : α → β) (r : Reading α) (v : View σ) :
    (f <$> r).through get v = (f (r.through get v).1, (r.through get v).2) := by
  induction r generalizing v with
  | answer a => rfl
  | read path next ih => exact ih (v.get get path).1 (v.get get path).2

/-- **A question is answered** as the record will show, and what is on record afterwards is what was
on it before and what has been asked for. -/
theorem leads_through (get : Source σ) (r : Reading α) {v : View (Recorded σ)} (hv : v.IsExact) :
    v.Leads (r.traced.through get.recorded v).2 (r.traced.through get.recorded v).1.2 ∧
      ∀ log others, (r.traced.through get.recorded v).2.store.log <+: log →
        (r.traced.through get.recorded v).1 = r.traced.run (frozen log others) := by
  induction r generalizing v with
  | answer a => exact ⟨.refl hv, fun _ _ _ => rfl⟩
  | read path next ih =>
    obtain ⟨hread, hfact⟩ := View.leads_get get hv path
    obtain ⟨hrest, hanswer⟩ := ih (v.get get.recorded path).1 hread.exact
    simp only [traced, through, run, through_map, run_map]
    refine ⟨hread.trans hrest, fun log others hlog => ?_⟩
    rw [← hfact log others (hrest.log.trans hlog), hanswer log others hlog]

/-- A lookup of an abstract path without an item reads nothing. -/
theorem through_lookup_none {path : String} (habstract : Path.isAbstract path = true)
    (v : View σ) : (lookup path none).through get v = (none, v) := by
  unfold lookup Path.resolve
  rw [if_pos habstract]
  rfl

/-- A condition on an abstract path does not hold without an item, and reads nothing. -/
theorem through_fact_none {path : String} (habstract : Path.isAbstract path = true) (op : Operator)
    (v : View σ) : ((Condition.fact path op).holds ctx none).through get v = (false, v) := by
  show ((Option.any op.apply) <$> lookup path none).through get v = _
  rw [through_map, through_lookup_none habstract]
  rfl

end Reading

/-! ## Without the record -/

/-- A view without the record. -/
def View.unrecorded (v : View (Recorded σ)) : View σ :=
  ⟨v.snapshot, v.store.store⟩

theorem View.get_unrecorded (path : String) (v : View (Recorded σ)) :
    v.unrecorded.get get path =
      ((v.get get.recorded path).1, (v.get get.recorded path).2.unrecorded) := by
  unfold View.get View.unrecorded
  cases v.snapshot.known? path <;> rfl

theorem Reading.through_unrecorded (r : Reading α) (v : View (Recorded σ)) :
    r.through get v.unrecorded =
      ((r.through get.recorded v).1, (r.through get.recorded v).2.unrecorded) := by
  induction r generalizing v with
  | answer a => rfl
  | read path next ih =>
    simp only [Reading.through, View.get_unrecorded]
    exact ih _ _

/-- Keeping the record changes no answer. -/
theorem replies_unrecorded (events : List (Event σ)) (v : View (Recorded σ)) :
    (replies get ctx events v.unrecorded).1 =
      (replies get.recorded ctx (events.map Event.recorded) v).1 := by
  induction events generalizing v with
  | nil => rfl
  | cons e events ih =>
    cases e with
    | ask q =>
      simp only [replies, List.map_cons, Event.recorded, Reading.through_unrecorded, ih]
    | change write => exact ih { v with store := { v.store with store := write v.store.store } }

/-! ## A whole session -/

/-- **A session is answered** as its record will show, whatever happens to the store. -/
theorem leads_replies (get : Source σ) (ctx : Context) (events : List (Event σ))
    {v : View (Recorded σ)} (hv : v.IsExact) :
    let outcome := replies get.recorded ctx (events.map Event.recorded) v
    v.Leads outcome.2 (outcome.1.flatMap Prod.snd) ∧
      ∀ log others, outcome.2.store.log <+: log → outcome.1 =
        (events.filterMap Event.query?).map fun q =>
          (q.reading ctx).traced.run (frozen log others) := by
  induction events generalizing v with
  | nil => exact ⟨.refl hv, fun _ _ _ => rfl⟩
  | cons e events ih =>
    cases e with
    | ask q =>
      obtain ⟨hfirst, hreply⟩ := (q.reading ctx).leads_through get hv
      obtain ⟨hrest, hreplies⟩ := ih hfirst.exact
      refine ⟨hfirst.trans hrest, fun log others hlog => ?_⟩
      have hhead := hreply log others (hrest.log.trans hlog)
      exact congrArg₂ List.cons hhead (hreplies log others hlog)
    | change write =>
      -- the snapshot and the record stay as they are
      have hwritten : View.IsExact
          { v with store := { v.store with store := write v.store.store } } := { hv with }
      obtain ⟨hrest, hreplies⟩ := ih hwritten
      exact ⟨⟨hrest.exact, hrest.log, hrest.mem_paths⟩, hreplies⟩

/-- **A session has one view of the facts.** Its answers are those in front of one assignment of
facts: that of the record of all reads of the store, whatever other paths may have. No path is read
twice, and the paths that are read are those that the questions ask for. An abstract path without an
item is not asked for. -/
theorem replies_from_one_view (get : Source σ) (ctx : Context) (store : σ)
    (events : List (Event σ)) (others : String → Fact) :
    let outcome := replies get.recorded ctx (events.map Event.recorded) (.of (.unread store))
    let log := outcome.2.store.log
    (replies get ctx events (.of store)).1 = outcome.1 ∧
    outcome.1.map Prod.fst =
      (events.filterMap Event.query?).map (fun q => (q.reading ctx).run (frozen log others)) ∧
    (log.map Prod.fst).Nodup ∧
    (∀ path, path ∈ log.map Prod.fst ↔ ∃ reply ∈ outcome.1, path ∈ reply.2) ∧
    ∀ path, Path.isAbstract path = true → ∀ v : View σ,
      (Reading.lookup path none).through get v = (none, v) ∧
      ∀ op, ((Condition.fact path op).holds ctx none).through get v = (false, v) := by
  intro outcome log
  obtain ⟨hleads, hreplies⟩ := leads_replies get ctx events (View.isExact_of store)
  refine ⟨replies_unrecorded events (.of (.unread store)), ?_, hleads.exact.once, fun path => ?_,
    fun path habstract v => ⟨Reading.through_lookup_none habstract v,
      fun op => Reading.through_fact_none habstract op v⟩⟩
  · rw [hreplies log others (List.prefix_refl _), List.map_map]
    exact List.map_congr_left fun q _ => Reading.run_traced_fst _ _
  · -- at the start nothing has been read
    have hmem := hleads.mem_paths path
    rw [List.mem_flatMap] at hmem
    exact hmem.trans (or_iff_right List.not_mem_nil)

namespace Household

/-- A store that says the opposite every time it is read. -/
def fickle : Source Bool :=
  fun _ said => (⟨true, some (.boolean !said)⟩, !said)

/-- The household is asked twice whether somebody moved in, and in between which page comes next. -/
def session : List (Event Bool) :=
  [.ask (.fact "/people/#ann/isNew"), .ask (.next flow 1 (some "ann") true), .change not,
    .ask (.fact "/people/#ann/isNew")]

end Household

/-- The household tells the same both times, and is asked nothing about new people in general. -/
theorem replies_household :
    let outcome := replies Household.fickle.recorded default
      (Household.session.map Event.recorded) (.of (.unread false))
    let log := outcome.2.store.log
    log.lookup "/people/#ann/isNew" = some ⟨true, some (.boolean true)⟩ ∧
    outcome.1.map Prod.fst = (Household.session.filterMap Event.query?).map (fun q =>
      (q.reading default).run (frozen log fun _ => .unknown)) ∧
    (log.map Prod.fst).Nodup ∧
    Path.isAbstract "/people/*/isNew" = true ∧
    (Reading.lookup "/people/*/isNew" none).through Household.fickle (.of false) =
      (none, .of false) := by
  intro outcome log
  obtain ⟨-, hanswers, honce, -, habstract⟩ :=
    replies_from_one_view Household.fickle default false Household.session fun _ => .unknown
  have hpath : Path.isAbstract "/people/*/isNew" = true := by decide
  exact ⟨rfl, hanswers, honce, hpath, (habstract _ hpath (.of false)).1⟩

end Interview

import Interview.Fact.Reading
import Interview.Fact.Store

/-!
# Snapshots

A snapshot is one view of facts that may change in the meantime: it remembers every fact that it has
read, and answers from memory when the same path is asked for again. The store behind it is any
state that answers for a path; it may change between two questions, and while it is read.
-/

namespace Interview

universe u

variable {σ : Type} {α : Type u}

/-! ## Stores that change -/

/-- How a store answers: the fact at a path, and the store as it is afterwards. -/
abbrev Source (σ : Type) : Type := String → σ → Fact × σ

/-- A store of facts answers without changing. -/
def Store.source : Source Store :=
  fun path s => (s.facts path, s)

/-- A store with a record of what has been read from it, in order. -/
structure Recorded (σ : Type) where
  store : σ
  log : List (String × Fact)

/-- A store of which nothing has been read. -/
def Recorded.unread (store : σ) : Recorded σ := ⟨store, []⟩

/-- Answers as a store does, and keeps a record of it. -/
def Source.recorded (get : Source σ) : Source (Recorded σ) :=
  fun path r =>
    let (fact, store) := get path r.store
    (fact, ⟨store, r.log ++ [(path, fact)]⟩)

/-! ## Reading through a snapshot -/

/-- The facts read so far, in order. -/
structure Snapshot where
  seen : List (String × Fact)
deriving DecidableEq

namespace Snapshot

/-- The snapshot that has read nothing. -/
def fresh : Snapshot := ⟨[]⟩

/-- The fact remembered for a path. -/
def known? (s : Snapshot) (path : String) : Option Fact :=
  s.seen.lookup path

/-- Remembers the fact read at a path. -/
def remember (s : Snapshot) (path : String) (fact : Fact) : Snapshot :=
  ⟨s.seen ++ [(path, fact)]⟩

end Snapshot

/-- A snapshot and the store behind it. -/
structure View (σ : Type) where
  snapshot : Snapshot
  store : σ

/-- A fresh snapshot of a store. -/
def View.of (store : σ) : View σ := ⟨.fresh, store⟩

/-- The fact at a path: the one remembered, or else the one that the store has now. -/
def View.get (get : Source σ) (path : String) (v : View σ) : Fact × View σ :=
  match v.snapshot.known? path with
  | some fact => (fact, v)
  | none =>
    let (fact, store) := get path v.store
    (fact, ⟨v.snapshot.remember path fact, store⟩)

namespace Reading

/-- Answers a question through a snapshot. -/
def through (get : Source σ) : Reading α → View σ → α × View σ
  | answer a, v => (a, v)
  | read path next, v =>
    let (fact, v) := v.get get path
    (next fact).through get v

/-- The question whose answer also tells the paths that were asked for on the way, in order. -/
def traced : Reading α → Reading (α × List String)
  | answer a => answer (a, [])
  | read path next =>
    read path fun fact => (fun (a, paths) => (a, path :: paths)) <$> (next fact).traced

end Reading

end Interview

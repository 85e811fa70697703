import Interview.Fact.Basic
import Interview.Fact.Path

/-!
# Questions to the facts

A question about an interview (is this screen available, which screen comes next) is answered by
reading facts one after the other, where each answer decides what is read next. A `Reading` is such
a course of reads as a value: either the answer, or a path to read and the way to go on from the
fact found there.

`Reading.run` answers a question from a fixed assignment of facts. The lemmas `run_…` let every
statement about the answers of the engine be made over `run`, so that a question behaves as a plain
function of the facts.
-/

namespace Interview

universe u v

/-- A course of reads that ends in an answer. -/
inductive Reading (α : Type u) : Type u where
  /-- The answer. -/
  | answer (a : α)
  /-- Reads the fact at a concrete path and goes on from what it finds. -/
  | read (path : String) (next : Fact → Reading α)

namespace Reading

variable {α : Type u} {β : Type v}

/-- Goes on from the answer of a first course of reads. -/
protected def bind : Reading α → (α → Reading β) → Reading β
  | answer a, f => f a
  | read path next, f => read path fun fact => (next fact).bind f

instance : Monad Reading where
  pure := answer
  bind := Reading.bind

/-- The answer that a fixed assignment of facts to paths leads to. -/
def run (facts : String → Fact) : Reading α → α
  | answer a => a
  | read path next => (next (facts path)).run facts

/-- The fact at a concrete path. -/
def fact (path : String) : Reading Fact :=
  read path answer

/-- The fact at a path in the context of an item; nothing is read for an abstract path without an
item. -/
def lookup (path : String) (item : Option String) : Reading (Option Fact) :=
  match Path.resolve path item with
  | some concrete => some <$> fact concrete
  | none => pure none

/-- The items of the collection at a path. -/
def items (collection : String) : Reading (List String) :=
  Fact.items <$> fact collection

/-- The item that the reference at a path refers to. -/
def referencedItem (path : String) : Reading (Option String) :=
  Fact.referencedItem <$> fact path

/-! ## Laws -/

protected theorem id_map {α : Type u} (r : Reading α) : id <$> r = r := by
  induction r with
  | answer a => rfl
  | read path next ih => exact congrArg (read path) (funext ih)

protected theorem bind_assoc {α β γ : Type u} (r : Reading α) (f : α → Reading β)
    (g : β → Reading γ) : r >>= f >>= g = r >>= fun a => f a >>= g := by
  induction r with
  | answer a => rfl
  | read path next ih => exact congrArg (read path) (funext ih)

instance : LawfulMonad Reading :=
  LawfulMonad.mk' Reading Reading.id_map (fun _ _ => rfl) Reading.bind_assoc

variable (facts : String → Fact)

@[simp] theorem run_pure (a : α) : (pure a : Reading α).run facts = a := rfl

@[simp] theorem run_bind {α β : Type u} (r : Reading α) (f : α → Reading β) :
    (r >>= f).run facts = (f (r.run facts)).run facts := by
  induction r with
  | answer a => rfl
  | read path next ih => exact ih (facts path)

@[simp] theorem run_map {α β : Type u} (f : α → β) (r : Reading α) :
    (f <$> r).run facts = f (r.run facts) :=
  run_bind facts r fun a => pure (f a)

@[simp] theorem run_fact (path : String) : (fact path).run facts = facts path := rfl

@[simp] theorem run_lookup (path : String) (item : Option String) :
    (lookup path item).run facts = (Path.resolve path item).map facts := by
  unfold lookup
  split <;> simp_all

@[simp] theorem run_items (collection : String) :
    (items collection).run facts = (facts collection).items := by
  simp [items]

@[simp] theorem run_referencedItem (path : String) :
    (referencedItem path).run facts = (facts path).referencedItem := by
  simp [referencedItem]

@[simp] theorem run_ite {c : Prop} [Decidable c] (r s : Reading α) :
    (if c then r else s).run facts = if c then r.run facts else s.run facts := by
  split <;> rfl

/-! ## Lists of questions -/

@[simp] theorem run_anyM {α : Type} (p : α → Reading Bool) (xs : List α) :
    (xs.anyM p).run facts = xs.any fun x => (p x).run facts := by
  induction xs with
  | nil => rfl
  | cons x xs ih =>
    simp only [List.anyM, run_bind, List.any_cons]
    cases (p x).run facts <;> simp [ih]

@[simp] theorem run_allM {α : Type} (p : α → Reading Bool) (xs : List α) :
    (xs.allM p).run facts = xs.all fun x => (p x).run facts := by
  induction xs with
  | nil => rfl
  | cons x xs ih =>
    simp only [List.allM, run_bind, List.all_cons]
    cases (p x).run facts <;> simp [ih]

@[simp] theorem run_findM? {α : Type} (p : α → Reading Bool) (xs : List α) :
    (xs.findM? p).run facts = xs.find? fun x => (p x).run facts := by
  induction xs with
  | nil => rfl
  | cons x xs ih =>
    simp only [List.findM?, run_bind, List.find?_cons]
    cases (p x).run facts <;> simp [ih]

@[simp] theorem run_findSomeM? {α β : Type} (f : α → Reading (Option β)) (xs : List α) :
    (xs.findSomeM? f).run facts = xs.findSome? fun x => (f x).run facts := by
  induction xs with
  | nil => rfl
  | cons x xs ih =>
    simp only [List.findSomeM?, run_bind, List.findSome?_cons]
    cases (f x).run facts <;> simp [ih]

@[simp] theorem run_mapM {α β : Type} (f : α → Reading β) (xs : List α) :
    (xs.mapM f).run facts = xs.map fun x => (f x).run facts := by
  rw [← List.mapM'_eq_mapM]
  induction xs with
  | nil => rfl
  | cons x xs ih => simp [ih]

@[simp] theorem run_filterM {α : Type} (p : α → Reading Bool) (xs : List α) :
    (xs.filterM p).run facts = xs.filter fun x => (p x).run facts := by
  have aux : ∀ (xs done : List α), (xs.filterAuxM p done).run facts
      = (xs.filter fun x => (p x).run facts).reverse ++ done := by
    intro xs
    induction xs with
    | nil => intro done; simp [List.filterAuxM]
    | cons x xs ih =>
      intro done
      simp only [List.filterAuxM, run_bind, ih, List.filter_cons]
      cases (p x).run facts <;> simp
  simp [List.filterM, aux]

@[simp] theorem run_foldlM {α σ : Type} (f : σ → α → Reading σ) (start : σ) (xs : List α) :
    (xs.foldlM f start).run facts = xs.foldl (fun s x => (f s x).run facts) start := by
  induction xs generalizing start with
  | nil => rfl
  | cons x xs ih => simp [ih]

end Reading

end Interview

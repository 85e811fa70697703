import Interview.Fact.Basic
import Interview.Table

/-!
# Stores of facts

A store knows some facts by their concrete paths. About every other path it says that nothing is
known.
-/

namespace Interview

/-- The known facts by their paths. -/
abbrev Store := Table Fact

namespace Store

/-- What a store says about a path. -/
def facts (s : Store) (path : String) : Fact :=
  (s.get? path).getD .unknown

@[simp] theorem facts_insert (s : Store) (path : String) (fact : Fact) (other : String) :
    facts (s.insert path fact) other = if other = path then fact else s.facts other := by
  unfold facts
  rw [Table.get?_insert]
  split <;> rfl

@[simp] theorem facts_erase (s : Store) (path other : String) :
    facts (s.erase path) other = if other = path then .unknown else s.facts other := by
  unfold facts
  rw [Table.get?_erase]
  split <;> rfl

end Store

end Interview

import Interview.Text.Percent

/-!
# Fact paths

A fact is addressed by its path. A path with a `*` in it is *abstract*: it addresses one fact for
every item of a collection, as in `/filers/*/isBlind`. Binding it to an item gives the concrete path
`/filers/#item/isBlind`.
-/

namespace Interview.Path

/-- Whether a path stands for one fact per item. -/
def isAbstract (path : String) : Bool :=
  path.toList.contains '*'

/-- The characters of a path bound to an item. -/
def bindChars (item : List Char) (path : List Char) : List Char :=
  path.flatMap fun c => if c = '*' then '#' :: item else [c]

/-- The path with an item in all its places for one. -/
def bind (path item : String) : String :=
  String.ofList (bindChars item.toList path.toList)

/-- The concrete path that a path stands for in a context with or without an item: an abstract path
stands for none without an item. -/
def resolve (path : String) (item : Option String) : Option String :=
  if isAbstract path then item.map (bind path) else some path

theorem resolve_of_not_isAbstract {path : String} (h : isAbstract path = false)
    (item : Option String) : resolve path item = some path := by
  simp [resolve, h]

@[simp] theorem resolve_some (path item : String) :
    resolve path (some item) = some (if isAbstract path then bind path item else path) := by
  unfold resolve
  split <;> rfl

end Interview.Path

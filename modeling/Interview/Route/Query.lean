import Interview.Text.Percent

/-!
# Addresses with parameters

The address of a screen is its route, and after a question mark the parameters that say for which
item of which collection it is shown and whether it is shown for review.
-/

namespace Interview.Route

/-- Parameters as the query part of an address, without the question mark. -/
def query (parameters : List (String × String)) : String :=
  "&".intercalate <| parameters.map fun (name, value) =>
    Text.Percent.encode name ++ "=" ++ Text.Percent.encode value

/-- A route with its parameters; the question mark is left out when there are none. -/
def withQuery (route : String) (parameters : List (String × String)) : String :=
  if parameters = [] then route else route ++ "?" ++ query parameters

/-- The parameters of an address: the item, if there is one and its collection is known, and the
mark of review. -/
def parameters (collection item : Option String) (review : Bool) : List (String × String) :=
  (match collection, item with
    | some collection, some item => [(collection, item)]
    | _, _ => [])
  ++ if review then [("reviewMode", "true")] else []

/-- The parameter of an item makes way for no other. -/
example : withQuery "/flow/a" (parameters (some "/filers") (some "1 2") true)
    = "/flow/a?%2Ffilers=1%202&reviewMode=true" := by decide +kernel

end Interview.Route

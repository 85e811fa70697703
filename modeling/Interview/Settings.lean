import Interview.Json.Decode

/-!
# Deployment settings

Switches and lists that a deployment sets, and that conditions and the checklist look at.
-/

namespace Interview

/-- The settings of a deployment. -/
structure Settings where
  /-- Whether experimental parts of a flow are shown. -/
  experimental : Bool
  /-- Whether returns may be signed electronically. -/
  electronicSigning : Bool
  /-- The routes of the categories that the checklist leaves out. -/
  excludedCategories : List String
  /-- The paths of the facts that must all be false before a return can be submitted. -/
  submissionBlockingFacts : List String
  /-- The paths of the facts that need not be answered. -/
  optionalFacts : List String
deriving DecidableEq

namespace Settings

/-- The category that holds the screens of filers who cannot go on. -/
def knockoutCategory : String := "/flow/knockout"

/-- The settings of a deployment that sets nothing. -/
def default : Settings := ⟨false, false, [knockoutCategory], [], []⟩

instance : Inhabited Settings := ⟨default⟩

/-- Whether the checklist leaves a category out. -/
def excludes (s : Settings) (category : String) : Bool :=
  s.excludedCategories.contains category

/-- Whether a fact need not be answered. -/
def isOptional (s : Settings) (path : String) : Bool :=
  s.optionalFacts.contains path

/-- Decodes settings; every field is required. -/
def ofJson (j : Json) : Json.Decoded Settings := do
  let fields ← j.fields
  let texts := Json.toList Json.toText
  let experimental ← Json.required "experimental" Json.toBool fields
  let electronicSigning ← Json.required "essar_signing" Json.toBool fields
  let excludedCategories ← Json.required "excluded_categories" texts fields
  let submissionBlockingFacts ← Json.required "submission_blocking_facts" texts fields
  let optionalFacts ← Json.required "optional_facts" texts fields
  return ⟨experimental, electronicSigning, excludedCategories, submissionBlockingFacts,
    optionalFacts⟩

/-- Encodes settings. -/
def toJson (s : Settings) : Json :=
  .object [("experimental", .bool s.experimental),
    ("essar_signing", .bool s.electronicSigning),
    ("excluded_categories", Json.texts s.excludedCategories),
    ("submission_blocking_facts", Json.texts s.submissionBlockingFacts),
    ("optional_facts", Json.texts s.optionalFacts)]

end Settings

end Interview

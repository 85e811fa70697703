import Interview.Import.Profile
import Interview.Json.Decode

/-!
# Import profiles in JSON

A profile is an object whose field `status` says how far the import has come; once it is complete,
the field `profile` holds the sections. A section is an object with the field `state`, and with the
field `payload` once the data has arrived. Before that, the second field may be left out or `null`.
Either field may be written first.
-/

namespace Interview.Import

open Json (Decoded)

/-! ## Decoding -/

/-- What must stand, if anything, in place of data that has not arrived. -/
def nothing (name : String) (fields : List (String × Json)) : Decoded Unit :=
  Json.defaulted name (fun
    | .null => .ok ()
    | _ => .error (.mismatch "null")) () fields

/-- The stages of an import, as documents name them. -/
inductive Stage where
  | first
  | second
  | last

/-- All stages. -/
def Stage.all : List Stage := [.first, .second, .last]

/-- The name of a stage of a section. -/
def Stage.sectionName : Stage → String
  | .first => "pending"
  | .second => "failed"
  | .last => "success"

/-- The name of a stage of a profile. -/
def Stage.profileName : Stage → String
  | .first => "not_loaded"
  | .second => "loading"
  | .last => "complete"

/-- Decodes the stage of a section, given whether the section has been kept. -/
def stageOfSection (isKept : Bool) : Json → Decoded Stage :=
  if isKept then Json.toKeptNamed Stage.all Stage.sectionName
  else Json.toNamed Stage.all Stage.sectionName

/-- Decodes a section, given whether it has been kept. -/
def Section.ofJson {α : Type} (isKept : Bool) (payload : Json → Decoded α) (j : Json) :
    Decoded (Section α) := do
  let fields ← j.fields
  match ← Json.required "state" (stageOfSection isKept) fields with
  | .first => (nothing "payload" fields).map fun _ => .pending
  | .second => (nothing "payload" fields).map fun _ => .failed
  | .last =>
    (Json.required "payload" (Json.awaiting "state" "payload" fields fun _ => payload) fields).map
      .success

/-- Decodes basic data about the filer. -/
def AboutYou.ofJson (j : Json) : Decoded AboutYou := do
  let fields ← j.fields
  let dateOfBirth ← Json.optional "date_of_birth" Json.toText fields
  let mobileNumber ← Json.optional "mobile_number" Json.toText fields
  return ⟨dateOfBirth, mobileNumber⟩

/-- Decodes a PIN. -/
def IdentityPin.ofJson (j : Json) : Decoded IdentityPin := do
  let fields ← j.fields
  let hasPin ← Json.required "has_ip_pin" Json.toBool fields
  let pin ← Json.optional "pin" Json.toText fields
  return ⟨hasPin, pin⟩

/-- Decodes a form. -/
def Form.ofJson (j : Json) : Decoded Form := do
  let fields ← j.fields
  let id ← Json.optional "id" Json.toText fields
  let issuer ← Json.optional "issuer" Json.toText fields
  return ⟨id, issuer⟩

/-- Decodes whether there is an insurance form. -/
def InsuranceForm.ofJson (j : Json) : Decoded InsuranceForm := do
  let fields ← j.fields
  let hasForm ← Json.required "has_1095a" Json.toBool fields
  return ⟨hasForm⟩

/-- A section of a profile; it is pending in the absence of its field. -/
def Section.field {α : Type} (isKept : Bool) (name : String) (payload : Json → Decoded α)
    (fields : List (String × Json)) : Decoded (Section α) :=
  Json.defaulted name (Section.ofJson isKept payload) .pending fields

/-- Decodes the sections of a profile, given whether it has been kept. -/
def Profile.ofJson (isKept : Bool) (j : Json) : Decoded Profile := do
  let fields ← j.fields
  let aboutYou ← Section.field isKept "about_you" AboutYou.ofJson fields
  let identityPin ← Section.field isKept "ip_pin" IdentityPin.ofJson fields
  let wageForms ← Section.field isKept "form_w2s" (Json.toList Form.ofJson) fields
  let interestForms ← Section.field isKept "interest_income" (Json.toList Form.ofJson) fields
  let insuranceForm ← Section.field isKept "form_1095a" InsuranceForm.ofJson fields
  return ⟨aboutYou, identityPin, wageForms, interestForms, insuranceForm⟩

/-- Decodes an import profile. -/
def State.ofJson (j : Json) : Decoded State := do
  let fields ← j.fields
  match ← Json.required "status" (Json.toNamed Stage.all Stage.profileName) fields with
  | .first => (nothing "profile" fields).map fun _ => .notLoaded
  | .second => (nothing "profile" fields).map fun _ => .loading
  | .last =>
    (Json.required "profile" (Json.awaiting "status" "profile" fields Profile.ofJson) fields).map
      .complete

/-! ## Encoding -/

/-- Encodes a section. -/
def Section.toJson {α : Type} (payload : α → Json) : Section α → Json
  | .pending => .object [("state", .string "pending")]
  | .failed => .object [("state", .string "failed")]
  | .success a => .object [("state", .string "success"), ("payload", payload a)]

/-- Encodes basic data about the filer. -/
def AboutYou.toJson (a : AboutYou) : Json :=
  .object [("date_of_birth", Json.textOrNull a.dateOfBirth),
    ("mobile_number", Json.textOrNull a.mobileNumber)]

/-- Encodes a PIN. -/
def IdentityPin.toJson (p : IdentityPin) : Json :=
  .object [("has_ip_pin", .bool p.hasPin), ("pin", Json.textOrNull p.pin)]

/-- Encodes a form. -/
def Form.toJson (f : Form) : Json :=
  .object [("id", Json.textOrNull f.id), ("issuer", Json.textOrNull f.issuer)]

/-- Encodes whether there is an insurance form. -/
def InsuranceForm.toJson (f : InsuranceForm) : Json :=
  .object [("has_1095a", .bool f.hasForm)]

/-- Encodes the sections of a profile. -/
def Profile.toJson (p : Profile) : Json :=
  let forms (s : Section (List Form)) := s.toJson fun forms => .array (forms.map Form.toJson)
  .object [("about_you", p.aboutYou.toJson AboutYou.toJson),
    ("ip_pin", p.identityPin.toJson IdentityPin.toJson),
    ("form_w2s", forms p.wageForms),
    ("interest_income", forms p.interestForms),
    ("form_1095a", p.insuranceForm.toJson InsuranceForm.toJson)]

/-- Encodes an import profile. -/
def State.toJson : State → Json
  | .notLoaded => .object [("status", .string "not_loaded")]
  | .loading => .object [("status", .string "loading")]
  | .complete profile => .object [("status", .string "complete"), ("profile", profile.toJson)]

end Interview.Import

import Interview.Json.Decode

/-!
# Submissions

A return that has been submitted may have been rejected, with a code for every reason.
-/

namespace Interview

/-- A reason for a rejection. -/
structure Rejection where
  code : String
  translationKey : Option String
deriving DecidableEq

/-- What has become of a submitted return. -/
structure Submission where
  rejections : List Rejection
deriving DecidableEq

namespace Submission

/-- A submission that has not been rejected. -/
def accepted : Submission := ⟨[]⟩

/-- Whether the return has been rejected. -/
def isRejected (s : Submission) : Bool :=
  !s.rejections.isEmpty

/-- Whether a code is among the reasons. -/
def hasCode (s : Submission) (code : String) : Bool :=
  s.rejections.any (·.code = code)

/-! ## In JSON -/

/-- The names that the field of a code may have. -/
def codeNames : List String := ["mef_error_code", "MeFErrorCode"]

/-- Decodes a reason. -/
def rejectionOfJson (j : Json) : Json.Decoded Rejection := do
  let fields ← j.fields
  let code ← match ← Json.sole? codeNames fields with
    | some code => code.toText
    | none => .error (.absent "mef_error_code")
  let translationKey ← Json.optional "translation_key" Json.toText fields
  return ⟨code, translationKey⟩

/-- Decodes a submission. -/
def ofJson (j : Json) : Json.Decoded Submission := do
  let fields ← j.fields
  let rejections ← Json.defaulted "rejection_codes" (Json.toList rejectionOfJson) [] fields
  return ⟨rejections⟩

/-- Encodes a submission. -/
def toJson (s : Submission) : Json :=
  .object [("rejection_codes", .array <| s.rejections.map fun r =>
    .object [("mef_error_code", .string r.code),
      ("translation_key", Json.textOrNull r.translationKey)])]

end Submission

end Interview

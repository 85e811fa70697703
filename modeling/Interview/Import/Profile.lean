/-!
# Imported data

Data about the filer may have been imported from elsewhere. The import profile says, section by
section, whether that data has arrived, and conditions ask it questions with three answers: yes, no,
and not loaded.
-/

namespace Interview.Import

/-- How far the import of one section has come. -/
inductive Section (α : Type) where
  | pending
  | failed
  | success (payload : α)
deriving DecidableEq, Inhabited

/-- The data of a section that has arrived. -/
def Section.loaded? {α : Type} : Section α → Option α
  | .success payload => some payload
  | _ => none

/-- Basic data about the filer. -/
structure AboutYou where
  dateOfBirth : Option String
  mobileNumber : Option String
deriving DecidableEq

/-- The identity protection PIN of the filer. -/
structure IdentityPin where
  hasPin : Bool
  pin : Option String
deriving DecidableEq

/-- An imported wage or interest form. -/
structure Form where
  id : Option String
  issuer : Option String
deriving DecidableEq

/-- Whether the filer has a form about marketplace insurance. -/
structure InsuranceForm where
  hasForm : Bool
deriving DecidableEq

/-- The sections of the import profile. -/
structure Profile where
  aboutYou : Section AboutYou
  identityPin : Section IdentityPin
  wageForms : Section (List Form)
  interestForms : Section (List Form)
  insuranceForm : Section InsuranceForm
deriving DecidableEq

/-- The import profile, once it is there. -/
inductive State where
  | notLoaded
  | loading
  | complete (profile : Profile)
deriving DecidableEq

instance : Inhabited State := ⟨.notLoaded⟩

/-- A PIN without separators, if that leaves exactly six digits. -/
def IdentityPin.normalized? (p : IdentityPin) : Option String :=
  p.pin.bind fun pin =>
    let digits := pin.toList.filter Char.isDigit
    if digits.length = 6 then some (String.ofList digits) else none

/-! ## Questions to the profile -/

/-- What can be asked of the import profile. -/
inductive Question where
  | aboutYou
  | hasIdentityPin
  | hasWageForms
  | hasOneWageForm
  | hasManyWageForms
  | hasInterestForms
  | hasOneInterestForm
  | hasManyInterestForms
  | hasInsuranceForm
  | hasNoInsuranceForm
deriving DecidableEq, Repr

namespace Question

/-- All questions, in their order. -/
def all : List Question :=
  [aboutYou, hasIdentityPin, hasWageForms, hasOneWageForm, hasManyWageForms, hasInterestForms,
    hasOneInterestForm, hasManyInterestForms, hasInsuranceForm, hasNoInsuranceForm]

/-- The name of a question in documents. -/
def label : Question → String
  | aboutYou => "about-you"
  | hasIdentityPin => "ip-pin-taxpayer-has-ip-pin"
  | hasWageForms => "form-w2s"
  | hasOneWageForm => "has-one-form-w2"
  | hasManyWageForms => "has-multiple-forms-w2"
  | hasInterestForms => "1099-ints"
  | hasOneInterestForm => "has-one-1099-int"
  | hasManyInterestForms => "has-multiple-1099-ints"
  | hasInsuranceForm => "has-at-least-one-1095-a"
  | hasNoInsuranceForm => "has-no-1095-a"

end Question

/-- The answer to a question. -/
inductive Answer where
  | yes
  | no
  | notLoaded
deriving DecidableEq, Repr

/-- Yes or no. -/
def Answer.ofBool (b : Bool) : Answer :=
  if b then .yes else .no

/-- What a condition may demand of an answer. -/
inductive Operator where
  | isTrue
  | isFalse
  | isUnknown
deriving DecidableEq, Repr

namespace Operator

/-- All demands, in their order. -/
def all : List Operator := [isTrue, isFalse, isUnknown]

/-- The name of a demand in documents. -/
def label : Operator → String
  | isTrue => "isTrue"
  | isFalse => "isFalse"
  | isUnknown => "isUnknown"

/-- The demand of a condition that names none. -/
def default : Operator := isTrue

/-- Whether an answer meets a demand. -/
def apply : Operator → Answer → Bool
  | isTrue, a => a = .yes
  | isFalse, a => a = .no
  | isUnknown, a => a = .notLoaded

end Operator

/-- The answer that the number of imported forms gives; forms that have not arrived count as none of
the numbers. -/
def countAnswer (forms : Section (List Form)) (holds : Nat → Bool) : Answer :=
  .ofBool (forms.loaded?.any fun forms => holds forms.length)

/-- The answer of a profile. A filer who resubmits a rejected return gets no answer about the PIN.
There is a PIN only if one can be used; there is never a no about insurance forms. -/
def Profile.answer (p : Profile) (resubmitting : Bool) : Question → Answer
  | .aboutYou => .ofBool p.aboutYou.loaded?.isSome
  | .hasIdentityPin =>
    if resubmitting then .notLoaded
    else
      match p.identityPin.loaded? with
      | some payload =>
        if !payload.hasPin then .no
        else if payload.normalized?.isSome then .yes
        else .notLoaded
      | none => .notLoaded
  | .hasWageForms => countAnswer p.wageForms (0 < ·)
  | .hasOneWageForm => countAnswer p.wageForms (· = 1)
  | .hasManyWageForms => countAnswer p.wageForms (1 < ·)
  | .hasInterestForms => countAnswer p.interestForms (0 < ·)
  | .hasOneInterestForm => countAnswer p.interestForms (· = 1)
  | .hasManyInterestForms => countAnswer p.interestForms (1 < ·)
  | .hasInsuranceForm =>
    if p.insuranceForm.loaded?.any (·.hasForm) then .yes else .notLoaded
  | .hasNoInsuranceForm =>
    if p.insuranceForm.loaded?.any (!·.hasForm) then .yes else .notLoaded

/-- The answer to a question; there is none before the profile is complete. -/
def State.answer (s : State) (resubmitting : Bool) (question : Question) : Answer :=
  match s with
  | .complete profile => profile.answer resubmitting question
  | _ => .notLoaded

end Interview.Import

import Interview.Fact.Store
import Interview.Outline.Basic

/-!
# The sample interview

A small tax interview, with facts about one filer, for commands that are given no documents of their
own. It has a subcategory about each filer, one that is shown to married filers only, a loop that is
managed from an overview, a loop that leads from item to item, and screens for signing.
-/

namespace Interview.Sample

/-! ## Building blocks -/

/-- An element that is always shown. -/
def element (content : Content) : Element := ⟨content, [], []⟩

/-- A heading. -/
def heading (key : String) : Element := element (.heading key)

/-- A field for a fact. -/
def field (path : String) (kind : FieldKind) : Element := element (.field path kind false none)

/-- The button to the next screen. -/
def saveAndContinue : Element := element .saveAndContinue

/-- The condition that a fact is true. -/
def isTrue (path : String) : Condition := .fact path .isTrue

/-- What is declared about a screen that is always shown. -/
def screenHead (route : String) (content : List Element) : ScreenHead :=
  ⟨route, none, none, false, false, false, content⟩

/-- A screen that is always shown. -/
def screen (route : String) (content : List Element) : Node :=
  .screen (screenHead route content)

/-- A screen that is shown under a condition. -/
def screenIf (condition : Condition) (route : String) (content : List Element) : Node :=
  .screen { screenHead route content with condition := some condition }

/-- What is declared about a subcategory that is complete under a condition. -/
def subcategoryHead (route : String) (completeIf : Condition) : SubcategoryHead :=
  ⟨route, [completeIf], [], false, false, false, none⟩

/-! ## You and your family -/

/-- The subcategory about each filer. -/
def aboutYou : Node :=
  .subcategory
    { subcategoryHead "about-you" (.fact "/filers/*/isBasicInfoComplete" .isTrueAndComplete) with
      collection := some "/primaryFiler" } [
    .topic "basic-info" [
      screen "intro" [
        ⟨.heading "heading.about-you.intro", [], ["identity-2024"]⟩,
        field "/filers/*/firstName" .text, saveAndContinue],
      .screen
        { screenHead "nonresident-knockout" [
            heading "heading.knockout.nonresident", element .knockout] with
          condition := some (isTrue "/filers/*/isNonResident")
          isKnockout := true },
      .gate (.imported .aboutYou .isTrue) [
        screen "imported-profile" [
          heading "heading.about-you.imported", element (.info "info.about-you.imported"),
          saveAndContinue]],
      screen "date-of-birth" [
        heading "heading.about-you.dob", field "/filers/*/dateOfBirth" .date, saveAndContinue]],
    .topic "ip-pin" [
      screen "ip-pin-choice" [
        heading "heading.ip-pin.choice", field "/filers/*/hasIpPin" .boolean, saveAndContinue],
      screenIf (isTrue "/filers/*/hasIpPin") "ip-pin-entry" [
        heading "heading.ip-pin.entry", field "/filers/*/identityPin" .pin, saveAndContinue]]]

/-- The subcategory about the spouse. -/
def spouse : Node :=
  .subcategory
    { subcategoryHead "spouse" (isTrue "/spouseSectionComplete") with
      displayOnlyIf := [isTrue "/isMarried"] } [
    .topic "spouse-info" [
      screen "spouse-name" [
        heading "heading.spouse.name", field "/spouseName" .text, saveAndContinue]]]

/-- The loop of the dependents, managed from the summary. -/
def dependentsLoop : Node :=
  .loop
    { name := "dependents"
      collection := some "/familyAndHousehold"
      autoIterates := false
      isInner := false
      itemCompleteIf := some (isTrue "/familyAndHousehold/*/isComplete")
      donePath := some "/familyAndHouseholdIsDone"
      knockoutRoute := none } [
    .topic "dependent-info" [
      screen "dependent-name" [
        ⟨.heading "heading.dependents.name", [], ["dependents-refresh"]⟩,
        ⟨.taxReturnAlert .error "alerts.dependents.ssnMissing" ["/familyAndHousehold/*/tin"],
          [isTrue "/familyAndHousehold/*/ssnMissing"], []⟩,
        field "/familyAndHousehold/*/firstName" .text, saveAndContinue],
      screenIf (isTrue "/familyAndHousehold/*/isStudent") "dependent-student" [
        heading "heading.dependents.student", field "/familyAndHousehold/*/school" .text,
        saveAndContinue]]]

/-- The subcategory about the dependents. -/
def dependents : Node :=
  .subcategory
    { subcategoryHead "dependents" (isTrue "/familyAndHouseholdIsComplete") with
      locksOnUnfinishedItems := true } [
    .assertion ⟨.warning, "assertions.dependents.missingSsn",
      [isTrue "/anyDependentMissingSsn"], none⟩,
    .topic "overview" [
      screen "dependents-intro" [
        heading "heading.dependents.intro", field "/hasDependents" .boolean, saveAndContinue]],
    dependentsLoop,
    .topic "summary" [
      screen "dependents-summary" [
        heading "heading.dependents.summary",
        element (.collectionManager "/familyAndHousehold" (some "dependents"))]]]

/-! ## Income -/

/-- The loop of the jobs, which leads from job to job. -/
def jobsLoop : Node :=
  .loop
    { name := "w2s"
      collection := some "/formW2s"
      autoIterates := true
      isInner := false
      itemCompleteIf := none
      donePath := none
      knockoutRoute := some "/flow/you-and-your-family/about-you/nonresident-knockout" } [
    .topic "w2-details" [
      screen "w2-employer" [
        ⟨.heading "heading.jobs.employer", [], ["w2-copy"]⟩,
        field "/formW2s/*/employerName" .text, saveAndContinue],
      screen "w2-wages" [
        heading "heading.jobs.wages", field "/formW2s/*/wages" .dollar, saveAndContinue]]]

/-- The subcategory about the jobs. -/
def jobs : Node :=
  .subcategory (subcategoryHead "jobs" (isTrue "/formW2sIsDone")) [
    .topic "w2" [
      screen "jobs-intro" [
        heading "heading.jobs.intro",
        element (.rejectionAlert .error "mef.jobs.employerEin" "FW2-502" ["/formW2s/*/ein"]),
        field "/hasW2" .boolean, saveAndContinue]],
    jobsLoop,
    .topic "w2" [
      screen "jobs-summary" [heading "heading.jobs.summary", saveAndContinue]]]

/-! ## Completion -/

/-- The subcategory in which the return is signed and submitted. -/
def signAndSubmit : Node :=
  .subcategory
    { subcategoryHead "sign-and-submit" (isTrue "/hasSubmitted") with
      signsAndSubmits := true
      skipsDataView := true } [
    screenIf (.signingPath .isTrue) "sign-electronically" [
      heading "heading.sign.essar", saveAndContinue],
    screenIf (.signingPath .isFalse) "sign-with-prior-year-agi" [
      heading "heading.sign.legacy", saveAndContinue],
    screenIf .nothingBlocksSubmission "submit" [
      heading "heading.sign.submit", element .submit]]

/-! ## The documents -/

/-- The batches that the content of the sample belongs to. -/
def batches : Batch.Registry :=
  .ofList [
    ("identity-2024",
      { purpose := .content
        status := .complete
        started := some ⟨2024, 1, 5, by decide⟩
        history := [⟨.inProgress, some ⟨2024, 1, 20, by decide⟩⟩] }),
    ("dependents-refresh",
      { purpose := .content
        status := .firstReview
        started := some ⟨2024, 2, 1, by decide⟩
        history := [] }),
    ("w2-copy",
      { purpose := .admin
        status := .inProgress
        started := some ⟨2024, 3, 1, by decide⟩
        history := [] })]

/-- The outline of the sample. -/
def outline : Outline :=
  ⟨batches, [
    .category "you-and-your-family" [aboutYou, spouse, dependents],
    .category "income" [jobs],
    .category "complete" [signAndSubmit]]⟩

/-- A complete fact. -/
def known (value : FactValue) : Fact := ⟨true, some value⟩

/-- The facts of the sample. -/
def facts : Store :=
  .ofList [
    ("/primaryFiler", known (.itemRef "f1")),
    ("/filers/#f1/firstName", known (.text "Ada")),
    ("/filers/#f1/isBasicInfoComplete", known (.boolean true)),
    ("/filers/#f1/hasIpPin", known (.boolean false)),
    ("/isMarried", known (.boolean false)),
    ("/hasDependents", known (.boolean true)),
    ("/familyAndHousehold", known (.collection ["d1", "d2"])),
    ("/familyAndHousehold/#d1/firstName", known (.text "Grace")),
    ("/familyAndHousehold/#d1/isComplete", known (.boolean true)),
    ("/familyAndHousehold/#d2/firstName", known (.text "Alan")),
    ("/familyAndHousehold/#d2/isComplete", known (.boolean false)),
    ("/familyAndHousehold/#d2/ssnMissing", known (.boolean true)),
    ("/familyAndHouseholdIsComplete", known (.boolean true)),
    ("/formW2s", known (.collection ["w1"])),
    ("/hasW2", known (.boolean true))]

end Interview.Sample

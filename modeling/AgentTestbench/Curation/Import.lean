import AgentTestbench.Curation.Select

/-! # Imported responses

`import_responses` makes a suite from an array of responses and an array of expected verdicts.
It numbers the cases, so the only thing that can go wrong with a suitable pair of arrays is the
size of the suite.
-/

namespace AgentTestbench

open AssociationList Fallible

def importFailure : TestbenchError :=
  .workflowInput (text ("Import requires 1 to 256 response objects and one explicit boolean " ++
    "expectation per response."))

def Json.members? : Json → Option (List (Text × Json))
  | .object members => some members
  | _ => none

def Json.verdict? : Json → Option Bool
  | .bool verdict => some verdict
  | _ => none

/-- A JSON array whose items all have the wanted shape. -/
def itemsOf? {Item : Type} (read : Json → Option Item) (value : Json) : Option (List Item) :=
  match value with
  | .array items => items.mapM read
  | _ => none

/-- `f"case-{index:03d}"`. -/
def importedId (index : Nat) : Text :=
  text "case-" ++ List.replicate (3 - (decimal index).length) zeroDigit ++ decimal index

/-- The fixtures for the responses and verdicts, counted from `start`. -/
def importedCases (start : Nat) :
    List (List (Text × Json)) → List Bool → List SuiteCase
  | response :: responses, expected :: verdicts =>
      ⟨importedId start, response, expected, none⟩ :: importedCases (start + 1) responses verdicts
  | _, _ => []

def importedSuite (responses : List (List (Text × Json))) (verdicts : List Bool) : Suite :=
  ⟨.version1_0, importedCases 1 responses verdicts⟩

def importResponses (responses expectations : Json) : Except TestbenchError Suite := do
  boundedArtifact responses
  boundedArtifact expectations
  match itemsOf? Json.members? responses, itemsOf? Json.verdict? expectations with
  | some objects, some verdicts => do
      require (1 ≤ objects.length ∧ objects.length ≤ maxSuiteCases ∧
        verdicts.length = objects.length) importFailure
      let suite ← validateSuite (importedSuite objects verdicts).toJson
      boundedArtifact suite.toJson
      .ok suite
  | _, _ => .error importFailure

/-! ## The arrays -/

theorem itemsOf?_eq_some_iff {Item : Type} {read : Json → Option Item} {write : Item → Json}
    (inverse : ∀ value item, read value = some item ↔ value = write item) {value : Json}
    {items : List Item} : itemsOf? read value = some items ↔ value = .array (items.map write) := by
  cases value with
  | array values => rw [itemsOf?, mapM_eq_some_iff inverse, Json.array.injEq]
  | _ => simp [itemsOf?]

def responsesJson (responses : List (List (Text × Json))) : Json :=
  .array (responses.map Json.object)

def verdictsJson (verdicts : List Bool) : Json :=
  .array (verdicts.map Json.bool)

theorem responsesOf?_eq_some_iff {value : Json} {responses : List (List (Text × Json))} :
    itemsOf? Json.members? value = some responses ↔ value = responsesJson responses :=
  itemsOf?_eq_some_iff fun value members => by cases value <;> simp [Json.members?]

theorem verdictsOf?_eq_some_iff {value : Json} {verdicts : List Bool} :
    itemsOf? Json.verdict? value = some verdicts ↔ value = verdictsJson verdicts :=
  itemsOf?_eq_some_iff fun value verdict => by cases value <;> simp [Json.verdict?]

/-! ## The numbered cases -/

section Numbered

variable {responses : List (List (Text × Json))} {verdicts : List Bool}

theorem importedCases_fields (sameLength : verdicts.length = responses.length) (start : Nat) :
    let cases := importedCases start responses verdicts
    cases.map SuiteCase.response = responses ∧ cases.map SuiteCase.expectedPassed = verdicts ∧
      cases.map SuiteCase.caseId = (List.range' start responses.length).map importedId ∧
      ∀ case ∈ cases, case.expectedRules = none := by
  induction responses generalizing verdicts start with
  | nil =>
      rw [List.length_eq_zero_iff.mp sameLength]
      simp [importedCases]
  | cons response responses induction =>
      cases verdicts with
      | nil => cases sameLength
      | cons expected verdicts =>
          rcases induction (Nat.succ.inj sameLength) (start + 1) with
            ⟨sameResponses, sameVerdicts, sameIds, unasserted⟩
          simp only [importedCases, List.map_cons, sameResponses, sameVerdicts, sameIds,
            List.length_cons, List.range'_succ, List.forall_mem_cons, true_and]
          exact unasserted

theorem importedId_increasing : ∀ index < maxSuiteCases,
    importedId index < importedId (index + 1) ∧ isIdentifier (importedId (index + 1)) = true := by
  decide +kernel

/-- Three digits are enough for every suite, so the identifiers are in increasing order. -/
theorem importedIds_sorted {count : Nat} (few : count ≤ maxSuiteCases) :
    ((List.range' 1 count).map importedId).Pairwise (· < ·) := by
  have increasing : ∀ {index later : Nat}, index < later → later ≤ maxSuiteCases →
      importedId index < importedId later := by
    intro index later before inside
    induction later with
    | zero => omega
    | succ later induction =>
        have next := (importedId_increasing later (by omega)).1
        rcases Nat.lt_succ_iff_lt_or_eq.mp before with earlier | rfl
        · exact (induction earlier (by omega)).trans next
        · exact next
  rw [List.pairwise_map]
  have ordered : (List.range' 1 count).Pairwise (· < ·) := List.pairwise_lt_range'
  apply ordered.imp_of_mem
  intro index later _ inRange before
  rw [List.mem_range'_1] at inRange
  exact increasing before (by omega)

variable (sameLength : verdicts.length = responses.length)
  (few : responses.length ≤ maxSuiteCases)

include sameLength few

theorem importedSuite_sorted : (importedSuite responses verdicts).caseIds.Pairwise (· < ·) := by
  rw [Suite.caseIds, importedSuite, (importedCases_fields sameLength 1).2.2.1]
  exact importedIds_sorted few

/-- Only the size of the suite remains to be checked. -/
theorem importedSuite_valid (nonempty : responses ≠ [])
    (fits : (importedSuite responses verdicts).toJson.FitsLimits maxJsonInputBytes) :
    (importedSuite responses verdicts).Valid := by
  rcases importedCases_fields sameLength 1 with ⟨sameResponses, _, sameIds, unasserted⟩
  have count : (importedSuite responses verdicts).cases.length = responses.length := by
    rw [importedSuite, ← List.length_map SuiteCase.response, sameResponses]
  refine ⟨?_, count.trans_le few, ?_, ?_, ?_, fun _ => unasserted, fits⟩
  · exact List.length_pos_iff.mp (count ▸ List.length_pos_iff.mpr nonempty)
  · exact (importedSuite_sorted sameLength few).imp fun before => ne_of_lt before
  · intro case member
    have listed : case.caseId ∈ (List.range' 1 responses.length).map importedId :=
      sameIds ▸ List.mem_map_of_mem member
    rcases List.mem_map.mp listed with ⟨index, inRange, equal⟩
    rw [List.mem_range'_1] at inRange
    have named := (importedId_increasing (index - 1) (by omega)).2
    rwa [Nat.sub_add_cancel inRange.1, equal] at named
  · intro case member entry listed
    rw [SuiteCase.assertions, unasserted case member] at listed
    cases listed

end Numbered

/-! ## Sizes of the arrays -/

private theorem responsesJson_narrower (suite : Suite) :
    (responsesJson (suite.cases.map SuiteCase.response)).Narrower suite.toJson := by
  have each : List.Forall₂ Json.Narrower (suite.cases.map fun case => Json.object case.response)
      (suite.cases.map fun case => Json.object case.members) := by
    rw [List.forall₂_map_left_iff, List.forall₂_map_right_iff]
    exact List.forall₂_same.mpr fun case _ =>
      @Json.narrower_of_member (text "response") _ _ (by simp [SuiteCase.members])
  rw [responsesJson, List.map_map]
  exact (Json.narrower_array each).trans
    (@Json.narrower_of_member (text "cases") _ _ (by simp))

private theorem verdictsJson_narrower (suite : Suite) :
    (verdictsJson (suite.cases.map SuiteCase.expectedPassed)).Narrower suite.toJson := by
  have each : List.Forall₂ Json.Narrower (suite.cases.map fun case => Json.bool case.expectedPassed)
      (suite.cases.map fun case => Json.object case.members) := by
    rw [List.forall₂_map_left_iff, List.forall₂_map_right_iff]
    exact List.forall₂_same.mpr fun case _ =>
      @Json.narrower_of_member (text "expected_passed") _ _ (by simp [SuiteCase.members])
  rw [verdictsJson, List.map_map]
  exact (Json.narrower_array each).trans
    (@Json.narrower_of_member (text "cases") _ _ (by simp))

/-! ## What is imported -/

/-- Suitable arrays are imported exactly when the suite is not too large; that the arrays are
not too large themselves follows. -/
theorem importResponses_ok_iff {responses expectations : Json} {suite : Suite} :
    importResponses responses expectations = .ok suite ↔
      ∃ objects verdicts, responses = responsesJson objects ∧
        expectations = verdictsJson verdicts ∧ objects ≠ [] ∧
        objects.length ≤ maxSuiteCases ∧ verdicts.length = objects.length ∧
        boundedArtifact (importedSuite objects verdicts).toJson = .ok () ∧
        suite = importedSuite objects verdicts := by
  rw [importResponses, bind_eq_ok_iff]
  simp only [bind_eq_ok_iff]
  constructor
  · intro returned
    rcases returned with ⟨_, _, _, _, returned⟩
    split at returned
    · rename_i objects verdicts shaped judged
      simp only [bind_eq_ok_iff, require_eq_ok_iff, validateSuite_toJson_eq_ok_iff] at returned
      rcases returned with ⟨_, ⟨positive, few, sameLength⟩, _, ⟨_, rfl⟩, rest⟩
      have bounded := bounded_return_eq_ok_iff.mp (bind_eq_ok_iff.mpr rest)
      exact ⟨objects, verdicts, responsesOf?_eq_some_iff.mp shaped,
        verdictsOf?_eq_some_iff.mp judged, List.length_pos_iff.mp positive, few, sameLength,
        bounded⟩
    · cases returned
  · intro suitable
    rcases suitable with ⟨objects, verdicts, rfl, rfl, nonempty, few, sameLength, bounded, rfl⟩
    have valid := importedSuite_valid sameLength few nonempty (boundedArtifact_fitsLimits bounded)
    rcases importedCases_fields sameLength 1 with ⟨sameResponses, sameVerdicts, _⟩
    have responsesNarrower := responsesJson_narrower (importedSuite objects verdicts)
    have verdictsNarrower := verdictsJson_narrower (importedSuite objects verdicts)
    rw [importedSuite, sameResponses] at responsesNarrower
    rw [importedSuite, sameVerdicts] at verdictsNarrower
    refine ⟨(), boundedArtifact_of_narrower responsesNarrower bounded, (),
      boundedArtifact_of_narrower verdictsNarrower bounded, ?_⟩
    rw [responsesOf?_eq_some_iff.mpr rfl, verdictsOf?_eq_some_iff.mpr rfl]
    simp only [bind_eq_ok_iff, require_eq_ok_iff]
    exact ⟨(), ⟨List.length_pos_iff.mpr nonempty, few, sameLength⟩, _, valid.validate_toJson,
      (), bounded, rfl⟩

/-- Without assertions, a suite matches when its verdicts are the observed ones. -/
theorem suiteReport_verdicts {policy : Policy} {suite : Suite}
    (version : suite.suiteVersion = .version1_0) :
    (suiteReport policy suite).matchesExpectations = true ↔
      suite.cases.map SuiteCase.expectedPassed =
        suite.cases.map fun case => (policy.evaluate (.object case.response)).passed := by
  rw [List.map_inj_left, suiteReport, List.all_map, List.all_eq_true]
  apply forall₂_congr
  intro case _
  simp only [version, Function.comp_apply, caseReport, decide_eq_true_iff]
  exact eq_comm

/-- An imported suite holds the given responses and verdicts, in the given order and under
increasing identifiers. Under any policy it matches exactly when each response is judged as
expected, and importing its own responses and verdicts gives it back. -/
theorem importResponses_round_trip {responses expectations : Json} {suite : Suite}
    (imported : importResponses responses expectations = .ok suite) :
    validateSuite suite.toJson = .ok suite ∧
    responses = responsesJson (suite.cases.map SuiteCase.response) ∧
    expectations = verdictsJson (suite.cases.map SuiteCase.expectedPassed) ∧
    suite.caseIds.Pairwise (· < ·) ∧
    importResponses (responsesJson (suite.cases.map SuiteCase.response))
      (verdictsJson (suite.cases.map SuiteCase.expectedPassed)) = .ok suite ∧
    (∀ otherResponses otherExpectations, importResponses otherResponses otherExpectations =
      .ok suite → otherResponses = responses ∧ otherExpectations = expectations) ∧
    ∀ input policy, validatePolicy input = .ok policy →
      ∃ report, evaluateSuite input suite.toJson = .ok report ∧
        report.cases.map CaseReport.evaluation =
          suite.cases.map (fun case => policy.evaluate (.object case.response)) ∧
        (report.matchesExpectations = true ↔ suite.cases.map SuiteCase.expectedPassed =
          suite.cases.map fun case => (policy.evaluate (.object case.response)).passed) := by
  have arrays : ∀ {otherResponses otherExpectations : Json}, importResponses otherResponses
      otherExpectations = .ok suite →
      otherResponses = responsesJson (suite.cases.map SuiteCase.response) ∧
        otherExpectations = verdictsJson (suite.cases.map SuiteCase.expectedPassed) := by
    intro _ _ other
    rcases importResponses_ok_iff.mp other with ⟨_, _, rfl, rfl, _, _, sameLength, _, rfl⟩
    rcases importedCases_fields sameLength 1 with ⟨sameResponses, sameVerdicts, _⟩
    rw [importedSuite, sameResponses, sameVerdicts]
    exact ⟨rfl, rfl⟩
  rcases arrays imported with ⟨sameResponses, sameVerdicts⟩
  rcases importResponses_ok_iff.mp imported with
    ⟨objects, verdicts, _, _, nonempty, few, sameLength, bounded, rfl⟩
  have valid := importedSuite_valid sameLength few nonempty (boundedArtifact_fitsLimits bounded)
  have again := valid.validate_toJson
  refine ⟨again, sameResponses, sameVerdicts, importedSuite_sorted sameLength few,
    sameResponses ▸ sameVerdicts ▸ imported, ?_, ?_⟩
  · intro _ _ other
    rw [sameResponses, sameVerdicts]
    exact arrays other
  · intro input policy validated
    refine ⟨_, evaluateSuite_eq validated again, ?_, suiteReport_verdicts rfl⟩
    rw [suiteReport, List.map_map]
    rfl

theorem importResponses_round_trip_pair :
    let responses := responsesJson [[(text "flag", .null)], []]
    let expectations := verdictsJson [true, false]
    let suite := importedSuite [[(text "flag", .null)], []] [true, false]
    validateSuite suite.toJson = .ok suite ∧
    responses = responsesJson (suite.cases.map SuiteCase.response) ∧
    expectations = verdictsJson (suite.cases.map SuiteCase.expectedPassed) ∧
    suite.caseIds.Pairwise (· < ·) ∧
    importResponses (responsesJson (suite.cases.map SuiteCase.response))
      (verdictsJson (suite.cases.map SuiteCase.expectedPassed)) = .ok suite ∧
    (∀ otherResponses otherExpectations, importResponses otherResponses otherExpectations =
      .ok suite → otherResponses = responses ∧ otherExpectations = expectations) ∧
    ∀ input policy, validatePolicy input = .ok policy →
      ∃ report, evaluateSuite input suite.toJson = .ok report ∧
        report.cases.map CaseReport.evaluation =
          suite.cases.map (fun case => policy.evaluate (.object case.response)) ∧
        (report.matchesExpectations = true ↔ suite.cases.map SuiteCase.expectedPassed =
          suite.cases.map fun case => (policy.evaluate (.object case.response)).passed) :=
  importResponses_round_trip (by decide +kernel)

end AgentTestbench

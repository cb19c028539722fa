import AgentTestbench.Foundation.FirstSeen
import AgentTestbench.Inspection.Consistency
import AgentTestbench.Inspection.Diff

/-! # Deduplicated suites

`deduplicate_suite` keeps the first of the cases that are equal apart from their
identifiers. What evaluation and inspection say of a suite does not depend on the others.
-/

namespace AgentTestbench

open AssociationList Fallible FirstSeen

/-- `{key: value for key, value in case.items() if key != "case_id"}`. -/
def SuiteCase.payload (case : SuiteCase) : Json :=
  .object (erase (text "case_id") case.members)

def caseIdentity (case : SuiteCase) : Text :=
  case.payload.canonicalText

def deduplicateSuite (suite : Json) : Except TestbenchError Suite := do
  let fixtures ← validateSuite suite
  let deduplicated : Suite := { fixtures with cases := keepFirst caseIdentity [] fixtures.cases }
  boundedArtifact deduplicated.toJson
  .ok deduplicated

/-! ## Payloads -/

/-- The payload does not depend on the identifier. -/
theorem SuiteCase.payload_renamed (case : SuiteCase) (caseId : Text) :
    SuiteCase.payload { case with caseId := caseId } = case.payload := rfl

private theorem SuiteCase.field?_renamed (case : SuiteCase) (caseId : Text) (name : CaseField) :
    SuiteCase.field? { case with caseId := caseId } name = case.field? name := by
  cases name <;> rfl

/-- Under one identifier, cases whose fields are the same are the same. -/
theorem SuiteCase.same_of_fields {left right : SuiteCase}
    (same : ∀ name, SameField left right name) :
    (Json.object (SuiteCase.members { left with caseId := right.caseId })).Same
      (.object right.members) := by
  refine SuiteCase.same_iff.mpr ⟨rfl, fun name => ?_⟩
  rw [SameField, SuiteCase.field?_renamed]
  exact same name

private theorem SuiteCase.payload_same_iff {left right : SuiteCase} :
    left.payload.Same right.payload ↔ ∀ name, SameField left right name := by
  have kept : ∀ case : SuiteCase, ∀ key, key ≠ text "case_id" →
      case.payload.member? key = lookup key case.members :=
    fun case key other => lookup_erase_of_ne other case.members
  constructor
  · intro same name
    have other : name.name ≠ text "case_id" := by cases name <;> decide
    have found := same.member? name.name
    rwa [kept left _ other, kept right _ other] at found
  · intro same
    have distinct : ∀ case : SuiteCase, (keys (erase (text "case_id") case.members)).Nodup :=
      fun case => case.keys_members_nodup.sublist (List.filter_sublist.map Prod.fst)
    have whole := SuiteCase.same_of_fields same
    rw [← left.payload_renamed right.caseId]
    apply (Json.same_object_iff (distinct _) (distinct right)).mpr
    intro key
    by_cases identifier : key = text "case_id"
    · rw [identifier, lookup_erase_self, lookup_erase_self]
    · rw [lookup_erase_of_ne identifier, lookup_erase_of_ne identifier]
      exact whole.member? key

/-- Cases with the same payload are alike once they share an identifier. -/
theorem SuiteCase.alike_of_payload {left right : SuiteCase}
    (same : left.payload.Same right.payload) :
    SuiteCase.Alike { left with caseId := right.caseId } right :=
  SuiteCase.alike_of_same (SuiteCase.same_of_fields (SuiteCase.payload_same_iff.mp same))

theorem mem_assertions_of_payload {left right : SuiteCase}
    (same : left.payload.Same right.payload) (leftDistinct : left.Distinct)
    (rightDistinct : right.Distinct) (entry : Text × Assertion) :
    entry ∈ left.assertions ↔ entry ∈ right.assertions :=
  (SuiteCase.alike_of_payload same).mem_assertions_iff leftDistinct rightDistinct entry

theorem Suite.Valid.payload_encodable {suite : Suite} (valid : suite.Valid) {case : SuiteCase}
    (member : case ∈ suite.cases) : case.payload.Encodable := by
  have encodable := Json.encodable_object_iff.mp (valid.case_encodable member)
  exact Json.encodable_object_iff.mpr fun entry inPayload =>
    encodable entry (List.mem_of_mem_filter inPayload)

theorem Suite.ReadFrom.payload_wellFormed {raw : Json} {suite : Suite}
    (read : suite.ReadFrom raw) (formed : raw.WellFormed) {case : SuiteCase}
    (member : case ∈ suite.cases) : case.payload.WellFormed := by
  have whole := Json.wellFormed_object_iff.mp (read.case_wellFormed formed member)
  refine Json.wellFormed_object_iff.mpr
    ⟨whole.1.sublist (List.filter_sublist.map Prod.fst), fun entry inPayload => ?_⟩
  exact whole.2 entry (List.mem_of_mem_filter inPayload)

/-! ## What is kept -/

def Suite.deduplicated (suite : Suite) : Suite :=
  { suite with cases := keepFirst caseIdentity [] suite.cases }

theorem deduplicateSuite_eq_ok_iff {raw : Json} {suite deduplicated : Suite}
    (suiteValidated : validateSuite raw = .ok suite) :
    deduplicateSuite raw = .ok deduplicated ↔
      boundedArtifact suite.deduplicated.toJson = .ok () ∧
        deduplicated = suite.deduplicated := by
  rw [deduplicateSuite, suiteValidated, ok_bind]
  exact bounded_return_eq_ok_iff

section Kept

variable {suite : Suite}

theorem Suite.deduplicated_sublist : suite.deduplicated.cases.Sublist suite.cases :=
  keepFirst_sublist caseIdentity [] suite.cases

private theorem Suite.deduplicated_deduplicated :
    suite.deduplicated.deduplicated = suite.deduplicated := by
  rw [deduplicated, deduplicated, keepFirst_keepFirst]

variable (valid : suite.Valid)

include valid

theorem caseIdentity_eq_iff {left right : SuiteCase} (inLeft : left ∈ suite.cases)
    (inRight : right ∈ suite.cases) :
    caseIdentity left = caseIdentity right ↔ left.payload.Same right.payload :=
  canonicalText_eq_iff (valid.payload_encodable inLeft) (valid.payload_encodable inRight)

/-- Every case is represented by a kept one that stands no later. -/
theorem Suite.Valid.represented {index : Nat} {case : SuiteCase}
    (found : suite.cases[index]? = some case) :
    ∃ first ≤ index, ∃ kept ∈ suite.deduplicated.cases, suite.cases[first]? = some kept ∧
      kept.payload.Same case.payload := by
  rcases @keepFirst_covers _ _ _ caseIdentity [] _ _ _ found with inSeen | covered
  · cases inSeen
  · rcases covered with ⟨first, before, kept, member, located, same⟩
    refine ⟨first, before, kept, member, located, ?_⟩
    exact (caseIdentity_eq_iff valid (Suite.deduplicated_sublist.subset member)
      (List.mem_of_getElem? found)).mp same

theorem Suite.Valid.exists_representative {case : SuiteCase} (member : case ∈ suite.cases) :
    ∃ kept ∈ suite.deduplicated.cases, kept.payload.Same case.payload := by
  rcases List.mem_iff_getElem?.mp member with ⟨index, found⟩
  rcases valid.represented found with ⟨_, _, kept, inKept, _, same⟩
  exact ⟨kept, inKept, same⟩

theorem Suite.Valid.deduplicated : suite.deduplicated.Valid := by
  apply valid.of_sublist Suite.deduplicated_sublist
  rcases List.exists_mem_of_ne_nil _ valid.nonempty with ⟨case, member⟩
  rcases valid.exists_representative member with ⟨kept, inKept, _⟩
  exact List.ne_nil_of_mem inKept

private theorem Suite.Valid.deduplicated_pairwise :
    suite.deduplicated.cases.Pairwise fun left right => ¬left.payload.Same right.payload := by
  have distinct := keepFirst_distinct caseIdentity [] suite.cases
  rw [List.nodup_iff_pairwise_ne, List.pairwise_map] at distinct
  refine distinct.imp_of_mem ?_
  intro left right inLeft inRight different same
  have inSuite := Suite.deduplicated_sublist.subset inLeft
  exact different ((caseIdentity_eq_iff valid inSuite
    (Suite.deduplicated_sublist.subset inRight)).mpr same)

end Kept

/-! ## Gates -/

/-- Cases with the same payload match their expectations alike. -/
theorem matchesExpectation_eq_of_payload {policy : Policy} (policyValid : policy.Valid)
    {left right : SuiteCase} (same : left.payload.Same right.payload)
    (leftDistinct : left.Distinct) (rightDistinct : right.Distinct) (version : SuiteVersion) :
    (caseReport policy version left).matchesExpectation =
      (caseReport policy version right).matchesExpectation := by
  have alike := SuiteCase.alike_of_payload same
  have evaluated : policy.evaluate (.object left.response) =
      policy.evaluate (.object right.response) := policyValid.evaluate_congr alike.response
  have expected : left.expectedPassed = right.expectedPassed := alike.expectedPassed
  have mismatches := fun results : List RuleResult =>
    alike.assertionMismatches_eq leftDistinct rightDistinct results
  change ∀ results, assertionMismatches left.assertions results = _ at mismatches
  cases version <;> simp only [caseReport, evaluated, expected, mismatches]

section Gates

variable {suite : Suite} (valid : suite.Valid)
  (distinct : ∀ case ∈ suite.cases, case.Distinct)

include valid distinct

private theorem Suite.Valid.deduplicated_consistent_iff :
    suite.deduplicated.Consistent ↔ suite.Consistent := by
  have sublist : suite.deduplicated.cases.Sublist suite.cases := Suite.deduplicated_sublist
  constructor
  · intro consistent left inLeft right inRight same
    rcases valid.exists_representative inLeft with ⟨first, firstKept, firstSame⟩
    rcases valid.exists_representative inRight with ⟨second, secondKept, secondSame⟩
    have leftAlike := SuiteCase.alike_of_payload firstSame
    have rightAlike := SuiteCase.alike_of_payload secondSame
    have agrees := consistent first firstKept second secondKept
      ((leftAlike.response.trans same).trans rightAlike.response.symm)
    have leftAsserted := mem_assertions_of_payload firstSame
      (distinct first (sublist.subset firstKept)) (distinct left inLeft)
    have rightAsserted := mem_assertions_of_payload secondSame
      (distinct second (sublist.subset secondKept)) (distinct right inRight)
    constructor
    · exact leftAlike.expectedPassed.symm.trans (agrees.1.trans rightAlike.expectedPassed)
    · intro leftEntry leftMember rightEntry rightMember
      exact agrees.2 leftEntry ((leftAsserted leftEntry).mpr leftMember) rightEntry
        ((rightAsserted rightEntry).mpr rightMember)
  · intro consistent left inLeft right inRight
    exact consistent left (sublist.subset inLeft) right (sublist.subset inRight)

theorem Suite.Valid.deduplicated_matchesExpectations {policy : Policy}
    (policyValid : policy.Valid) :
    (suiteReport policy suite.deduplicated).matchesExpectations =
      (suiteReport policy suite).matchesExpectations := by
  have sublist : suite.deduplicated.cases.Sublist suite.cases := Suite.deduplicated_sublist
  apply Bool.eq_iff_iff.mpr
  simp only [suiteReport, List.all_map, List.all_eq_true, Function.comp_apply]
  constructor
  · intro met case member
    rcases valid.exists_representative member with ⟨kept, inKept, same⟩
    rw [← matchesExpectation_eq_of_payload policyValid same
      (distinct kept (sublist.subset inKept)) (distinct case member)]
    exact met kept inKept
  · exact fun met case member => met case (sublist.subset member)

end Gates

/-- Deduplication keeps every distinct fixture and every gate. -/
theorem deduplicateSuite_lossless {raw : Json} {suite deduplicated : Suite}
    (formed : raw.WellFormed) (suiteValidated : validateSuite raw = .ok suite)
    (returned : deduplicateSuite raw = .ok deduplicated) :
    deduplicated.suiteVersion = suite.suiteVersion ∧
    deduplicated.cases.Sublist suite.cases ∧
    (deduplicated.cases.Pairwise fun left right => ¬left.payload.Equal right.payload) ∧
    (∀ (index : Nat) (case : SuiteCase), suite.cases[index]? = some case →
      ∃ first ≤ index, ∃ kept ∈ deduplicated.cases, suite.cases[first]? = some kept ∧
        kept.payload.Equal case.payload) ∧
    deduplicateSuite deduplicated.toJson = .ok deduplicated ∧
    (∀ input policy, validatePolicy input = .ok policy →
      ∃ report reduced, evaluateSuite input raw = .ok report ∧
        evaluateSuite input deduplicated.toJson = .ok reduced ∧
        (reduced.matchesExpectations = true ↔ report.matchesExpectations = true)) ∧
    ∀ inventory reduced, inspectSuite raw = .ok inventory →
      inspectSuite deduplicated.toJson = .ok reduced →
      reduced.consistentExpectations = inventory.consistentExpectations := by
  have valid := valid_of_validateSuite suiteValidated
  have read := validateSuite_eq_ok_iff.mp suiteValidated
  have distinct := (read.same formed).2
  have sublist : suite.deduplicated.cases.Sublist suite.cases := Suite.deduplicated_sublist
  have equal_iff : ∀ left ∈ suite.cases, ∀ right ∈ suite.cases,
      (left.payload.Same right.payload ↔ left.payload.Equal right.payload) :=
    fun left inLeft right inRight => Json.same_iff_equal
      (read.payload_wellFormed formed inLeft) (read.payload_wellFormed formed inRight)
  rcases (deduplicateSuite_eq_ok_iff suiteValidated).mp returned with ⟨bounded, rfl⟩
  have again := valid.deduplicated.validate_toJson
  refine ⟨rfl, sublist, ?_, ?_, ?_, ?_, ?_⟩
  · refine valid.deduplicated_pairwise.imp_of_mem ?_
    intro left right inLeft inRight different
    rwa [← equal_iff left (sublist.subset inLeft) right (sublist.subset inRight)]
  · intro index case found
    rcases valid.represented found with ⟨first, before, kept, inKept, located, same⟩
    exact ⟨first, before, kept, inKept, located, (equal_iff kept (sublist.subset inKept) case
      (List.mem_of_getElem? found)).mp same⟩
  · rw [deduplicateSuite_eq_ok_iff again, Suite.deduplicated_deduplicated]
    exact ⟨bounded, rfl⟩
  · intro input policy validated
    refine ⟨_, _, evaluateSuite_eq validated suiteValidated, evaluateSuite_eq validated again, ?_⟩
    rw [valid.deduplicated_matchesExpectations distinct (valid_of_validatePolicy validated)]
  · intro inventory reduced inspected reducedInspected
    apply Bool.eq_iff_iff.mpr
    rw [inspectSuite_consistent_iff suiteValidated distinct inspected,
      inspectSuite_consistent_iff again
        (fun case member => distinct case (sublist.subset member)) reducedInspected]
    exact valid.deduplicated_consistent_iff distinct

/-- The second case repeats the first with its members in another order. -/
def twinSuite : Suite :=
  ⟨.version1_1, [
    ⟨text "a", [(text "flag", .bool true), (text "rank", .null)], true, none⟩,
    ⟨text "b", [(text "rank", .null), (text "flag", .bool true)], true, none⟩,
    ⟨text "c", [(text "flag", .number (.integer 1)), (text "rank", .null)], true, none⟩,
    ⟨text "d", [(text "flag", .bool true), (text "rank", .null)], true, some []⟩]⟩

example : twinSuite.deduplicated.cases.map SuiteCase.caseId = [text "a", text "c", text "d"] := by
  decide +kernel

theorem deduplicateSuite_lossless_twins :
    let deduplicated := twinSuite.deduplicated
    deduplicated.cases.Sublist twinSuite.cases ∧
    deduplicateSuite deduplicated.toJson = .ok deduplicated ∧
    (∃ report reduced, evaluateSuite (.object presencePolicy.toObject) twinSuite.toJson =
        .ok report ∧
      evaluateSuite (.object presencePolicy.toObject) deduplicated.toJson = .ok reduced ∧
      (reduced.matchesExpectations = true ↔ report.matchesExpectations = true)) ∧
    ∀ inventory reduced, inspectSuite twinSuite.toJson = .ok inventory →
      inspectSuite deduplicated.toJson = .ok reduced →
      reduced.consistentExpectations = inventory.consistentExpectations := by
  have outer : [text "suite_version", text "cases"].Nodup := by decide
  have three : [text "case_id", text "response", text "expected_passed"].Nodup := by decide
  have four : [text "case_id", text "response", text "expected_passed",
      text "expected_rules"].Nodup := by decide
  have flagRank : [text "flag", text "rank"].Nodup := by decide
  have rankFlag : [text "rank", text "flag"].Nodup := by decide
  have formed : twinSuite.toJson.WellFormed :=
    ⟨outer, trivial, ⟨trivial, ⟨three, trivial, ⟨flagRank, trivial, trivial, trivial⟩, trivial,
        trivial⟩,
      ⟨three, trivial, ⟨rankFlag, trivial, trivial, trivial⟩, trivial, trivial⟩,
      ⟨three, trivial, ⟨flagRank, trivial, trivial, trivial⟩, trivial, trivial⟩,
      ⟨four, trivial, ⟨flagRank, trivial, trivial, trivial⟩, trivial, ⟨List.nodup_nil, trivial⟩,
        trivial⟩, trivial⟩, trivial⟩
  have lossless := deduplicateSuite_lossless formed
    (show validateSuite _ = .ok twinSuite by decide +kernel)
    (show deduplicateSuite _ = .ok twinSuite.deduplicated by decide +kernel)
  exact ⟨lossless.2.1, lossless.2.2.2.2.1, lossless.2.2.2.2.2.1
    (.object presencePolicy.toObject) presencePolicy
    (show validatePolicy _ = .ok _ by decide +kernel), lossless.2.2.2.2.2.2⟩

end AgentTestbench

import AgentTestbench.Coverage
import AgentTestbench.Curation
import AgentTestbench.Foundation.GreedyCover

/-! # Reduced suites

`reduce_suite` keeps the mismatching cases and a greedy cover of what the others show.
Every gate that reads only what is shown decides the reduced suite as the full one.
-/

namespace AgentTestbench

open AssociationList Fallible GreedyCover

/-- What a case shows, one of the tuples of `signature`. Tuples of different kinds are
never equal: a reason code is a string and an expectation is not. -/
inductive Signature where
  | rule (ruleId : Text) (passed : Bool) (reasonCode : ReasonCode)
  | verdict (passed expectedPassed : Bool)
  | assertion (ruleId : Text) (passed : Bool) (reasonCode : ReasonCode)
  deriving DecidableEq

/-- One round of the loop that fills `signatures`. -/
def caseSignature (case : SuiteCase) (row : CaseReport) : Finset Signature :=
  let rules := row.evaluation.ruleResults.map fun item =>
    Signature.rule item.ruleId item.passed item.reasonCode
  let verdict := Signature.verdict row.evaluation.passed row.expectedPassed
  let assertions := case.assertions.map fun entry =>
    Signature.assertion entry.1 entry.2.passed entry.2.reasonCode
  (rules ++ verdict :: assertions).toFinset

def CaseReport.mismatching (row : CaseReport) : Bool :=
  !row.matchesExpectation

def reduceSuite (policy : PolicyInput) (suite : Json) : Except TestbenchError Suite := do
  let current ← validatePolicy policy
  let fixtures ← validateSuite suite
  let report ← evaluateSuite (.object current.toObject) fixtures.toJson
  let signatures := List.zipWith caseSignature fixtures.cases report.cases
  let retained := cover signatures (indicesOf CaseReport.mismatching report.cases)
  let kept : Suite := { fixtures with cases := retain retained fixtures.cases }
  let reduced ← validateSuite kept.toJson
  boundedArtifact reduced.toJson
  .ok reduced

/-! ## The reduced suite -/

namespace Policy

variable (policy : Policy)

/-- What a case shows under the policy. -/
def signature (version : SuiteVersion) (case : SuiteCase) : Finset Signature :=
  caseSignature case (caseReport policy version case)

def mismatching (version : SuiteVersion) (case : SuiteCase) : Bool :=
  (caseReport policy version case).mismatching

def reduced (suite : Suite) : Suite :=
  { suite with
    cases := select (policy.signature suite.suiteVersion)
      (policy.mismatching suite.suiteVersion) suite.cases }

private theorem reduced_reduced (suite : Suite) :
    policy.reduced (policy.reduced suite) = policy.reduced suite := by
  rw [reduced, reduced, select_select]

end Policy

private theorem indicesOf_map {Item Other : Type} (mark : Other → Bool) (transform : Item → Other)
    (items : List Item) :
    indicesOf mark (items.map transform) = indicesOf (mark ∘ transform) items := by
  ext index
  rw [mem_indicesOf, mem_indicesOf, List.getElem?_map]
  cases items[index]? <;> simp

theorem caseReport_expectedPassed (policy : Policy) (version : SuiteVersion) (case : SuiteCase) :
    (caseReport policy version case).expectedPassed = case.expectedPassed := by
  cases version <;> rfl

section Shown

variable {policy : Policy} {version : SuiteVersion} {case : SuiteCase}

theorem rule_mem_signature (valid : policy.Valid) {ruleId : Text} {passed : Bool}
    {reasonCode : ReasonCode} :
    Signature.rule ruleId passed reasonCode ∈ policy.signature version case ↔
      ∃ rule ∈ policy.rules, rule.ruleId = ruleId ∧
        (evaluateRule rule (.object case.response)).passed = passed ∧
        (evaluateRule rule (.object case.response)).reasonCode = reasonCode := by
  rw [Policy.signature, caseSignature, List.mem_toFinset, caseReport_evaluation,
    valid.evaluate_ruleResults]
  simp [evaluateRule_ruleId]

theorem verdict_mem_signature {passed expectedPassed : Bool} :
    Signature.verdict passed expectedPassed ∈ policy.signature version case ↔
      passed = (policy.evaluate (.object case.response)).passed ∧
        expectedPassed = case.expectedPassed := by
  rw [Policy.signature, caseSignature, List.mem_toFinset, caseReport_evaluation,
    caseReport_expectedPassed]
  simp

theorem assertion_mem_signature {entry : Text × Assertion} :
    Signature.assertion entry.1 entry.2.passed entry.2.reasonCode ∈
      policy.signature version case ↔ entry ∈ case.assertions := by
  have same : ∀ other : Text × Assertion,
      Signature.assertion other.1 other.2.passed other.2.reasonCode =
        .assertion entry.1 entry.2.passed entry.2.reasonCode ↔ other = entry := by
    intro other
    rw [Signature.assertion.injEq, Prod.ext_iff, Assertion.ext_iff]
  rw [Policy.signature, caseSignature, List.mem_toFinset, List.mem_append, List.mem_cons,
    List.mem_map, List.mem_map]
  simp [same]

end Shown

namespace Policy

variable {policy : Policy} {suite : Suite}

theorem reduced_sublist : (policy.reduced suite).cases.Sublist suite.cases :=
  select_sublist _ _ _

theorem mem_reduced_of_mismatch {case : SuiteCase} (member : case ∈ suite.cases)
    (mismatch : (caseReport policy suite.suiteVersion case).matchesExpectation = false) :
    case ∈ (policy.reduced suite).cases := by
  apply mem_select_of_marked member
  rw [mismatching, CaseReport.mismatching, mismatch, Bool.not_false]

theorem exists_reduced_of_verdict {case : SuiteCase} (member : case ∈ suite.cases) :
    ∃ other ∈ (policy.reduced suite).cases,
      (policy.evaluate (.object other.response)).passed =
        (policy.evaluate (.object case.response)).passed ∧
      other.expectedPassed = case.expectedPassed := by
  have shown := @verdict_mem_signature policy suite.suiteVersion case _ _ |>.mpr ⟨rfl, rfl⟩
  rcases exists_select_of_mem member shown with ⟨other, kept, shown⟩
  have equal := verdict_mem_signature.mp shown
  exact ⟨other, kept, equal.1.symm, equal.2.symm⟩

private theorem exists_reduced_of_assertion {case : SuiteCase} {entry : Text × Assertion}
    (member : case ∈ suite.cases) (asserted : entry ∈ case.assertions) :
    ∃ other ∈ (policy.reduced suite).cases, entry ∈ other.assertions := by
  have shown := @assertion_mem_signature policy suite.suiteVersion case entry |>.mpr asserted
  rcases exists_select_of_mem member shown with ⟨other, kept, shown⟩
  exact ⟨other, kept, assertion_mem_signature.mp shown⟩

/-- Each result of a rule is its result on some retained case. -/
theorem exists_reduced_of_rule (valid : policy.Valid) {case : SuiteCase} {rule : Rule}
    (member : case ∈ suite.cases) (declared : rule ∈ policy.rules) :
    ∃ other ∈ (policy.reduced suite).cases,
      evaluateRule rule (.object other.response) = evaluateRule rule (.object case.response) := by
  have shown := @rule_mem_signature policy suite.suiteVersion case valid _ _ _ |>.mpr
    ⟨rule, declared, rfl, rfl, rfl⟩
  rcases exists_select_of_mem member shown with ⟨other, kept, shown⟩
  rcases (rule_mem_signature valid).mp shown with
    ⟨otherRule, otherDeclared, named, passed, reasonCode⟩
  have same := valid.rule_eq otherDeclared declared named
  subst same
  have labels := fun response =>
    evaluateCompiledRule_labels (.inl rfl : CompiledRule.Of otherRule _) response
  refine ⟨other, kept, RuleResult.ext ?_ passed ?_ reasonCode ?_⟩
  · exact (labels _).2.1.trans (labels _).2.1.symm
  · exact (labels _).2.2.trans (labels _).2.2.symm
  · exact (labels _).1.trans (labels _).1.symm

/-- The retained cases give the results that all cases give. -/
theorem mem_reduced_results (valid : policy.Valid) (item : RuleResult) :
    item ∈ (suiteReport policy suite).results ↔
      item ∈ (suiteReport policy (policy.reduced suite)).results := by
  rw [SuiteReport.results, SuiteReport.results, mem_suiteReport_results valid,
    mem_suiteReport_results valid]
  constructor
  · intro observed
    rcases observed with ⟨case, member, rule, declared, rfl⟩
    rcases exists_reduced_of_rule valid member declared with ⟨other, kept, same⟩
    exact ⟨other, kept, rule, declared, same⟩
  · intro observed
    rcases observed with ⟨case, kept, observed⟩
    exact ⟨case, reduced_sublist.subset kept, observed⟩

theorem reduced_valid (suiteValid : suite.Valid) : (policy.reduced suite).Valid := by
  apply suiteValid.of_sublist reduced_sublist
  rcases List.exists_mem_of_ne_nil _ suiteValid.nonempty with ⟨case, member⟩
  rcases @exists_reduced_of_verdict policy suite case member with ⟨other, kept, _⟩
  exact List.ne_nil_of_mem kept

theorem reduced_matchesExpectations :
    (suiteReport policy (policy.reduced suite)).matchesExpectations =
      (suiteReport policy suite).matchesExpectations := by
  apply Bool.eq_iff_iff.mpr
  simp only [suiteReport, List.all_map, List.all_eq_true, Function.comp_apply]
  constructor
  · intro met case member
    rw [← Bool.not_eq_false]
    intro mismatch
    have kept := met case (mem_reduced_of_mismatch member mismatch)
    exact Bool.noConfusion (kept.symm.trans mismatch)
  · exact fun met case kept => met case (reduced_sublist.subset kept)

end Policy

/-! ## Audits -/

/-- The audit of a valid suite. -/
def assertionAudit (policy : Policy) (suite : Suite) : AssertionAudit :=
  let cases := suite.cases.map (auditCase (policy.rules.map fun rule => (rule.ruleId, rule)))
  { policyId := policy.policyId
    caseCount := cases.length
    cases := cases
    assertionsCompatible := !cases.any fun case => case.Flagged
    fullyAsserted := cases.all fun case => case.unassertedRuleIds.isEmpty
    valuesIncluded := false }

theorem auditAssertions_eq_ok_iff {input : PolicyInput} {policy : Policy} {raw : Json}
    {suite : Suite} {audit : AssertionAudit} (validated : validatePolicy input = .ok policy)
    (suiteValidated : validateSuite raw = .ok suite) :
    auditAssertions input raw = .ok audit ↔
      boundedArtifact (assertionAudit policy suite).toJson = .ok () ∧
        audit = assertionAudit policy suite := by
  rw [auditAssertions, validated, ok_bind, suiteValidated, ok_bind]
  exact bounded_return_eq_ok_iff

section Audits

variable {policy : Policy} {suite : Suite}

theorem reduced_audits_sublist :
    (assertionAudit policy (policy.reduced suite)).cases.Sublist
      (assertionAudit policy suite).cases :=
  Policy.reduced_sublist.map _

/-- A case that the audit flags mismatches, so it is retained. -/
theorem reduced_assertionsCompatible (valid : policy.Valid) (suiteValid : suite.Valid) :
    (assertionAudit policy (policy.reduced suite)).assertionsCompatible =
      (assertionAudit policy suite).assertionsCompatible := by
  apply congrArg not
  apply Bool.eq_iff_iff.mpr
  simp only [List.any_eq_true, decide_eq_true_eq]
  constructor
  · intro flagged
    rcases flagged with ⟨audit, member, flagged⟩
    exact ⟨audit, reduced_audits_sublist.subset member, flagged⟩
  · intro flagged
    rcases flagged with ⟨audit, member, flagged⟩
    rcases List.mem_map.mp member with ⟨case, inSuite, rfl⟩
    have kept := Policy.mem_reduced_of_mismatch inSuite
      (flagged_mismatch valid suiteValid inSuite flagged)
    exact ⟨_, List.mem_map_of_mem kept, flagged⟩

private theorem reduced_audit_narrower (valid : policy.Valid) (suiteValid : suite.Valid) :
    (assertionAudit policy (policy.reduced suite)).toJson.Narrower
      (assertionAudit policy suite).toJson := by
  let part := assertionAudit policy (policy.reduced suite)
  let full := assertionAudit policy suite
  have sublist : part.cases.Sublist full.cases := reduced_audits_sublist
  have count : full.caseCount ≤ maxSuiteCases := by
    change (suite.cases.map _).length ≤ maxSuiteCases
    rw [List.length_map]
    exact suiteValid.count
  have asserted : (Json.bool part.fullyAsserted).Narrower (.bool full.fullyAsserted) := by
    cases complete : full.fullyAsserted with
    | false =>
        cases part.fullyAsserted
        · exact Json.Narrower.refl _
        · exact Json.narrower_true _
    | true =>
        have all : part.fullyAsserted = true := by
          apply List.all_eq_true.mpr
          exact fun audit member => List.all_eq_true.mp complete audit (sublist.subset member)
        rw [all]
        exact Json.Narrower.refl _
  have compatible : part.assertionsCompatible = full.assertionsCompatible :=
    reduced_assertionsCompatible valid suiteValid
  have same := fun value : Json => Json.Narrower.refl value
  apply Json.narrower_object
  refine .cons ⟨rfl, same _⟩ (.cons ⟨rfl, ?_⟩ (.cons ⟨rfl, ?_⟩ (.cons ⟨rfl, ?_⟩
    (.cons ⟨rfl, asserted⟩ (.cons ⟨rfl, same _⟩ .nil)))))
  · exact countJson_narrower sublist.length_le (countJson_small count).1
  · exact Json.narrower_array_of_sublist (sublist.map _)
  · change (Json.bool part.assertionsCompatible).Narrower (.bool full.assertionsCompatible)
    rw [compatible]
    exact same _

end Audits

/-! ## Gates -/

section Gates

variable {input : PolicyInput} {policy : Policy} {raw : Json} {suite : Suite}
  (validated : validatePolicy input = .ok policy)

include validated

/-- The rules that the reduced suite leaves unexercised are those of the full one. -/
theorem reduced_coverage {reduced : Json} (suiteValidated : validateSuite raw = .ok suite)
    (reducedValidated : validateSuite reduced = .ok (policy.reduced suite)) :
    ∃ full part, suiteCoverage input raw = .ok full ∧ suiteCoverage input reduced = .ok part ∧
      part.unexercisedPasses = full.unexercisedPasses ∧
      part.unexercisedFailures = full.unexercisedFailures ∧
      part.rulesMissingReasonCodes = full.rulesMissingReasonCodes := by
  have valid := valid_of_validatePolicy validated
  have same : ∀ item, item ∈ (suiteReport policy suite).results ↔
      item ∈ (suiteReport policy (policy.reduced suite)).results :=
    Policy.mem_reduced_results valid
  have kinds : ∀ first ∈ (suiteReport policy suite).results,
      ∀ second ∈ (suiteReport policy suite).results, first.ruleId = second.ruleId →
        first.kind = second.kind := by
    intro first firstMember second secondMember named
    rcases (mem_suiteReport_results valid).mp firstMember with ⟨_, _, rule, declared, rfl⟩
    rcases (mem_suiteReport_results valid).mp secondMember with ⟨_, _, other, member, rfl⟩
    rw [evaluateRule_ruleId, evaluateRule_ruleId] at named
    rw [valid.rule_eq declared member named]
    have labels := fun response =>
      evaluateCompiledRule_labels (.inl rfl : CompiledRule.Of other _) response
    exact (labels _).2.1.trans (labels _).2.1.symm
  have alike := unexercised_congr same kinds
  rw [suiteCoverage, suiteCoverage, evaluateSuite_eq validated suiteValidated,
    evaluateSuite_eq validated reducedValidated, ok_bind, ok_bind]
  refine ⟨_, _, rfl, rfl, ?_, ?_, ?_⟩
  · apply (coverageIds_congr same _).symm
    intro first firstMember second secondMember named
    exact decide_eq_decide.mpr (alike first firstMember second secondMember named).1
  · apply (coverageIds_congr same _).symm
    intro first firstMember second secondMember named
    exact decide_eq_decide.mpr (alike first firstMember second secondMember named).2.1
  · apply (coverageIds_congr same _).symm
    intro first firstMember second secondMember named
    rw [(alike first firstMember second secondMember named).2.2]

/-- Where the audit of the full suite returns, that of the reduced one does, and agrees. -/
theorem reduced_audit {reduced : Json} (suiteValidated : validateSuite raw = .ok suite)
    (reducedValidated : validateSuite reduced = .ok (policy.reduced suite))
    {audit : AssertionAudit} (audited : auditAssertions input raw = .ok audit) :
    ∃ part, auditAssertions input reduced = .ok part ∧
      part.assertionsCompatible = audit.assertionsCompatible := by
  have valid := valid_of_validatePolicy validated
  have suiteValid := valid_of_validateSuite suiteValidated
  rcases (auditAssertions_eq_ok_iff validated suiteValidated).mp audited with ⟨bounded, rfl⟩
  refine ⟨assertionAudit policy (policy.reduced suite),
    (auditAssertions_eq_ok_iff validated reducedValidated).mpr ⟨?_, rfl⟩,
    reduced_assertionsCompatible valid suiteValid⟩
  exact boundedArtifact_of_narrower (reduced_audit_narrower valid suiteValid) bounded

end Gates

/-! ## Reduction -/

section Reduction

variable {input : PolicyInput} {policy : Policy} {raw : Json} {suite reduced : Suite}

theorem reduceSuite_eq_ok_iff (validated : validatePolicy input = .ok policy)
    (suiteValidated : validateSuite raw = .ok suite) :
    reduceSuite input raw = .ok reduced ↔
      boundedArtifact (policy.reduced suite).toJson = .ok () ∧
        reduced = policy.reduced suite := by
  have valid := valid_of_validatePolicy validated
  have suiteValid := valid_of_validateSuite suiteValidated
  have evaluated := evaluateSuite_eq valid.validate_toObject suiteValid.validate_toJson
  have signatures : List.zipWith caseSignature suite.cases (suiteReport policy suite).cases =
      suite.cases.map (policy.signature suite.suiteVersion) := by
    rw [suiteReport, List.zipWith_map_right, List.zipWith_self]
    rfl
  have seeds : indicesOf CaseReport.mismatching (suiteReport policy suite).cases =
      indicesOf (policy.mismatching suite.suiteVersion) suite.cases :=
    indicesOf_map _ _ _
  have kept : validateSuite (policy.reduced suite).toJson = .ok (policy.reduced suite) :=
    (Policy.reduced_valid suiteValid).validate_toJson
  rw [reduceSuite, validated, ok_bind, suiteValidated, ok_bind, evaluated, ok_bind, signatures,
    seeds]
  change (validateSuite (policy.reduced suite).toJson >>= _) = _ ↔ _
  rw [kept, ok_bind, bind_eq_ok_iff]
  constructor
  · intro returned
    rcases returned with ⟨_, bounded, equal⟩
    exact ⟨bounded, (Except.ok.inj equal).symm⟩
  · intro returned
    exact ⟨(), returned.1, congrArg _ returned.2.symm⟩

/-- What a returned reduction was given. -/
theorem validated_of_reduceSuite (reduces : reduceSuite input raw = .ok reduced) :
    ∃ policy suite, validatePolicy input = .ok policy ∧ validateSuite raw = .ok suite := by
  rcases bind_eq_ok_iff.mp reduces with ⟨policy, validated, reduces⟩
  rcases bind_eq_ok_iff.mp reduces with ⟨suite, suiteValidated, _⟩
  exact ⟨policy, suite, validated, suiteValidated⟩

/-- Reducing a reduced suite returns it. -/
theorem reduceSuite_idempotent (reduces : reduceSuite input raw = .ok reduced) :
    reduceSuite input reduced.toJson = .ok reduced := by
  rcases validated_of_reduceSuite reduces with ⟨policy, suite, validated, suiteValidated⟩
  rcases (reduceSuite_eq_ok_iff validated suiteValidated).mp reduces with ⟨bounded, rfl⟩
  have reducedValid : (policy.reduced suite).Valid :=
    Policy.reduced_valid (valid_of_validateSuite suiteValidated)
  rw [reduceSuite_eq_ok_iff validated reducedValid.validate_toJson, policy.reduced_reduced]
  exact ⟨bounded, rfl⟩

/-- A repeated pass, which is dropped, a failure, and a mismatch. -/
def repeatedSuite : Suite :=
  ⟨.version1_0, [⟨text "first", [(text "flag", .null)], true, none⟩,
    ⟨text "again", [(text "flag", .bool true)], true, none⟩,
    ⟨text "absent", [], false, none⟩, ⟨text "wrong", [], true, none⟩]⟩

def repeatedReduced : Suite :=
  ⟨.version1_0, [⟨text "first", [(text "flag", .null)], true, none⟩,
    ⟨text "absent", [], false, none⟩, ⟨text "wrong", [], true, none⟩]⟩

theorem reduceSuite_idempotent_repeated :
    reduceSuite (.object presencePolicy.toObject) repeatedReduced.toJson = .ok repeatedReduced :=
  reduceSuite_idempotent
    (show reduceSuite (.object presencePolicy.toObject) repeatedSuite.toJson =
      .ok repeatedReduced by
      decide +kernel)

/-- What the cases of a suite show, cases of the reduced suite show. -/
structure PreservesShown (suite reduced : Suite) (report reducedReport : SuiteReport) : Prop where
  subsequence : reduced.cases.Sublist suite.cases
  mismatching : ∀ (index : Nat) (case : SuiteCase) (row : CaseReport),
    suite.cases[index]? = some case →
    report.cases[index]? = some row → row.matchesExpectation = false → case ∈ reduced.cases
  rules : ∀ row ∈ report.cases, ∀ item ∈ row.evaluation.ruleResults,
    ∃ other ∈ reducedReport.cases, ∃ result ∈ other.evaluation.ruleResults,
      result.ruleId = item.ruleId ∧ result.passed = item.passed ∧
        result.reasonCode = item.reasonCode
  verdicts : ∀ row ∈ report.cases, ∃ other ∈ reducedReport.cases,
    other.evaluation.passed = row.evaluation.passed ∧ other.expectedPassed = row.expectedPassed
  assertions : ∀ case ∈ suite.cases, ∀ entry ∈ case.assertions,
    ∃ other ∈ reduced.cases, entry ∈ other.assertions

/-- The gates that decide a full suite and a reduced one alike. -/
structure PreservesGates (input : PolicyInput) (raw : Json) (reduced : Suite)
    (report reducedReport : SuiteReport) : Prop where
  matching : reducedReport.matchesExpectations = report.matchesExpectations
  coverage : ∃ full part, suiteCoverage input raw = .ok full ∧
    suiteCoverage input reduced.toJson = .ok part ∧
    part.unexercisedPasses = full.unexercisedPasses ∧
    part.unexercisedFailures = full.unexercisedFailures ∧
    part.rulesMissingReasonCodes = full.rulesMissingReasonCodes
  audit : ∀ full, auditAssertions input raw = .ok full →
    ∃ part, auditAssertions input reduced.toJson = .ok part ∧
      part.assertionsCompatible = full.assertionsCompatible

private theorem reduced_preservesShown (valid : policy.Valid) :
    PreservesShown suite (policy.reduced suite) (suiteReport policy suite)
      (suiteReport policy (policy.reduced suite)) where
  subsequence := Policy.reduced_sublist
  mismatching := by
    intro index case row found reported mismatch
    rw [suiteReport, List.getElem?_map, found] at reported
    cases reported
    exact Policy.mem_reduced_of_mismatch (List.mem_of_getElem? found) mismatch
  rules := by
    intro row reported item observed
    rcases List.mem_map.mp reported with ⟨case, member, rfl⟩
    rw [caseReport_evaluation, valid.evaluate_ruleResults] at observed
    rcases List.mem_map.mp observed with ⟨rule, declared, rfl⟩
    rcases Policy.exists_reduced_of_rule valid member declared with ⟨other, kept, same⟩
    refine ⟨_, List.mem_map_of_mem kept, evaluateRule rule (.object other.response), ?_, ?_⟩
    · rw [caseReport_evaluation, valid.evaluate_ruleResults]
      exact List.mem_map_of_mem declared
    · rw [same]
      exact ⟨rfl, rfl, rfl⟩
  verdicts := by
    intro row reported
    rcases List.mem_map.mp reported with ⟨case, member, rfl⟩
    rcases @Policy.exists_reduced_of_verdict policy suite case member with
      ⟨other, kept, passed, expected⟩
    refine ⟨_, List.mem_map_of_mem kept, ?_, ?_⟩
    · rw [caseReport_evaluation, caseReport_evaluation]
      exact passed
    · rw [caseReport_expectedPassed, caseReport_expectedPassed]
      exact expected
  assertions := fun _ member _ asserted => Policy.exists_reduced_of_assertion member asserted

private theorem reduced_preservesGates (validated : validatePolicy input = .ok policy)
    (suiteValidated : validateSuite raw = .ok suite) :
    PreservesGates input raw (policy.reduced suite) (suiteReport policy suite)
      (suiteReport policy (policy.reduced suite)) := by
  have reducedValid : (policy.reduced suite).Valid :=
    Policy.reduced_valid (valid_of_validateSuite suiteValidated)
  exact ⟨Policy.reduced_matchesExpectations,
    reduced_coverage validated suiteValidated reducedValid.validate_toJson,
    fun _ => reduced_audit validated suiteValidated reducedValid.validate_toJson⟩

/-- The loop ends, one round for each uncovered signature being enough, and what is
reduced shows what the suite shows and passes the gates that the suite passes. -/
theorem reduceSuite_preserves (validated : validatePolicy input = .ok policy)
    (suiteValidated : validateSuite raw = .ok suite) :
    ∃ report, evaluateSuite input raw = .ok report ∧
      (let signatures := List.zipWith caseSignature suite.cases report.cases
       let seeds := indicesOf CaseReport.mismatching report.cases
       ∀ rounds, (uncoveredBy signatures seeds).card ≤ rounds →
        loop (setAt signatures) (List.range signatures.length) rounds
          (uncoveredBy signatures seeds) seeds = some (cover signatures seeds)) ∧
      ∀ reduced, reduceSuite input raw = .ok reduced →
        ∃ reducedReport, evaluateSuite input reduced.toJson = .ok reducedReport ∧
          PreservesShown suite reduced report reducedReport ∧
          PreservesGates input raw reduced report reducedReport := by
  refine ⟨_, evaluateSuite_eq validated suiteValidated, ?_, ?_⟩
  · exact fun rounds enough => loop_eq_cover _ _ enough
  · intro reduced reduces
    rcases (reduceSuite_eq_ok_iff validated suiteValidated).mp reduces with ⟨_, rfl⟩
    have reducedValid : (policy.reduced suite).Valid :=
      Policy.reduced_valid (valid_of_validateSuite suiteValidated)
    exact ⟨_, evaluateSuite_eq validated reducedValid.validate_toJson,
      reduced_preservesShown (valid_of_validatePolicy validated),
      reduced_preservesGates validated suiteValidated⟩

theorem reduceSuite_preserves_repeated :
    ∃ report, evaluateSuite (.object presencePolicy.toObject) repeatedSuite.toJson =
        .ok report ∧
      ∃ reducedReport, evaluateSuite (.object presencePolicy.toObject) repeatedReduced.toJson =
        .ok reducedReport ∧
        PreservesShown repeatedSuite repeatedReduced report reducedReport ∧
        PreservesGates (.object presencePolicy.toObject) repeatedSuite.toJson repeatedReduced
          report reducedReport := by
  rcases reduceSuite_preserves
      (show validatePolicy (.object presencePolicy.toObject) = .ok presencePolicy by
        decide +kernel)
      (show validateSuite repeatedSuite.toJson = .ok repeatedSuite by decide +kernel) with
    ⟨report, evaluated, _, preserved⟩
  exact ⟨report, evaluated, preserved repeatedReduced
    (show reduceSuite (.object presencePolicy.toObject) repeatedSuite.toJson =
      .ok repeatedReduced by decide +kernel)⟩

end Reduction

end AgentTestbench

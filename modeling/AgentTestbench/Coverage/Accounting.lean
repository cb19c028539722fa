import AgentTestbench.Coverage

/-! # Coverage accounting

Every declared rule has one row, and the row counts the evaluations of its rule over the
suite, every case once: as a pass or a failure, and under one reason code. The gaps reported
are the outcomes and the reason codes that no evaluation gives.
-/

namespace AgentTestbench

open AssociationList Fallible

/-- The exit status of `suite-coverage`. -/
def coverageExit (strictExit strictReasons : Bool) (result : CoverageReport) : Nat :=
  let outcomeGap := strictExit &&
    (result.unexercisedPasses ≠ [] || result.unexercisedFailures ≠ [])
  let reasonGap := strictReasons && result.rulesMissingReasonCodes ≠ []
  if outcomeGap || reasonGap then 1 else 0

/-- The reasons are the stricter test when a gap in the outcomes is one in the reasons. -/
theorem coverageExit_le {result : CoverageReport}
    (stricter : result.rulesMissingReasonCodes = [] →
      result.unexercisedPasses = [] ∧ result.unexercisedFailures = []) :
    coverageExit true false result ≤ coverageExit false true result := by
  by_cases complete : result.rulesMissingReasonCodes = []
  · simp [coverageExit, stricter complete]
  · have refused : coverageExit false true result = 1 := by simp [coverageExit, complete]
    rw [refused, coverageExit]
    split_ifs <;> decide

private theorem evaluateRule_reasonCode_mem (rule : Rule) (response : Json) :
    (evaluateRule rule response).reasonCode ∈ reachableReasonCodes rule.kind := by
  rw [evaluateRule, evaluateCompiledRule_reasonCode (.inl rfl), mem_reachableReasonCodes]
  split_ifs
  · exact .inl rfl
  · exact .inr (.inl rfl)
  · right
    cases rule.kind <;> decide

/-! ## The results of one rule -/

/-- The evaluations of a rule, case by case. -/
def Suite.evaluations (suite : Suite) (rule : Rule) : List RuleResult :=
  suite.cases.map fun case => evaluateRule rule (.object case.response)

private theorem Suite.mem_evaluations_reasonCode {suite : Suite} {rule : Rule} {code : ReasonCode} :
    code ∈ (suite.evaluations rule).map RuleResult.reasonCode ↔ suite.Exercises rule code := by
  simp [evaluations, Exercises]

section Results

variable {policy : Policy} {suite : Suite} (valid : policy.Valid) {rule : Rule}
  (declared : rule ∈ policy.rules)

include valid declared

private theorem Policy.Valid.filter_ruleId_eq :
    policy.rules.filter (fun other => other.ruleId = rule.ruleId) = [rule] := by
  have same : policy.rules.filter (fun other => other.ruleId = rule.ruleId) =
      policy.rules.filter fun other => other = rule := by
    apply List.filter_congr
    intro other member
    exact decide_eq_decide.mpr ⟨valid.rule_eq member declared, congrArg Rule.ruleId⟩
  rw [same, List.filter_eq, List.count_eq_one_of_mem (valid.distinct.of_map _) declared]
  rfl

/-- The results under an identifier are those of its rule, case by case. -/
theorem suiteReport_results_filter :
    ((suiteReport policy suite).results.filter fun item => item.ruleId = rule.ruleId) =
      suite.evaluations rule := by
  have each : ∀ case : SuiteCase,
      ((caseReport policy suite.suiteVersion case).evaluation.ruleResults.filter
        fun item => item.ruleId = rule.ruleId) = [evaluateRule rule (.object case.response)] := by
    intro case
    have results : (caseReport policy suite.suiteVersion case).evaluation.ruleResults =
        policy.rules.map fun rule => evaluateRule rule (.object case.response) := by
      rw [← valid.evaluate_ruleResults]
      cases suite.suiteVersion <;> rfl
    rw [results, List.filter_map]
    have named : (fun item : RuleResult => decide (item.ruleId = rule.ruleId)) ∘
        (fun rule => evaluateRule rule (.object case.response)) =
        fun other => decide (other.ruleId = rule.ruleId) := by
      funext other
      rw [Function.comp_apply, evaluateRule_ruleId]
    rw [named, valid.filter_ruleId_eq declared, List.map_singleton]
  rw [SuiteReport.results, suiteReport, List.flatMap_map, List.filter_flatMap]
  simp only [each]
  exact List.flatMap_pure_eq_map _ _

end Results

/-! ## Rows -/

/-- The row of a rule counts its evaluations, every case once. -/
structure RuleCoverage.Accounts (row : RuleCoverage) (rule : Rule) (suite : Suite) : Prop where
  ruleId : row.ruleId = rule.ruleId
  path : row.path = rule.path
  kind : row.kind = rule.kind
  passedCases : row.passedCases = (suite.evaluations rule).countP fun item => item.passed
  failedCases : row.failedCases = (suite.evaluations rule).countP fun item => !item.passed
  reasonCounts : ∀ code, (lookup code row.reasonCounts).getD 0 =
    ((suite.evaluations rule).map RuleResult.reasonCode).count code
  total : row.passedCases + row.failedCases = suite.cases.length
  reasons : (row.reasonCounts.map Prod.snd).sum = suite.cases.length
  satisfied : row.passedCases = (lookup .satisfied row.reasonCounts).getD 0
  reachable : ∀ code ∈ keys row.reasonCounts, code ∈ reachableReasonCodes row.kind
  bothOutcomes : row.bothOutcomesObserved = true ↔
    ∃ item ∈ suite.evaluations rule, ∃ other ∈ suite.evaluations rule,
      item.passed = true ∧ other.passed = false
  unexercised : ∀ code, code ∈ row.unexercisedReasonCodes ↔
    code ∈ reachableReasonCodes row.kind ∧ ¬suite.Exercises rule code

/-- Every evaluation of a rule passes or fails. -/
private theorem countP_evaluations_add (suite : Suite) (rule : Rule) :
    (suite.evaluations rule).countP (fun item => item.passed) +
      (suite.evaluations rule).countP (fun item => !item.passed) = suite.cases.length := by
  have split := List.length_eq_countP_add_countP (fun item : RuleResult => item.passed)
    (l := suite.evaluations rule)
  simp only [decide_not, Bool.decide_eq_true] at split
  rw [← split, Suite.evaluations, List.length_map]

/-- The evaluations that pass are those with the reason `RULE_SATISFIED`. -/
private theorem countP_evaluations_passed (suite : Suite) (rule : Rule) :
    (suite.evaluations rule).countP (fun item => item.passed) =
      ((suite.evaluations rule).map RuleResult.reasonCode).count .satisfied := by
  rw [Suite.evaluations, List.count_eq_countP, List.countP_map, List.countP_map, List.countP_map]
  apply List.countP_congr
  intro case _
  simp only [Function.comp_apply, beq_iff_eq]
  exact (evaluateRule_reasonCode_satisfied_iff rule _).symm

private theorem RuleRow.Tallies.bothOutcomes_iff {row : RuleRow} {items : List RuleResult}
    (tallies : row.Tallies items) :
    row.complete.bothOutcomesObserved = true ↔
      ∃ item ∈ items, ∃ other ∈ items, item.passed = true ∧ other.passed = false := by
  simp only [RuleRow.complete, Bool.and_eq_true, decide_eq_true_eq, tallies.passedCases,
    tallies.failedCases, List.countP_pos_iff, Bool.not_eq_true']
  constructor
  · intro observed
    rcases observed with ⟨⟨item, inItems, passed⟩, other, otherInItems, failed⟩
    exact ⟨item, inItems, other, otherInItems, passed, failed⟩
  · intro observed
    rcases observed with ⟨item, inItems, other, otherInItems, passed, failed⟩
    exact ⟨⟨item, inItems, passed⟩, other, otherInItems, failed⟩

section Rows

variable {policy : Policy} {suite : Suite} (valid : policy.Valid)

include valid

/-- A row tallies the evaluations of a declared rule. -/
private theorem coverageRow_tallies {row : RuleCoverage}
    (member : row ∈ coverageRows (suiteReport policy suite)) :
    ∃ rule ∈ policy.rules, ∃ tallied : RuleRow, row = tallied.complete ∧
      tallied.ruleId = rule.ruleId ∧ tallied.path = rule.path ∧ tallied.kind = rule.kind ∧
      tallied.Tallies (suite.evaluations rule) := by
  rcases coverageRow_labels member with ⟨item, observed, named, path, kind⟩
  rcases (mem_suiteReport_results valid).mp observed with ⟨_, _, rule, declared, rfl⟩
  have labels := evaluateCompiledRule_labels (.inl rfl : CompiledRule.Of rule _)
  rw [evaluateRule_ruleId] at named
  rcases coverageRows_tallies member with ⟨tallied, rfl, tallies⟩
  change tallied.Tallies ((suiteReport policy suite).results.filter
    fun item => item.ruleId = tallied.ruleId) at tallies
  rw [show tallied.ruleId = rule.ruleId from named,
    suiteReport_results_filter valid declared] at tallies
  exact ⟨rule, declared, tallied, rfl, named, path.trans (labels _).2.2,
    kind.trans (labels _).2.1, tallies⟩

/-- The codes a row counts are those its rule gives in some case. -/
private theorem mem_reasonCounts_iff_exercises {row : RuleCoverage} {rule : Rule}
    (member : row ∈ coverageRows (suiteReport policy suite)) (declared : rule ∈ policy.rules)
    (named : row.ruleId = rule.ruleId) (code : ReasonCode) :
    code ∈ keys row.reasonCounts ↔ suite.Exercises rule code := by
  rw [mem_reasonCounts_iff member, named, ← Suite.mem_evaluations_reasonCode,
    ← suiteReport_results_filter valid declared, List.mem_map]
  simp only [List.mem_filter, decide_eq_true_eq, and_assoc]

theorem coverageRow_accounts {row : RuleCoverage}
    (member : row ∈ coverageRows (suiteReport policy suite)) :
    ∃ rule ∈ policy.rules, row.Accounts rule suite := by
  rcases coverageRow_tallies valid member with
    ⟨rule, declared, tallied, rfl, named, path, kind, tallies⟩
  have counted := mem_reasonCounts_iff_exercises valid member declared named
  have total : tallied.passedCases + tallied.failedCases = suite.cases.length := by
    rw [tallies.passedCases, tallies.failedCases, countP_evaluations_add]
  refine ⟨rule, declared, {
    ruleId := named
    path := path
    kind := kind
    passedCases := tallies.passedCases
    failedCases := tallies.failedCases
    reasonCounts := tallies.reasonCounts
    total := total
    reasons := (sum_reasonCounts member).trans total
    satisfied := ?_
    reachable := ?_
    bothOutcomes := tallies.bothOutcomes_iff
    unexercised := ?_ }⟩
  · change tallied.passedCases = (lookup .satisfied tallied.reasonCounts).getD 0
    rw [tallies.reasonCounts, tallies.passedCases, countP_evaluations_passed]
  · intro code listed
    rcases (counted code).mp listed with ⟨case, _, rfl⟩
    change _ ∈ reachableReasonCodes tallied.kind
    rw [kind]
    exact evaluateRule_reasonCode_mem _ _
  · intro code
    rw [← counted code]
    exact List.mem_filter.trans (and_congr_right' decide_eq_true_iff)

/-- The rows are those of the declared rules. -/
theorem coverageRows_perm (nonempty : suite.cases ≠ []) :
    ((coverageRows (suiteReport policy suite)).map fun row => row.ruleId).Perm
      (policy.rules.map Rule.ruleId) := by
  have ascending := coverageRows_ascending (suiteReport policy suite)
  rw [List.perm_ext_iff_of_nodup (ascending.imp ne_of_lt) valid.distinct]
  intro ruleId
  rw [List.mem_map, List.mem_map]
  constructor
  · intro listed
    rcases listed with ⟨row, member, rfl⟩
    rcases coverageRow_accounts valid member with ⟨rule, declared, accounts⟩
    exact ⟨rule, declared, accounts.ruleId.symm⟩
  · intro listed
    rcases listed with ⟨rule, declared, rfl⟩
    rcases List.exists_mem_of_ne_nil _ nonempty with ⟨case, inSuite⟩
    have observed := (mem_suiteReport_results valid).mpr ⟨case, inSuite, rule, declared, rfl⟩
    rcases exists_coverageRow observed with ⟨row, member, named⟩
    exact ⟨row, member, named.trans (evaluateRule_ruleId _ _)⟩

/-- A rule that has given all its reason codes has passed and failed. -/
theorem passed_and_failed_of_complete {row : RuleCoverage}
    (member : row ∈ coverageRows (suiteReport policy suite))
    (complete : row.unexercisedReasonCodes = []) : row.passedCases ≠ 0 ∧ row.failedCases ≠ 0 := by
  have counted : ∀ code ∈ reachableReasonCodes row.kind, ∃ item ∈
      (suiteReport policy suite).results, item.ruleId = row.ruleId ∧ item.reasonCode = code := by
    intro code reachable
    rw [← mem_reasonCounts_iff member]
    rcases List.mem_map.mp member with ⟨tallied, _, rfl⟩
    exact not_not.mp (of_decide_eq_false
      (Bool.eq_false_of_not_eq_true (List.filter_eq_nil_iff.mp complete code reachable)))
  have passed : ∀ item ∈ (suiteReport policy suite).results,
      item.reasonCode = .satisfied ↔ item.passed = true := by
    intro item observed
    rcases (mem_suiteReport_results valid).mp observed with ⟨_, _, rule, _, rfl⟩
    exact evaluateRule_reasonCode_satisfied_iff rule _
  constructor
  · intro never
    rcases counted .satisfied (mem_reachableReasonCodes.mpr (.inl rfl)) with
      ⟨item, observed, named, satisfied⟩
    have failed := (passedCases_eq_zero_iff member).mp never item observed named
    exact absurd ((passed item observed).mp satisfied) (failed ▸ Bool.false_ne_true)
  · intro never
    rcases counted .missing (mem_reachableReasonCodes.mpr (.inr (.inl rfl))) with
      ⟨item, observed, named, missing⟩
    have holds := (failedCases_eq_zero_iff member).mp never item observed named
    exact absurd ((passed item observed).mpr holds) (missing ▸ by decide)

/-- The identifiers of the rows with a property are those of the rules with it. -/
private theorem mem_coverageIds_iff (nonempty : suite.cases ≠ []) {property : RuleCoverage → Bool}
    {expected : Rule → Prop}
    (meaning : ∀ row rule, RuleCoverage.Accounts row rule suite →
      (property row = true ↔ expected rule)) (ruleId : Text) :
    ruleId ∈ ((coverageRows (suiteReport policy suite)).filter property).map
        (fun row => row.ruleId) ↔
      ∃ rule ∈ policy.rules, rule.ruleId = ruleId ∧ expected rule := by
  simp only [List.mem_map, List.mem_filter]
  constructor
  · intro listed
    rcases listed with ⟨row, ⟨member, holds⟩, rfl⟩
    rcases coverageRow_accounts valid member with ⟨rule, declared, accounts⟩
    exact ⟨rule, declared, accounts.ruleId.symm, (meaning row rule accounts).mp holds⟩
  · intro listed
    rcases listed with ⟨rule, declared, rfl, holds⟩
    have named := (coverageRows_perm valid nonempty).mem_iff.mpr (List.mem_map_of_mem declared)
    rcases List.mem_map.mp named with ⟨row, member, equal⟩
    rcases coverageRow_accounts valid member with ⟨other, otherDeclared, accounts⟩
    have same := valid.rule_eq otherDeclared declared (accounts.ruleId.symm.trans equal)
    rw [same] at accounts
    exact ⟨row, ⟨member, (meaning row rule accounts).mpr holds⟩, equal⟩

end Rows

/-- The gaps reported are the outcomes and the reason codes that no case gives, and the
totals are those of the rows. -/
structure CoverageReport.ReportsGaps (coverage : CoverageReport) (policy : Policy)
    (suite : Suite) : Prop where
  passes : ∀ ruleId, ruleId ∈ coverage.unexercisedPasses ↔ ∃ rule ∈ policy.rules,
    rule.ruleId = ruleId ∧ ∀ item ∈ suite.evaluations rule, item.passed = false
  failures : ∀ ruleId, ruleId ∈ coverage.unexercisedFailures ↔ ∃ rule ∈ policy.rules,
    rule.ruleId = ruleId ∧ ∀ item ∈ suite.evaluations rule, item.passed = true
  reasons : ∀ ruleId, ruleId ∈ coverage.rulesMissingReasonCodes ↔ ∃ rule ∈ policy.rules,
    rule.ruleId = ruleId ∧ ∃ code ∈ reachableReasonCodes rule.kind, ¬suite.Exercises rule code
  bothOutcomes : coverage.rulesWithBothOutcomes =
    coverage.rules.countP fun row => row.bothOutcomesObserved
  allReasonCodes : coverage.rulesWithAllReasonCodes =
    coverage.rules.countP fun row => row.unexercisedReasonCodes = []

/-- The coverage of a valid suite has one row for each declared rule, each row counts the
evaluations of its rule, every case once, the gaps are those of the evaluations, and no gap
in the reason codes leaves no gap in the outcomes. -/
theorem suiteCoverage_accounting {input : PolicyInput} {raw : Json} {policy : Policy}
    {suite : Suite} (validated : validatePolicy input = .ok policy)
    (suiteValidated : validateSuite raw = .ok suite) :
    ∃ coverage, suiteCoverage input raw = .ok coverage ∧
      coverage.caseCount = suite.cases.length ∧
      (coverage.rules.map fun row => row.ruleId).Perm (policy.rules.map Rule.ruleId) ∧
      (∀ row ∈ coverage.rules, ∃ rule ∈ policy.rules, row.Accounts rule suite) ∧
      coverage.ReportsGaps policy suite ∧
      (coverage.rulesMissingReasonCodes = [] →
        coverage.unexercisedPasses = [] ∧ coverage.unexercisedFailures = []) ∧
      coverageExit true false coverage ≤ coverageExit false true coverage := by
  have valid := valid_of_validatePolicy validated
  have nonempty := (valid_of_validateSuite suiteValidated).nonempty
  rw [suiteCoverage, evaluateSuite_eq validated suiteValidated, ok_bind]
  have count : (suiteReport policy suite).caseCount = suite.cases.length := List.length_map _
  have stricter : ((coverageRows (suiteReport policy suite)).filter
      fun row => row.unexercisedReasonCodes ≠ []).map (fun row => row.ruleId) = [] →
      ((coverageRows (suiteReport policy suite)).filter
        fun row => row.passedCases = 0).map (fun row => row.ruleId) = [] ∧
      ((coverageRows (suiteReport policy suite)).filter
        fun row => row.failedCases = 0).map (fun row => row.ruleId) = [] := by
    simp only [List.map_eq_nil_iff, List.filter_eq_nil_iff, decide_eq_true_eq, not_not]
    intro complete
    exact ⟨fun row member => (passed_and_failed_of_complete valid member (complete row member)).1,
      fun row member => (passed_and_failed_of_complete valid member (complete row member)).2⟩
  refine ⟨_, rfl, count, coverageRows_perm valid nonempty,
    fun row member => coverageRow_accounts valid member, ⟨?_, ?_, ?_, rfl, rfl⟩, stricter,
    coverageExit_le stricter⟩
  · apply mem_coverageIds_iff valid nonempty
    intro row rule accounts
    simp [accounts.passedCases]
  · apply mem_coverageIds_iff valid nonempty
    intro row rule accounts
    simp [accounts.failedCases]
  · apply mem_coverageIds_iff valid nonempty
    intro row rule accounts
    simp [List.eq_nil_iff_forall_not_mem, accounts.unexercised, accounts.kind]

/-- The rule passes one case and fails the other. -/
def flagSuite : Suite :=
  ⟨.version1_0, [⟨text "with-flag", [(text "flag", .null)], true, none⟩,
    ⟨text "without-flag", [], false, none⟩]⟩

theorem suiteCoverage_accounting_flag :
    ∃ coverage, suiteCoverage (.object presencePolicy.toObject) flagSuite.toJson = .ok coverage ∧
      coverage.caseCount = 2 ∧
      (coverage.rules.map fun row => row.ruleId).Perm [text "declared"] ∧
      (∀ row ∈ coverage.rules, ∃ rule ∈ presencePolicy.rules,
        row.Accounts rule flagSuite) ∧
      coverage.ReportsGaps presencePolicy flagSuite ∧
      (coverage.rulesMissingReasonCodes = [] →
        coverage.unexercisedPasses = [] ∧ coverage.unexercisedFailures = []) ∧
      coverageExit true false coverage ≤ coverageExit false true coverage :=
  suiteCoverage_accounting
    (show validatePolicy _ = .ok presencePolicy by decide +kernel)
    (show validateSuite _ = .ok flagSuite by decide +kernel)

end AgentTestbench

import AgentTestbench.Suite.Alike
import AgentTestbench.Workflow

/-! # Policy comparison

`compare_policies` reports how two policies differ in their definitions and on the cases of
a suite; `migration_expectations` reports how they differ in meeting its expectations.
-/

namespace AgentTestbench

open AssociationList Fallible

/-! ## Rules -/

/-- The rule with its `one_of` values or type names sorted. -/
def Rule.ordered (rule : Rule) : Rule :=
  match rule.constraint with
  | .oneOf values =>
      { rule with constraint := .oneOf (values.insertionSort fun left right =>
          left.canonicalText ≤ right.canonicalText) }
  | .type types =>
      { rule with constraint := .type (types.insertionSort fun left right =>
          left.name ≤ right.name) }
  | _ => rule

/-- `_rule_signature`, on the dictionary of a validated rule. -/
def ruleSignature (rule : Rule) : Text :=
  (Json.object rule.ordered.members).canonicalText

structure RuleChanges where
  added : List Text
  removed : List Text
  modified : List Text
  orderChanged : Bool
  deriving DecidableEq

/-- `{r["rule_id"]: r for r in policy_to_dict(policy)["rules"]}`. -/
def Policy.rulesById (policy : Policy) : List (Text × Rule) :=
  policy.rules.map fun rule => (rule.ruleId, rule)

def ruleChanges (old new : Policy) : RuleChanges :=
  let oldRules := old.rulesById
  let newRules := new.rulesById
  let shared := (keys oldRules).filter (· ∈ keys newRules)
  { added := sortedIds ((keys newRules).filter (· ∉ keys oldRules))
    removed := sortedIds ((keys oldRules).filter (· ∉ keys newRules))
    modified := sortedIds (shared.filter fun key =>
      (lookup key oldRules).map ruleSignature ≠ (lookup key newRules).map ruleSignature)
    orderChanged := shared ≠ (keys newRules).filter (· ∈ keys oldRules) }

/-! ## Cases -/

structure CaseComparison where
  caseId : Text
  beforePassed : Bool
  afterPassed : Bool
  verdictChanged : Bool
  changedRuleResults : List Text
  deriving DecidableEq

/-- `{r["rule_id"]: r for r in evaluation["rule_results"]}`. -/
def EvaluationResult.resultsById (evaluation : EvaluationResult) : List (Text × RuleResult) :=
  evaluation.ruleResults.map fun result => (result.ruleId, result)

def compareCase (left right : CaseReport) : CaseComparison :=
  let before := left.evaluation.resultsById
  let after := right.evaluation.resultsById
  { caseId := left.caseId
    beforePassed := left.evaluation.passed
    afterPassed := right.evaluation.passed
    verdictChanged := left.evaluation.passed ≠ right.evaluation.passed
    changedRuleResults := sortedIds ((keys before ∪ keys after).filter fun key =>
      lookup key before ≠ lookup key after) }

structure Comparison where
  beforePolicyId : Text
  afterPolicyId : Text
  ruleChanges : RuleChanges
  cases : List CaseComparison
  verdictChangeCount : Nat
  newlyPassing : List Text
  newlyFailing : List Text
  beforeMatchesExpectations : Bool
  afterMatchesExpectations : Bool
  comparisonScope : Text
  deriving DecidableEq

def comparePolicies (before after : PolicyInput) (suite : Json) :
    Except TestbenchError Comparison := do
  let old ← validatePolicy before
  let new ← validatePolicy after
  let fixtures ← validateSuite suite
  let oldReport ← evaluateSuite (.object old.toObject) fixtures.toJson
  let newReport ← evaluateSuite (.object new.toObject) fixtures.toJson
  let cases := List.zipWith compareCase oldReport.cases newReport.cases
  .ok {
    beforePolicyId := old.policyId
    afterPolicyId := new.policyId
    ruleChanges := ruleChanges old new
    cases := cases
    verdictChangeCount := cases.countP CaseComparison.verdictChanged
    newlyPassing := (cases.filter fun case => !case.beforePassed && case.afterPassed).map
      CaseComparison.caseId
    newlyFailing := (cases.filter fun case => case.beforePassed && !case.afterPassed).map
      CaseComparison.caseId
    beforeMatchesExpectations := oldReport.matchesExpectations
    afterMatchesExpectations := newReport.matchesExpectations
    comparisonScope := text "supplied fixtures only; no policy recommendation" }

/-! ## Expectations -/

structure Migration where
  beforePolicyId : Text
  afterPolicyId : Text
  regressions : List Text
  recoveries : List Text
  stillMismatched : List Text
  stillMatched : List Text
  noRegressions : Bool
  candidateMatchesExpectations : Bool
  comparisonScope : Text
  deriving DecidableEq

def Migration.toJson (migration : Migration) : Json :=
  .object [(text "before_policy_id", .string migration.beforePolicyId),
    (text "after_policy_id", .string migration.afterPolicyId),
    (text "regressions", .array (migration.regressions.map Json.string)),
    (text "recoveries", .array (migration.recoveries.map Json.string)),
    (text "still_mismatched", .array (migration.stillMismatched.map Json.string)),
    (text "still_matched", .array (migration.stillMatched.map Json.string)),
    (text "no_regressions", .bool migration.noRegressions),
    (text "candidate_matches_expectations", .bool migration.candidateMatchesExpectations),
    (text "comparison_scope", .string migration.comparisonScope)]

/-- The identifiers of the cases in one of the four groups. -/
def expectationGroup (rows : List (CaseReport × CaseReport)) (before after : Bool) :
    List Text :=
  (rows.filter fun row =>
    row.1.matchesExpectation = before ∧ row.2.matchesExpectation = after).map fun row =>
      row.1.caseId

def migrationExpectations (policy candidate : PolicyInput) (suite : Json) :
    Except TestbenchError Migration := do
  let fixtures ← validateSuite suite
  let before ← evaluateSuite policy fixtures.toJson
  let after ← evaluateSuite candidate fixtures.toJson
  let rows := before.cases.zip after.cases
  let regressions := expectationGroup rows true false
  let migration : Migration := {
    beforePolicyId := before.policyId
    afterPolicyId := after.policyId
    regressions := regressions
    recoveries := expectationGroup rows false true
    stillMismatched := expectationGroup rows false false
    stillMatched := expectationGroup rows true true
    noRegressions := regressions = []
    candidateMatchesExpectations := after.matchesExpectations
    comparisonScope := text "supplied expectations only; no policy recommendation" }
  boundedArtifact migration.toJson
  .ok migration

/-! ## Signatures -/

theorem Rule.ordered_alike (rule : Rule) : rule.Alike rule.ordered := by
  rcases rule with ⟨ruleId, path, constraint⟩
  cases constraint with
  | oneOf values =>
      refine ⟨rfl, rfl, ?_, ?_⟩
      · intro value member
        exact ⟨value, (List.mem_insertionSort _).mpr member, Json.Same.refl _⟩
      · intro value member
        exact ⟨value, (List.mem_insertionSort _).mp member, Json.Same.refl _⟩
  | type types => exact ⟨rfl, rfl, fun _ => (List.mem_insertionSort _).symm⟩
  | equals value => exact ⟨rfl, rfl, Json.Same.refl _⟩
  | range minimum maximum => exact ⟨rfl, rfl, rfl, rfl⟩
  | length minimum maximum => exact ⟨rfl, rfl, rfl, rfl⟩
  | _ => exact ⟨rfl, rfl, trivial⟩

theorem Rule.ordered_encodable {rule : Rule} (encodable : rule.constraint.Encodable) :
    rule.ordered.constraint.Encodable := by
  rcases rule with ⟨ruleId, path, constraint⟩
  cases constraint with
  | oneOf values => exact fun value member => encodable value ((List.mem_insertionSort _).mp member)
  | type types => trivial
  | _ => exact encodable

theorem Rule.ordered_members_encodable {rule : Rule}
    (encodable : (Json.object rule.members).Encodable) :
    (Json.object rule.ordered.members).Encodable := by
  rcases rule with ⟨ruleId, path, constraint⟩
  rw [Json.encodable_object_iff] at encodable ⊢
  rw [Rule.members, List.forall_mem_cons, List.forall_mem_cons, List.forall_mem_cons]
    at encodable ⊢
  rcases encodable with ⟨kind, location, named, each⟩
  cases constraint with
  | oneOf values =>
      refine ⟨kind, location, named, ?_⟩
      simp only [Constraint.members, List.forall_mem_singleton, Json.encodable_array_iff,
        ordered] at each ⊢
      exact fun value member => each value ((List.mem_insertionSort _).mp member)
  | type types =>
      refine ⟨kind, location, named, ?_⟩
      simp only [Constraint.members, List.forall_mem_singleton, Json.encodable_array_iff,
        List.forall_mem_map, ordered]
      exact fun _ _ => trivial
  | _ => exact ⟨kind, location, named, each⟩

section Signatures

variable {left right : Rule} (equal : ruleSignature left = ruleSignature right)

include equal

/-- Rules with one signature give the same row on every response. -/
theorem evaluateRule_eq_of_ruleSignature {old new : Policy} (oldValid : old.Valid)
    (newValid : new.Valid) (inOld : left ∈ old.rules) (inNew : right ∈ new.rules)
    (response : Json) : evaluateRule left response = evaluateRule right response := by
  have same : (Json.object left.ordered.members).Same (.object right.ordered.members) :=
    (canonicalText_eq_iff (Rule.ordered_members_encodable (oldValid.rule_members_encodable inOld))
      (Rule.ordered_members_encodable (newValid.rule_members_encodable inNew))).mp equal
  have leftEncodable := (oldValid.rules left inOld).constraint.encodable
  have rightEncodable := (newValid.rules right inNew).constraint.encodable
  have leftOrdered := Rule.ordered_encodable leftEncodable
  have rightOrdered := Rule.ordered_encodable rightEncodable
  calc evaluateRule left response
      = evaluateRule left.ordered response :=
        left.ordered_alike.evaluateRule_eq leftEncodable leftOrdered (Json.Same.refl _)
    _ = evaluateRule right.ordered response :=
        (Rule.alike_of_same same).evaluateRule_eq leftOrdered rightOrdered (Json.Same.refl _)
    _ = evaluateRule right response :=
        (right.ordered_alike.evaluateRule_eq rightEncodable rightOrdered
          (Json.Same.refl _)).symm

end Signatures

/-! ## Rows by identifier -/

theorem Policy.Valid.lookup_resultsById {policy : Policy} (valid : policy.Valid)
    (response : Json) (ruleId : Text) :
    lookup ruleId (policy.evaluate response).resultsById =
      (lookup ruleId policy.rulesById).map fun rule => evaluateRule rule response := by
  rw [EvaluationResult.resultsById, valid.evaluate_ruleResults, Policy.rulesById,
    ← lookup_map_value, List.map_map, List.map_map]
  congr 1
  apply List.map_congr_left
  intro rule _
  rw [Function.comp_apply, Function.comp_apply, evaluateRule_ruleId]

theorem Policy.Valid.nodup_resultsById {policy : Policy} (valid : policy.Valid)
    (response : Json) : (keys (policy.evaluate response).resultsById).Nodup := by
  have ids : keys (policy.evaluate response).resultsById = policy.rules.map Rule.ruleId := by
    rw [EvaluationResult.resultsById, valid.evaluate_ruleResults, keys, List.map_map,
      List.map_map]
    exact List.map_congr_left fun rule _ => evaluateRule_ruleId rule response
  rw [ids]
  exact valid.distinct

theorem caseReport_evaluation (policy : Policy) (version : SuiteVersion) (case : SuiteCase) :
    (caseReport policy version case).evaluation = policy.evaluate (.object case.response) := by
  cases version <;> rfl

theorem changedRuleResults_eq_nil_iff {left right : CaseReport} :
    (compareCase left right).changedRuleResults = [] ↔
      ∀ ruleId, lookup ruleId left.evaluation.resultsById =
        lookup ruleId right.evaluation.resultsById := by
  rw [compareCase, sortedIds_filter_eq_nil_iff]
  simp only [decide_eq_false_iff_not, not_not, List.mem_union_iff]
  constructor
  · intro agree ruleId
    by_cases known : ruleId ∈ keys left.evaluation.resultsById ∨
        ruleId ∈ keys right.evaluation.resultsById
    · exact agree ruleId known
    · rw [not_or] at known
      rw [lookup_eq_none_iff.mpr known.1, lookup_eq_none_iff.mpr known.2]
  · exact fun agree ruleId _ => agree ruleId

theorem verdictChanged_eq_false_iff {left right : CaseReport} :
    (compareCase left right).verdictChanged = false ↔
      left.evaluation.passed = right.evaluation.passed := by
  rw [compareCase, decide_eq_false_iff_not, not_not]

section Changes

variable {old new : Policy} (oldValid : old.Valid) (newValid : new.Valid)

include oldValid newValid

/-- Policies that declare the same rules, in any order, give the same rows. -/
theorem lookup_resultsById_of_unchanged (added : (ruleChanges old new).added = [])
    (removed : (ruleChanges old new).removed = [])
    (modified : (ruleChanges old new).modified = []) (response : Json) (ruleId : Text) :
    lookup ruleId (old.evaluate response).resultsById =
      lookup ruleId (new.evaluate response).resultsById := by
  rw [ruleChanges, sortedIds_filter_eq_nil_iff] at added removed modified
  simp only [decide_eq_false_iff_not, not_not] at added removed
  simp only [decide_eq_false_iff_not, not_not, List.mem_filter, decide_eq_true_eq] at modified
  rw [oldValid.lookup_resultsById, newValid.lookup_resultsById]
  cases inOld : lookup ruleId old.rulesById with
  | none =>
      have absent : ruleId ∉ keys new.rulesById :=
        fun member => lookup_eq_none_iff.mp inOld (added ruleId member)
      rw [lookup_eq_none_iff.mpr absent]
  | some left =>
      have known : ruleId ∈ keys old.rulesById :=
        lookup_isSome_iff_mem_keys.mp (by rw [inOld]; rfl)
      have equal := modified ruleId ⟨known, removed ruleId known⟩
      cases inNew : lookup ruleId new.rulesById with
      | none => exact absurd (removed ruleId known) (lookup_eq_none_iff.mp inNew)
      | some right =>
          rw [inOld, inNew, Option.map_some, Option.map_some, Option.some.injEq] at equal
          rw [Option.map_some, Option.map_some, Option.some.injEq]
          exact evaluateRule_eq_of_ruleSignature equal oldValid newValid
            (mem_of_lookup_rules inOld).1 (mem_of_lookup_rules inNew).1 response

/-- Equal rows give equal verdicts. -/
theorem passed_eq_of_lookup_resultsById {response : Json}
    (agree : ∀ ruleId, lookup ruleId (old.evaluate response).resultsById =
      lookup ruleId (new.evaluate response).resultsById) :
    (old.evaluate response).passed = (new.evaluate response).passed := by
  have rows : ∀ {policy other : Policy}, policy.Valid → other.Valid →
      (∀ ruleId, lookup ruleId (policy.evaluate response).resultsById =
        lookup ruleId (other.evaluate response).resultsById) →
      (policy.evaluate response).passed = true → (other.evaluate response).passed = true := by
    intro policy other valid otherValid equal passed
    rw [valid.evaluate_passed_iff] at passed
    rw [otherValid.evaluate_passed_iff]
    intro rule member
    have inRules : lookup rule.ruleId other.rulesById = some rule := by
      apply lookup_eq_some_of_mem
      · rw [Policy.rulesById, keys, List.map_map]
        exact otherValid.distinct
      · exact List.mem_map_of_mem member
    have found := equal rule.ruleId
    rw [valid.lookup_resultsById, otherValid.lookup_resultsById, inRules, Option.map_some,
      Option.map_eq_some_iff] at found
    rcases found with ⟨source, known, sameRow⟩
    rw [← sameRow]
    exact passed source (mem_of_lookup_rules known).1
  apply Bool.eq_iff_iff.mpr
  exact ⟨rows oldValid newValid agree, rows newValid oldValid fun ruleId => (agree ruleId).symm⟩

/-- Equal rows meet the same expectations. -/
theorem matchesExpectation_eq_of_lookup_resultsById {version : SuiteVersion} {case : SuiteCase}
    (agree : ∀ ruleId, lookup ruleId (old.evaluate (.object case.response)).resultsById =
      lookup ruleId (new.evaluate (.object case.response)).resultsById) :
    (caseReport old version case).matchesExpectation =
      (caseReport new version case).matchesExpectation := by
  have passed := passed_eq_of_lookup_resultsById oldValid newValid agree
  have mismatches : assertionMismatches case.assertions
        (old.evaluate (.object case.response)).ruleResults =
      assertionMismatches case.assertions (new.evaluate (.object case.response)).ruleResults := by
    rw [assertionMismatches, assertionMismatches]
    congr 2
    apply List.filter_congr
    intro entry _
    have found := agree entry.1
    rw [EvaluationResult.resultsById, EvaluationResult.resultsById] at found
    rw [found]
  cases version with
  | version1_0 => simp only [caseReport, passed]
  | version1_1 => simp only [caseReport, passed, mismatches]

end Changes

/-! ## Reports -/

section Reports

variable {before after : PolicyInput} {old new : Policy} {suite : Json} {fixtures : Suite}
  (validated : validatePolicy before = .ok old) (afterValidated : validatePolicy after = .ok new)
  (suiteValidated : validateSuite suite = .ok fixtures)

include validated afterValidated suiteValidated

theorem comparePolicies_eq_ok :
    ∃ comparison, comparePolicies before after suite = .ok comparison ∧
      comparison.ruleChanges = ruleChanges old new ∧
      comparison.cases = fixtures.cases.map fun case =>
        compareCase (caseReport old fixtures.suiteVersion case)
          (caseReport new fixtures.suiteVersion case) := by
  have again := (valid_of_validateSuite suiteValidated).validate_toJson
  have oldReport := evaluateSuite_eq (valid_of_validatePolicy validated).validate_toObject again
  have newReport :=
    evaluateSuite_eq (valid_of_validatePolicy afterValidated).validate_toObject again
  simp only [comparePolicies, validated, afterValidated, suiteValidated, oldReport, newReport,
    ok_bind, suiteReport, List.zipWith_map, List.zipWith_self]
  exact ⟨_, rfl, rfl, rfl⟩

private theorem groups_of_migrationExpectations {migration : Migration}
    (ran : migrationExpectations before after suite = .ok migration) :
    let rows := fixtures.cases.map fun case =>
      (caseReport old fixtures.suiteVersion case, caseReport new fixtures.suiteVersion case)
    migration.regressions = expectationGroup rows true false ∧
      migration.recoveries = expectationGroup rows false true := by
  have again := (valid_of_validateSuite suiteValidated).validate_toJson
  rw [migrationExpectations, suiteValidated, ok_bind, evaluateSuite_eq validated again, ok_bind,
    evaluateSuite_eq afterValidated again, ok_bind] at ran
  rcases bind_eq_ok_iff.mp ran with ⟨_, _, returned⟩
  cases returned
  simp only [suiteReport, List.zip_map', and_self]

omit validated afterValidated suiteValidated in
theorem expectationGroup_eq_nil {rows : List (CaseReport × CaseReport)}
    (equal : ∀ row ∈ rows, row.1.matchesExpectation = row.2.matchesExpectation)
    {left right : Bool} (different : left ≠ right) : expectationGroup rows left right = [] := by
  rw [expectationGroup, List.map_eq_nil_iff, List.filter_eq_nil_iff]
  intro row member chosen
  have groups := of_decide_eq_true chosen
  exact different (groups.1.symm.trans ((equal row member).trans groups.2))

/-- Comparison never hides a change in behaviour. -/
theorem comparePolicies_hides_nothing :
    ∃ comparison, comparePolicies before after suite = .ok comparison ∧
      (∀ other listed, comparePolicies before after other = .ok listed →
        listed.ruleChanges.added = [] → listed.ruleChanges.removed = [] →
        listed.ruleChanges.modified = [] →
        ∀ case ∈ comparison.cases,
          case.verdictChanged = false ∧ case.changedRuleResults = []) ∧
      ((∀ case ∈ comparison.cases, case.changedRuleResults = []) →
        (∀ case ∈ comparison.cases, case.verdictChanged = false) ∧
        ∀ migration, migrationExpectations before after suite = .ok migration →
          migration.regressions = [] ∧ migration.recoveries = []) := by
  have oldValid := valid_of_validatePolicy validated
  have newValid := valid_of_validatePolicy afterValidated
  rcases comparePolicies_eq_ok validated afterValidated suiteValidated with
    ⟨comparison, compared, _, rows⟩
  refine ⟨comparison, compared, ?_, ?_⟩
  · intro other listed ran added removed modified
    rcases bind_eq_ok_iff.mp ran with ⟨_, _, rest⟩
    rcases bind_eq_ok_iff.mp rest with ⟨_, _, rest⟩
    rcases bind_eq_ok_iff.mp rest with ⟨otherFixtures, otherValidated, _⟩
    rcases comparePolicies_eq_ok validated afterValidated otherValidated with
      ⟨again, comparedAgain, changes, _⟩
    rw [ran] at comparedAgain
    cases comparedAgain
    rw [changes] at added removed modified
    rw [rows, List.forall_mem_map]
    intro case _
    have agree := lookup_resultsById_of_unchanged oldValid newValid added removed modified
      (.object case.response)
    refine ⟨verdictChanged_eq_false_iff.mpr ?_, changedRuleResults_eq_nil_iff.mpr ?_⟩
    · rw [caseReport_evaluation, caseReport_evaluation]
      exact passed_eq_of_lookup_resultsById oldValid newValid agree
    · rw [caseReport_evaluation, caseReport_evaluation]
      exact agree
  · intro unchanged
    rw [rows, List.forall_mem_map] at unchanged
    have agree : ∀ case ∈ fixtures.cases, ∀ ruleId,
        lookup ruleId (old.evaluate (.object case.response)).resultsById =
          lookup ruleId (new.evaluate (.object case.response)).resultsById := by
      intro case member
      have equal := changedRuleResults_eq_nil_iff.mp (unchanged case member)
      rwa [caseReport_evaluation, caseReport_evaluation] at equal
    constructor
    · rw [rows, List.forall_mem_map]
      intro case member
      rw [verdictChanged_eq_false_iff, caseReport_evaluation, caseReport_evaluation]
      exact passed_eq_of_lookup_resultsById oldValid newValid (agree case member)
    · intro migration ran
      have groups := groups_of_migrationExpectations validated afterValidated suiteValidated ran
      rw [groups.1, groups.2]
      have equal : ∀ row ∈ fixtures.cases.map fun case =>
          (caseReport old fixtures.suiteVersion case, caseReport new fixtures.suiteVersion case),
          row.1.matchesExpectation = row.2.matchesExpectation := by
        rw [List.forall_mem_map]
        intro case member
        exact matchesExpectation_eq_of_lookup_resultsById oldValid newValid (agree case member)
      exact ⟨expectationGroup_eq_nil equal Bool.false_ne_true.symm,
        expectationGroup_eq_nil equal Bool.false_ne_true⟩

end Reports

def allowedLevels (first second : Int) : Policy :=
  ⟨text "levels", [⟨text "listed", text "level",
    .oneOf [.number (.integer first), .number (.integer second)]⟩], .version1_0⟩

def levelSuite : Suite :=
  ⟨.version1_0, [⟨text "two", [(text "level", .number (.integer 2))], true, none⟩]⟩

theorem comparePolicies_hides_nothing_reordered :
    ∃ comparison, comparePolicies (.object (allowedLevels 1 2).toObject)
        (.object (allowedLevels 2 1).toObject) levelSuite.toJson = .ok comparison ∧
      (∀ other listed, comparePolicies (.object (allowedLevels 1 2).toObject)
          (.object (allowedLevels 2 1).toObject) other = .ok listed →
        listed.ruleChanges.added = [] → listed.ruleChanges.removed = [] →
        listed.ruleChanges.modified = [] →
        ∀ case ∈ comparison.cases,
          case.verdictChanged = false ∧ case.changedRuleResults = []) ∧
      ((∀ case ∈ comparison.cases, case.changedRuleResults = []) →
        (∀ case ∈ comparison.cases, case.verdictChanged = false) ∧
        ∀ migration, migrationExpectations (.object (allowedLevels 1 2).toObject)
            (.object (allowedLevels 2 1).toObject) levelSuite.toJson = .ok migration →
          migration.regressions = [] ∧ migration.recoveries = []) :=
  comparePolicies_hides_nothing
    (show validatePolicy _ = .ok (allowedLevels 1 2) by decide +kernel)
    (show validatePolicy _ = .ok (allowedLevels 2 1) by decide +kernel)
    (show validateSuite _ = .ok levelSuite by decide +kernel)

end AgentTestbench

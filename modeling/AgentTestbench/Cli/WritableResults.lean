import AgentTestbench.Cli.Results
import AgentTestbench.Coverage.Accounting

/-! # Results that can be written

Whatever a command of the library returns is a document: no result holds a text that cannot be
encoded or a number without a text.
-/

namespace AgentTestbench

open AssociationList Fallible Json

/-! ## Texts and counts -/

theorem writable_text (literal : String) : (Json.string (text literal)).Writable :=
  writable_string (text_encodable literal)

theorem writable_textsOf {contents : List Text} (each : ∀ content ∈ contents, content.Encodable) :
    (textsOf contents).Writable :=
  writable_strings each

theorem writable_map {Item : Type} {items : List Item} {toJson : Item → Json}
    (each : ∀ item ∈ items, (toJson item).Writable) : (Json.array (items.map toJson)).Writable :=
  writable_array_iff.mpr (List.forall_mem_map.mpr each)

/-- No count of cases or rules reaches the limit on the digits of a number. -/
theorem writable_few {count : Nat} (few : count ≤ 1000000) : (countJson count).Writable := by
  apply writable_count
  have powers : 10 ^ 7 ≤ 10 ^ maxIntegerDigits := Nat.pow_le_pow_right (by decide) (by decide)
  omega

private theorem encodable_of_intercalate {separator : Text} {names : List Text}
    (joined : Text.Encodable (separator.intercalate names)) :
    ∀ name ∈ names, Text.Encodable name := by
  induction names with
  | nil => exact List.forall_mem_nil _
  | cons name names induction =>
      rw [List.forall_mem_cons]
      cases names with
      | nil =>
          rw [List.intercalate_singleton] at joined
          exact ⟨joined, List.forall_mem_nil _⟩
      | cons second others =>
          rw [List.intercalate_cons_cons, Text.encodable_append_iff, Text.encodable_append_iff]
            at joined
          exact ⟨joined.1.1, induction joined.2⟩

private theorem splitStops_encodable {path : Text} (encodable : path.Encodable) :
    ∀ segment ∈ path.splitStops, Text.Encodable segment := by
  apply @encodable_of_intercalate [fullStop]
  rw [Text.splitStops, List.intercalate_splitOn]
  exact encodable

theorem SchemaVersion.name_encodable (version : SchemaVersion) : version.name.Encodable := by
  cases version <;> exact text_encodable _

theorem SuiteVersion.name_encodable (version : SuiteVersion) : version.name.Encodable := by
  cases version <;> exact text_encodable _

theorem Json.TypeName.name_encodable (name : Json.TypeName) : name.name.Encodable := by
  cases name <;> exact text_encodable _

theorem Suite.Valid.caseIds_encodable {suite : Suite} (valid : suite.Valid) :
    ∀ case ∈ suite.cases, case.caseId.Encodable :=
  fun case member => identifier_encodable (valid.identifiers case member)

/-! ## Evaluations -/

section Policies

variable {policy : Policy} (valid : policy.Valid)

include valid

theorem Policy.Valid.evaluate_writable (response : Json) :
    (policy.evaluate response).toJson.Writable :=
  ⟨evaluateChecked_toJson_portable valid response, EvaluationResult.toJson_encodable _⟩

private theorem Policy.Valid.ruleIds_encodable : ∀ identifier ∈ policy.rules.map Rule.ruleId,
    identifier.Encodable := by
  rw [List.forall_mem_map]
  exact fun rule member => (valid.texts_encodable.2 rule member).1

theorem Policy.Valid.validation_writable : policy.validation.Writable := by
  refine writable_member _ (writable_string valid.texts_encodable.1) ?_
  refine writable_member _ (writable_string policy.schemaVersion.name_encodable) ?_
  exact writable_member _ (writable_bool _) writable_empty

private theorem caseReport_writable {version : SuiteVersion} {case : SuiteCase}
    (named : case.caseId.Encodable) (asserted : ∀ entry ∈ case.assertions, entry.1.Encodable) :
    (caseReport policy version case).toJson.Writable := by
  have head {expected matched : Bool} {rest : List (Text × Json)}
      (others : (Json.object rest).Writable) :
      (Json.object ([(text "case_id", .string case.caseId),
        (text "expected_passed", .bool expected), (text "matches_expectation", .bool matched),
        (text "evaluation", (policy.evaluate (.object case.response)).toJson)] ++
          rest)).Writable := by
    refine writable_member _ (writable_string named) ?_
    refine writable_member _ (writable_bool _) ?_
    refine writable_member _ (writable_bool _) ?_
    exact writable_member _ (valid.evaluate_writable _) others
  cases version with
  | version1_0 => exact head writable_empty
  | version1_1 =>
      refine head (writable_member _ (writable_strings fun identifier member => ?_) writable_empty)
      rw [assertionMismatches, sortedIds, List.mem_insertionSort] at member
      rcases List.mem_map.mp member with ⟨entry, kept, rfl⟩
      exact asserted entry (List.mem_of_mem_filter kept)

private theorem suiteReport_writable {suite : Suite} (suiteValid : suite.Valid) :
    (suiteReport policy suite).toJson.Writable := by
  have caseList : suite.cases.length ≤ 1000000 := suiteValid.count.trans (by decide)
  have count : (suiteReport policy suite).caseCount ≤ 1000000 := by
    rw [suiteReport, List.length_map]
    exact caseList
  have mismatches : (suiteReport policy suite).mismatchCount ≤ 1000000 := by
    refine List.countP_le_length.trans ?_
    rw [List.length_map]
    exact caseList
  refine writable_member _ (writable_string suite.suiteVersion.name_encodable) ?_
  refine writable_member _ (writable_string valid.texts_encodable.1) ?_
  refine writable_member _ (writable_bool _) ?_
  refine writable_member _ (writable_few count) ?_
  refine writable_member _ (writable_few mismatches) ?_
  refine writable_member _ (writable_map ?_) writable_empty
  rw [suiteReport, List.forall_mem_map]
  intro case member
  refine caseReport_writable valid (suiteValid.caseIds_encodable case member) ?_
  exact fun entry asserted =>
    identifier_encodable (suiteValid.assertions case member entry asserted)

/-! ## Coverage -/

private theorem ruleCoverage_writable {suite : Suite} (suiteValid : suite.Valid)
    {row : RuleCoverage} (member : row ∈ coverageRows (suiteReport policy suite)) :
    row.ruleId.Encodable ∧ row.toJson.Writable := by
  rcases coverageRow_accounts valid member with ⟨rule, declared, accounts⟩
  have texts := valid.texts_encodable.2 rule declared
  have count : suite.cases.length ≤ 1000000 := suiteValid.count.trans (by decide)
  have named : row.ruleId.Encodable := by
    rw [accounts.ruleId]
    exact texts.1
  have placed : row.path.Encodable := by
    rw [accounts.path]
    exact texts.2
  have counted : ∀ entry ∈ row.reasonCounts, entry.2 ≤ 1000000 := by
    intro entry listed
    refine (List.le_sum_of_mem (List.mem_map_of_mem listed)).trans ?_
    rw [accounts.reasons]
    exact count
  have total := accounts.total
  refine ⟨named, ?_⟩
  refine writable_member _ (writable_string named) ?_
  refine writable_member _ (writable_string placed) ?_
  refine writable_member _ (writable_string row.kind.name_encodable) ?_
  refine writable_member _ (writable_few (by omega)) ?_
  refine writable_member _ (writable_few (by omega)) ?_
  refine writable_member _ ?_ ?_
  · rw [writable_object_iff, keys, List.map_map, List.forall_mem_map, List.forall_mem_map]
    exact ⟨fun entry _ => entry.1.name_encodable,
      fun entry listed => writable_few (counted entry listed)⟩
  · refine writable_member _ (writable_bool _) ?_
    refine writable_member _ (writable_strings ?_) writable_empty
    rw [List.forall_mem_map]
    exact fun code _ => code.name_encodable

end Policies

section Results

variable {input candidate : PolicyInput} {raw : Json}

theorem evaluateSuite_writable {report : SuiteReport}
    (evaluated : evaluateSuite input raw = .ok report) : report.toJson.Writable := by
  rcases bind_eq_ok_iff.mp evaluated with ⟨policy, validated, rest⟩
  rcases bind_eq_ok_iff.mp rest with ⟨suite, suiteValidated, _⟩
  rw [evaluateSuite_eq validated suiteValidated, Except.ok.injEq] at evaluated
  rw [← evaluated]
  exact suiteReport_writable (valid_of_validatePolicy validated)
    (valid_of_validateSuite suiteValidated)

theorem evaluateResponse_writable {response : Json} {result : EvaluationResult}
    (evaluated : evaluateResponse input response = .ok result) : result.toJson.Writable := by
  rcases bind_eq_ok_iff.mp evaluated with ⟨policy, validated, checked⟩
  rcases bind_eq_ok_iff.mp checked with ⟨_, _, equal⟩
  cases equal
  exact (valid_of_validatePolicy validated).evaluate_writable _

theorem suiteCoverage_writable {report : CoverageReport}
    (covered : suiteCoverage input raw = .ok report) : report.toJson.Writable := by
  rcases bind_eq_ok_iff.mp covered with ⟨suiteRows, evaluated, equal⟩
  rcases bind_eq_ok_iff.mp evaluated with ⟨policy, validated, rest⟩
  rcases bind_eq_ok_iff.mp rest with ⟨suite, suiteValidated, _⟩
  rw [evaluateSuite_eq validated suiteValidated, Except.ok.injEq] at evaluated
  rw [← evaluated] at equal
  cases equal
  have valid := valid_of_validatePolicy validated
  have suiteValid := valid_of_validateSuite suiteValidated
  have rows : ∀ row ∈ coverageRows (suiteReport policy suite),
      row.ruleId.Encodable ∧ row.toJson.Writable :=
    fun row member => ruleCoverage_writable valid suiteValid member
  have identifiers {selects : RuleCoverage → Bool} : ∀ identifier ∈
      ((coverageRows (suiteReport policy suite)).filter selects).map fun row => row.ruleId,
      identifier.Encodable := by
    rw [List.forall_mem_map]
    exact fun row member => (rows row (List.mem_of_mem_filter member)).1
  have few {selects : RuleCoverage → Bool} :
      (coverageRows (suiteReport policy suite)).countP selects ≤ 1000000 := by
    have length := (coverageRows_perm valid suiteValid.nonempty).length_eq
    rw [List.length_map, List.length_map] at length
    refine (List.countP_le_length.trans_eq length).trans (valid.count.trans (by decide))
  have caseList : (suiteReport policy suite).caseCount ≤ 1000000 := by
    rw [suiteReport, List.length_map]
    exact suiteValid.count.trans (by decide)
  refine writable_member _ (writable_string valid.texts_encodable.1) ?_
  refine writable_member _ (writable_few caseList) ?_
  refine writable_member _ (writable_map fun row member => (rows row member).2) ?_
  refine writable_member _ (writable_few few) ?_
  refine writable_member _ (writable_textsOf identifiers) ?_
  refine writable_member _ (writable_textsOf identifiers) ?_
  refine writable_member _ (writable_few few) ?_
  refine writable_member _ (writable_textsOf identifiers) ?_
  exact writable_member _ (writable_text _) writable_empty

/-! ## Explanations -/

private theorem explainRule_place_encodable {response : Json} {rule : Rule} {item : RuleResult}
    (path : item.path.Encodable) :
    ∀ place ∈ (explainRule response rule item).place, place.Encodable := by
  have described := @traverse_describes response response [] item.path.splitStops rfl
  have segments := splitStops_encodable path
  have joined {traversed : List Text} (front : traversed <+: item.path.splitStops) :
      (joinStops traversed).Encodable :=
    intercalate_encodable (by decide) fun segment member => segments segment (front.subset member)
  rw [List.nil_append] at described
  intro place given
  rw [explainRule] at given
  cases walked : traverse response [] item.path.splitStops with
  | resolved value =>
      rw [walked] at given
      cases given
  | memberAbsent traversed =>
      rw [walked] at given described
      rcases described with ⟨_, _, _, _, front, _⟩
      cases given
      exact joined front
  | parentNotObject traversed =>
      rw [walked] at given described
      rcases described with ⟨_, _, front, _⟩
      cases given
      exact joined ((List.prefix_append _ _).trans front)

private theorem explanation_writable {detail : Explanation} (named : detail.ruleId.Encodable)
    (placed : detail.path.Encodable) (place : ∀ place ∈ detail.place, place.Encodable) :
    detail.toJson.Writable := by
  have optional {Name : Type} {label : String} {value : Option Name} {name : Name → Text}
      (each : ∀ content ∈ value, (name content).Encodable) :
      (Json.object (value.toList.map fun content =>
        (text label, Json.string (name content)))).Writable := by
    cases value with
    | none => exact writable_empty
    | some content => exact writable_member _ (writable_string (each content rfl)) writable_empty
  have expected : ((detail.expectedTypes.map fun names =>
      textsOf (names.map Json.TypeName.name)).getD .null).Writable := by
    cases detail.expectedTypes with
    | none => exact writable_null
    | some names =>
        apply writable_textsOf
        rw [List.forall_mem_map]
        exact fun name _ => name.name_encodable
  rw [Explanation.toJson]
  refine writable_append_iff.mpr ⟨?_, optional fun bound _ => ?_⟩
  · refine writable_append_iff.mpr ⟨?_, optional fun name _ => name.name_encodable⟩
    refine writable_append_iff.mpr ⟨?_, optional place⟩
    refine writable_member _ (writable_string named) ?_
    refine writable_member _ (writable_string detail.reasonCode.name_encodable) ?_
    refine writable_member _ (writable_string placed) ?_
    refine writable_member _ (writable_string ?_) (writable_member _ expected writable_empty)
    cases detail.resolution <;> exact text_encodable _
  · cases bound <;> exact text_encodable _

private theorem explainRule_labels (response : Json) (rule : Rule) (item : RuleResult) :
    (explainRule response rule item).ruleId = item.ruleId ∧
      (explainRule response rule item).path = item.path := by
  rw [explainRule]
  split <;> exact ⟨rfl, rfl⟩

theorem explainResponse_writable {response : Json} {report : ExplanationReport}
    (explained : explainResponse input response = .ok report) : report.toJson.Writable := by
  rcases bind_eq_ok_iff.mp explained with ⟨policy, validated, rest⟩
  rcases bind_eq_ok_iff.mp rest with ⟨result, evaluated, equal⟩
  rcases bind_eq_ok_iff.mp evaluated with ⟨checked, _, same⟩
  cases same
  cases equal
  have valid := valid_of_validatePolicy validated
  rw [← Policy.evaluate, valid.evaluate_ruleResults, List.zipWith_map_right, List.zipWith_self]
  refine writable_member _ (valid.evaluate_writable _) ?_
  refine writable_member _ (writable_map ?_) ?_
  · rw [List.forall_mem_map]
    intro rule declared
    have texts := valid.texts_encodable.2 rule declared
    have row := evaluateCompiledRule_labels (.inl rfl : CompiledRule.Of rule _) checked
    have same := explainRule_labels response rule (evaluateRule rule checked)
    rw [← evaluateRule] at row
    refine explanation_writable ?_ ?_ (explainRule_place_encodable ?_)
    · rw [same.1, row.1]
      exact texts.1
    · rw [same.2, row.2.2]
      exact texts.2
    · rw [row.2.2]
      exact texts.2
  · exact writable_member _ (writable_bool _) writable_empty

/-! ## Comparisons -/

theorem sortedIds_encodable {identifiers : List Text}
    (each : ∀ identifier ∈ identifiers, identifier.Encodable) :
    ∀ identifier ∈ sortedIds identifiers, identifier.Encodable := by
  intro identifier member
  rw [sortedIds, List.mem_insertionSort] at member
  exact each identifier member

private theorem ruleChanges_writable {old new : Policy} (oldValid : old.Valid)
    (newValid : new.Valid) : (ruleChanges old new).toJson.Writable := by
  have declared {policy : Policy} (valid : policy.Valid) :
      ∀ key ∈ keys policy.rulesById, key.Encodable := by
    rw [keys, Policy.rulesById, List.map_map]
    exact valid.ruleIds_encodable
  have filtered {policy : Policy} (valid : policy.Valid) (selects : Text → Bool) :
      ∀ key ∈ (keys policy.rulesById).filter selects, key.Encodable :=
    fun key member => declared valid key (List.mem_of_mem_filter member)
  refine writable_member _ (writable_textsOf (sortedIds_encodable (filtered newValid _))) ?_
  refine writable_member _ (writable_textsOf (sortedIds_encodable (filtered oldValid _))) ?_
  refine writable_member _ (writable_textsOf (sortedIds_encodable fun key member => ?_)) ?_
  · exact filtered oldValid _ key (List.mem_of_mem_filter member)
  · exact writable_member _ (writable_bool _) writable_empty

private theorem compareCase_writable {old new : Policy} (oldValid : old.Valid)
    (newValid : new.Valid)
    {version : SuiteVersion} {case : SuiteCase} (named : case.caseId.Encodable) :
    (compareCase (caseReport old version case) (caseReport new version case)).toJson.Writable := by
  have caseId : (caseReport old version case).caseId = case.caseId := by
    cases version <;> rfl
  have reported {policy : Policy} (valid : policy.Valid) :
      ∀ key ∈ keys (caseReport policy version case).evaluation.resultsById, key.Encodable := by
    rw [caseReport_evaluation, keys, EvaluationResult.resultsById, valid.evaluate_ruleResults,
      List.map_map, List.map_map, List.forall_mem_map]
    intro rule declared
    change (evaluateRule rule _).ruleId.Encodable
    rw [evaluateRule_ruleId]
    exact (valid.texts_encodable.2 rule declared).1
  refine writable_member _ (writable_string ?_) ?_
  · change (caseReport old version case).caseId.Encodable
    rw [caseId]
    exact named
  refine writable_member _ (writable_bool _) ?_
  refine writable_member _ (writable_bool _) ?_
  refine writable_member _ (writable_bool _) ?_
  refine writable_member _ (writable_textsOf (sortedIds_encodable fun key member => ?_))
    writable_empty
  rcases List.mem_union_iff.mp (List.mem_of_mem_filter member) with before | after
  · exact reported oldValid key before
  · exact reported newValid key after

theorem comparePolicies_writable {comparison : Comparison}
    (compared : comparePolicies input candidate raw = .ok comparison) :
    comparison.toJson.Writable := by
  rcases bind_eq_ok_iff.mp compared with ⟨old, oldValidated, compared⟩
  rcases bind_eq_ok_iff.mp compared with ⟨new, newValidated, compared⟩
  rcases bind_eq_ok_iff.mp compared with ⟨fixtures, suiteValidated, compared⟩
  have oldValid := valid_of_validatePolicy oldValidated
  have newValid := valid_of_validatePolicy newValidated
  have suiteValid := valid_of_validateSuite suiteValidated
  rw [evaluateSuite_eq oldValid.validate_toObject suiteValid.validate_toJson, ok_bind,
    evaluateSuite_eq newValid.validate_toObject suiteValid.validate_toJson, ok_bind] at compared
  cases compared
  have caseList : List.zipWith compareCase (suiteReport old fixtures).cases
      (suiteReport new fixtures).cases = fixtures.cases.map fun case =>
        compareCase (caseReport old fixtures.suiteVersion case)
          (caseReport new fixtures.suiteVersion case) := by
    rw [suiteReport, suiteReport, List.zipWith_map, List.zipWith_self]
  have named : ∀ case ∈ List.zipWith compareCase (suiteReport old fixtures).cases
      (suiteReport new fixtures).cases, case.caseId.Encodable := by
    rw [caseList, List.forall_mem_map]
    intro case member
    have caseId : (compareCase (caseReport old fixtures.suiteVersion case)
        (caseReport new fixtures.suiteVersion case)).caseId = case.caseId := by
      cases fixtures.suiteVersion <;> rfl
    rw [caseId]
    exact suiteValid.caseIds_encodable case member
  have listed {selects : CaseComparison → Bool} : ∀ identifier ∈
      ((List.zipWith compareCase (suiteReport old fixtures).cases
        (suiteReport new fixtures).cases).filter selects).map CaseComparison.caseId,
      identifier.Encodable := by
    rw [List.forall_mem_map]
    exact fun case member => named case (List.mem_of_mem_filter member)
  refine writable_member _ (writable_string oldValid.texts_encodable.1) ?_
  refine writable_member _ (writable_string newValid.texts_encodable.1) ?_
  refine writable_member _ (ruleChanges_writable oldValid newValid) ?_
  refine writable_member _ (writable_map ?_) ?_
  · rw [caseList, List.forall_mem_map]
    exact fun case member =>
      compareCase_writable oldValid newValid (suiteValid.caseIds_encodable case member)
  refine writable_member _ (writable_few ?_) ?_
  · refine List.countP_le_length.trans ?_
    rw [caseList, List.length_map]
    exact suiteValid.count.trans (by decide)
  refine writable_member _ (writable_textsOf listed) ?_
  refine writable_member _ (writable_textsOf listed) ?_
  refine writable_member _ (writable_bool _) ?_
  refine writable_member _ (writable_bool _) ?_
  exact writable_member _ (writable_text _) writable_empty

end Results

/-! ## Findings -/

/-- The texts of all findings so far can be encoded. -/
def LintState.Named (state : LintState) : Prop :=
  ∀ finding ∈ state.findings,
    finding.path.Encodable ∧ ∀ identifier ∈ finding.ruleIds, identifier.Encodable

section Findings

variable {state next : LintState} {path : Text} {rules : List Rule}

theorem LintState.Named.charge {bytes : Nat} (named : state.Named)
    (charged : state.charge bytes = .ok next) : next.Named := by
  rcases bind_eq_ok_iff.mp charged with ⟨_, _, equal⟩
  cases equal
  exact named

theorem LintState.Named.report (named : state.Named) {code : FindingCode} {ruleIds : List Text}
    (placed : path.Encodable) (identifiers : ∀ identifier ∈ ruleIds, identifier.Encodable) :
    (state.report ⟨code, path, sortedIds ruleIds⟩).Named := by
  intro finding member
  rcases List.mem_append.mp member with earlier | last
  · exact named finding earlier
  · rw [List.mem_singleton.mp last]
    exact ⟨placed, sortedIds_encodable identifiers⟩

private theorem lintDomains_named (placed : path.Encodable)
    (identifiers : ∀ rule ∈ rules, rule.ruleId.Encodable) (named : state.Named)
    (ran : lintDomains path rules state = .ok next) : next.Named := by
  rw [lintDomains] at ran
  split at ran
  · cases ran
    exact named
  · rename_i first others finite
    have finiteIds : ∀ identifier ∈ (first :: others).map fun entry => entry.1.ruleId,
        identifier.Encodable := by
      rw [List.forall_mem_map, ← finite]
      exact fun entry member => identifiers entry.1 (mem_finiteRules member).1
    have filterIds : ∀ identifier ∈
        (rules.filter fun rule => rule.kind.isFilter).map Rule.ruleId, identifier.Encodable := by
      rw [List.forall_mem_map]
      exact fun rule member => identifiers rule (List.mem_of_mem_filter member)
    simp only at ran
    split_ifs at ran
    · cases ran
      exact named.report placed finiteIds
    · cases ran
      exact named
    · rcases bind_eq_ok_iff.mp ran with ⟨charged, chargeRan, returned⟩
      cases returned
      exact named.charge chargeRan
    · rcases bind_eq_ok_iff.mp ran with ⟨charged, chargeRan, returned⟩
      cases returned
      exact (named.charge chargeRan).report placed
        (List.forall_mem_append.mpr ⟨finiteIds, filterIds⟩)

private theorem lintDuplicates_named {seen : List (Text × Text)} (placed : path.Encodable)
    (identifiers : ∀ rule ∈ rules, rule.ruleId.Encodable)
    (earlierIds : ∀ marker earlier, lookup marker seen = some earlier → earlier.Encodable)
    (named : state.Named) : (lintDuplicates path seen rules state).Named := by
  induction rules generalizing seen state with
  | nil => exact named
  | cons rule rules induction =>
      rw [List.forall_mem_cons] at identifiers
      rw [lintDuplicates]
      split
      · rename_i earlier found
        apply induction identifiers.2 earlierIds
        apply named.report placed
        rw [List.forall_mem_cons, List.forall_mem_singleton]
        exact ⟨earlierIds _ earlier found, identifiers.1⟩
      · apply induction identifiers.2 _ named
        intro marker earlier found
        by_cases same : marker = constraintMarker rule.constraint
        · rw [same, lookup_insert_self, Option.some.injEq] at found
          rw [← found]
          exact identifiers.1
        · rw [lookup_insert_of_ne same] at found
          exact earlierIds marker earlier found

private theorem lintDescendants_named {policy : Policy} (valid : policy.Valid) {rule : Rule}
    (declared : rule ∈ policy.rules) (placed : path.Encodable) (named : state.Named)
    (ran : lintDescendants policy path state rule = .ok next) : next.Named := by
  have texts := valid.texts_encodable.2
  rw [lintDescendants] at ran
  split at ran
  · cases ran
    exact named
  · rcases bind_eq_ok_iff.mp ran with ⟨charged, chargeRan, returned⟩
    split_ifs at returned
    · cases returned
      exact named.charge chargeRan
    · cases returned
      apply (named.charge chargeRan).report placed
      rw [List.forall_mem_cons, List.forall_mem_map]
      exact ⟨(texts rule declared).1,
        fun child member => (texts child (List.mem_of_mem_filter member)).1⟩

private theorem lintPath_named {policy : Policy} (valid : policy.Valid) {entry : Text × List Rule}
    (inGroups : entry ∈ group Rule.path policy.rules) (named : state.Named)
    (ran : lintPath policy state entry = .ok next) : next.Named := by
  rcases mem_group_iff.mp inGroups with ⟨rules, nonempty⟩
  have declared : ∀ rule ∈ entry.2, rule ∈ policy.rules ∧ rule.path = entry.1 := by
    intro rule member
    rw [rules] at member
    exact ⟨List.mem_of_mem_filter member, of_decide_eq_true (List.mem_filter.mp member).2⟩
  have placed : entry.1.Encodable := by
    rcases List.exists_mem_of_ne_nil _ nonempty with ⟨rule, member⟩
    rw [← (declared rule member).2]
    exact (valid.texts_encodable.2 rule (declared rule member).1).2
  have identifiers : ∀ rule ∈ entry.2, rule.ruleId.Encodable :=
    fun rule member => (valid.texts_encodable.2 rule (declared rule member).1).1
  rcases bind_eq_ok_iff.mp ran with ⟨compared, comparedRan, rest⟩
  have comparedNamed := lintDomains_named placed identifiers named comparedRan
  refine foldlM_preserves (fun rule member state next named ran => ?_)
    (lintDuplicates_named placed identifiers (fun _ _ found => by cases found) comparedNamed) rest
  exact lintDescendants_named valid (declared rule member).1 placed named ran

end Findings

theorem lintPolicy_writable {input : PolicyInput} {report : LintReport}
    (linted : lintPolicy input = .ok report) : report.toJson.Writable := by
  rcases bind_eq_ok_iff.mp linted with ⟨policy, validated, rest⟩
  rcases bind_eq_ok_iff.mp rest with ⟨state, ran, equal⟩
  cases equal
  have valid := valid_of_validatePolicy validated
  have named : state.Named := by
    refine foldlM_preserves (fun entry member state next named ran => ?_)
      (fun _ member => absurd member List.not_mem_nil) ran
    exact lintPath_named valid (mem_sortByKey.mp member) named ran
  refine writable_member _ (writable_string valid.texts_encodable.1) ?_
  refine writable_member _ (writable_map fun finding member => ?_) ?_
  · rcases named finding ((List.mem_insertionSort _).mp member) with ⟨placed, identifiers⟩
    have code : finding.code.name.Encodable := by
      cases finding.code <;> exact text_encodable _
    refine writable_member _ (writable_string code) ?_
    refine writable_member _ (writable_string placed) ?_
    exact writable_member _ (writable_strings identifiers) writable_empty
  refine writable_member _ (writable_bool _) ?_
  exact writable_member _ (writable_text _) writable_empty

/-! ## Generated cases -/

section Generated

variable {input : PolicyInput}

theorem verify_writable {policy : Policy} (valid : policy.Valid) {response : Json}
    {result : EvaluationResult}
    (verified : verify policy.policyId (compile policy) response = .ok result) :
    result.toJson.Writable ∧ response.Writable := by
  rcases bind_eq_ok_iff.mp (mapError_eq_ok_iff.mp verified) with ⟨checked, accepted, equal⟩
  cases equal
  rcases checkResponse_eq_ok_iff.mp accepted with ⟨⟨_, fits⟩, rfl⟩
  exact ⟨valid.evaluate_writable _, fits.writable⟩

theorem generateSyntheticCases_writable {bundle : SyntheticCaseBundle}
    (generated : generateSyntheticCases input = .ok bundle) : bundle.toJson.Writable := by
  have fixture {case : SyntheticCase} (evaluation : case.evaluation.toJson.Writable)
      (response : (Json.object case.response).Writable) : case.toJson.Writable :=
    writable_member _ evaluation (writable_member _ response writable_empty)
  rcases bind_eq_ok_iff.mp generated with ⟨policy, validated, rest⟩
  rcases bind_eq_ok_iff.mp rest with ⟨state, _, rest⟩
  rcases bind_eq_ok_iff.mp rest with ⟨passing, passingRan, rest⟩
  rcases bind_eq_ok_iff.mp rest with ⟨_, _, rest⟩
  have valid := valid_of_validatePolicy validated
  have passed := verify_writable valid passingRan
  simp only at rest
  split at rest
  · cases rest
  · rcases bind_eq_ok_iff.mp rest with ⟨failing, failingRan, rest⟩
    rcases bind_eq_ok_iff.mp rest with ⟨_, _, equal⟩
    cases equal
    have failed := verify_writable valid failingRan
    refine writable_member _ (fixture failed.1 failed.2) ?_
    refine writable_member _ (fixture passed.1 passed.2) ?_
    exact writable_member _ (writable_string valid.texts_encodable.1) writable_empty

theorem generateRuleProbes_writable {bundle : ProbeBundle}
    (generated : generateRuleProbes input = .ok bundle) : bundle.toJson.Writable := by
  rcases bind_eq_ok_iff.mp generated with ⟨policy, _, rest⟩
  rcases bind_eq_ok_iff.mp rest with ⟨_, _, rest⟩
  rcases bind_eq_ok_iff.mp rest with ⟨synthetic, _, rest⟩
  rcases bind_eq_ok_iff.mp rest with ⟨added, _, rest⟩
  rcases bind_eq_ok_iff.mp rest with ⟨_, checked, equal⟩
  cases equal
  rcases bind_eq_ok_iff.mp checked with ⟨_, _, checked⟩
  rcases bind_eq_ok_iff.mp checked with ⟨size, measured, _⟩
  exact (checkJson_eq_ok_iff.mp (mapError_eq_ok_iff.mp measured)).1.writable

theorem checkOrderConformance_writable {response : Json} {evaluator : Evaluator}
    {report : OrderReport}
    (checked : checkOrderConformance input response evaluator = .ok report) :
    report.toJson.Writable := by
  rw [checkOrderConformance] at checked
  cases ran : runOrderCheck input response evaluator with
  | error failure =>
      rw [ran] at checked
      cases checked
  | ok result =>
      rw [ran] at checked
      cases checked
      rcases bind_eq_ok_iff.mp ran with ⟨⟨check, estimatedWorkBytes⟩, _, rest⟩
      rcases bind_eq_ok_iff.mp rest with ⟨⟨state, stopped⟩, _, rest⟩
      rcases bind_eq_ok_iff.mp rest with ⟨report, bounded, equal⟩
      cases equal
      rcases bind_eq_ok_iff.mp bounded with ⟨size, measured, equal⟩
      cases equal
      exact writable_of_size (mapError_eq_ok_iff.mp measured)

/-! ## Receipts -/

theorem createReceipt_writable {response : Json} {receipt : Receipt}
    (created : createReceipt input response = .ok receipt) : receipt.toJson.Writable := by
  rcases bind_eq_ok_iff.mp created with ⟨_, _, rest⟩
  rcases bind_eq_ok_iff.mp rest with ⟨_, _, rest⟩
  rcases bind_eq_ok_iff.mp rest with ⟨size, measured, rest⟩
  rcases bind_eq_ok_iff.mp rest with ⟨_, _, rest⟩
  rcases bind_eq_ok_iff.mp rest with ⟨_, _, equal⟩
  cases equal
  exact writable_of_size (mapError_eq_ok_iff.mp measured)

theorem verification_writable {verified : Bool} {names : List Text} {selects : Text → Bool}
    {scope : String} (named : ∀ name ∈ names, name.Encodable) :
    (Verification.toJson ⟨verified, sortedIds (names.filter selects), text scope⟩).Writable := by
  refine writable_member _ (writable_bool _) ?_
  refine writable_member _ (writable_textsOf (sortedIds_encodable fun name member => ?_)) ?_
  · exact named name (List.mem_of_mem_filter member)
  · exact writable_member _ (writable_text _) writable_empty

theorem verifyReceipt_writable {response receipt : Json} {verification : Verification}
    (verified : verifyReceipt input response receipt = .ok verification) :
    verification.toJson.Writable := by
  rcases bind_eq_ok_iff.mp verified with ⟨_, _, rest⟩
  rcases bind_eq_ok_iff.mp rest with ⟨_, _, rest⟩
  split at rest
  · rcases bind_eq_ok_iff.mp rest with ⟨_, _, rest⟩
    rcases bind_eq_ok_iff.mp rest with ⟨_, _, rest⟩
    rcases bind_eq_ok_iff.mp rest with ⟨_, _, rest⟩
    rcases bind_eq_ok_iff.mp rest with ⟨expected, _, equal⟩
    cases equal
    exact verification_writable (by decide)
  · cases rest

theorem verifySuiteReceipt_writable {suite receipt : Json} {verification : Verification}
    (verified : verifySuiteReceipt input suite receipt = .ok verification) :
    verification.toJson.Writable := by
  rcases bind_eq_ok_iff.mp verified with ⟨_, _, rest⟩
  split at rest
  · rcases bind_eq_ok_iff.mp rest with ⟨_, _, rest⟩
    rcases bind_eq_ok_iff.mp rest with ⟨_, _, rest⟩
    rcases bind_eq_ok_iff.mp rest with ⟨expected, _, equal⟩
    cases equal
    exact verification_writable (by decide)
  · cases rest

theorem replayBundle_writable {bundle : Json} {replay : Replay}
    (replayed : replayBundle bundle = .ok replay) : replay.toJson.Writable := by
  rcases bind_eq_ok_iff.mp replayed with ⟨_, bounded, rest⟩
  split at rest
  · rename_i members
    rcases bind_eq_ok_iff.mp rest with ⟨_, exactKeys, rest⟩
    rcases bind_eq_ok_iff.mp rest with ⟨verification, verified, equal⟩
    cases equal
    have receipt : (field members (text "receipt")).Writable := by
      have present := lookup_of_field ((require_eq_ok_iff.mp exactKeys).1.2 (text "receipt")
        (by simp [replayKeys]))
      exact (boundedArtifact_writable bounded).of_member? present
    have claimed : ((if verification.verified then claimedMatch (field members (text "receipt"))
        else none).getD .null).Writable := by
      split_ifs
      · cases found : claimedMatch (field members (text "receipt")) with
        | none => exact writable_null
        | some matched =>
            rcases Option.bind_eq_some_iff.mp found with ⟨evaluation, inReceipt, inEvaluation⟩
            exact (receipt.of_member? inReceipt).of_member? inEvaluation
      · exact writable_null
    refine writable_member _ (writable_bool _) ?_
    refine writable_member _ claimed ?_
    refine writable_member _ (writable_bool _) ?_
    refine writable_member _ (verifySuiteReceipt_writable verified) ?_
    exact writable_member _ (writable_bool _) writable_empty
  · cases rest

end Generated

theorem validateSuiteReport_writable {suite : Json} {report : SuiteValidation}
    (reported : validateSuiteReport suite = .ok report) : report.toJson.Writable := by
  rcases bind_eq_ok_iff.mp reported with ⟨fixtures, validated, equal⟩
  cases equal
  have valid := valid_of_validateSuite validated
  refine writable_member _ (writable_bool _) ?_
  refine writable_member _ (writable_string fixtures.suiteVersion.name_encodable) ?_
  exact writable_member _ (writable_few (valid.count.trans (by decide))) writable_empty

end AgentTestbench

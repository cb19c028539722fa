import AgentTestbench.Suite.Report

/-! # Outcome coverage

`suite_coverage` counts, for each rule, how often it passed and failed and which reason
codes it gave. The counts of a row are those of the results of its rule.
-/

namespace AgentTestbench

open AssociationList Fallible

/-- `reachable_reason_codes`. -/
def reachableReasonCodes (kind : RuleKind) : List ReasonCode :=
  let codes := [ReasonCode.satisfied, .missing] ++ (failureReasonByKind kind).toList
  codes.insertionSort fun left right => left.name ≤ right.name

/-- The row of a rule while the results are counted. -/
structure RuleRow where
  ruleId : Text
  path : Text
  kind : RuleKind
  passedCases : Nat
  failedCases : Nat
  reasonCounts : List (ReasonCode × Nat)

/-- The row that `setdefault` starts a rule with. -/
def RuleRow.start (item : RuleResult) : RuleRow :=
  ⟨item.ruleId, item.path, item.kind, 0, 0, []⟩

def RuleRow.observe (row : RuleRow) (item : RuleResult) : RuleRow :=
  { row with
    passedCases := if item.passed then row.passedCases + 1 else row.passedCases
    failedCases := if item.passed then row.failedCases else row.failedCases + 1
    reasonCounts := insert item.reasonCode
      ((lookup item.reasonCode row.reasonCounts).getD 0 + 1) row.reasonCounts }

/-- One round of the inner loop. -/
def observeResult (rows : List (Text × RuleRow)) (item : RuleResult) :
    List (Text × RuleRow) :=
  insert item.ruleId (((lookup item.ruleId rows).getD (.start item)).observe item) rows

structure RuleCoverage extends RuleRow where
  bothOutcomesObserved : Bool
  unexercisedReasonCodes : List ReasonCode

def RuleRow.complete (row : RuleRow) : RuleCoverage :=
  { row with
    bothOutcomesObserved := 0 < row.passedCases && 0 < row.failedCases
    unexercisedReasonCodes := (reachableReasonCodes row.kind).filter
      (· ∉ keys row.reasonCounts) }

structure CoverageReport where
  policyId : Text
  caseCount : Nat
  rules : List RuleCoverage
  rulesWithBothOutcomes : Nat
  unexercisedFailures : List Text
  unexercisedPasses : List Text
  rulesWithAllReasonCodes : Nat
  rulesMissingReasonCodes : List Text
  coverageScope : Text

def coverageRows (report : SuiteReport) : List RuleCoverage :=
  let results := report.cases.flatMap fun case => case.evaluation.ruleResults
  let rows := (results.foldl observeResult []).map Prod.snd
  (rows.insertionSort fun left right => left.ruleId ≤ right.ruleId).map RuleRow.complete

def suiteCoverage (policy : PolicyInput) (suite : Json) :
    Except TestbenchError CoverageReport := do
  let report ← evaluateSuite policy suite
  let rows := coverageRows report
  .ok {
    policyId := report.policyId
    caseCount := report.caseCount
    rules := rows
    rulesWithBothOutcomes := rows.countP fun row => row.bothOutcomesObserved
    unexercisedFailures := (rows.filter fun row => row.failedCases = 0).map fun row => row.ruleId
    unexercisedPasses := (rows.filter fun row => row.passedCases = 0).map fun row => row.ruleId
    rulesWithAllReasonCodes := rows.countP fun row => row.unexercisedReasonCodes = []
    rulesMissingReasonCodes :=
      (rows.filter fun row => row.unexercisedReasonCodes ≠ []).map fun row => row.ruleId
    coverageScope := text "observed fixture outcomes only" }

/-! ## What the rows count -/

/-- A row counts the results of one rule. -/
structure RuleRow.Tallies (row : RuleRow) (items : List RuleResult) : Prop where
  labels : ∃ item ∈ items, row.ruleId = item.ruleId ∧ row.path = item.path ∧
    row.kind = item.kind
  passedCases : row.passedCases = items.countP fun item => item.passed
  failedCases : row.failedCases = items.countP fun item => !item.passed
  reasonCounts : ∀ code, (lookup code row.reasonCounts).getD 0 =
    (items.map RuleResult.reasonCode).count code

private theorem RuleRow.tallies_start (item : RuleResult) :
    ((RuleRow.start item).observe item).Tallies [item] where
  labels := ⟨item, List.mem_cons_self, rfl, rfl, rfl⟩
  passedCases := by cases passed : item.passed <;> simp [start, observe, passed]
  failedCases := by cases passed : item.passed <;> simp [start, observe, passed]
  reasonCounts := by
    intro code
    by_cases same : item.reasonCode = code
    · simp [start, observe, same]
    · simp [start, observe, lookup_insert_of_ne (Ne.symm same), same]

theorem RuleRow.Tallies.observe {row : RuleRow} {items : List RuleResult}
    (tallies : row.Tallies items) (item : RuleResult) :
    (row.observe item).Tallies (items ++ [item]) where
  labels := by
    rcases tallies.labels with ⟨first, member, equal⟩
    exact ⟨first, List.mem_append_left _ member, equal⟩
  passedCases := by
    rw [List.countP_append, ← tallies.passedCases]
    cases passed : item.passed <;> simp [RuleRow.observe, passed]
  failedCases := by
    rw [List.countP_append, ← tallies.failedCases]
    cases passed : item.passed <;> simp [RuleRow.observe, passed]
  reasonCounts := by
    intro code
    rw [List.map_append, List.count_append, ← tallies.reasonCounts]
    by_cases same : item.reasonCode = code
    · subst same
      simp [RuleRow.observe]
    · simp [RuleRow.observe, lookup_insert_of_ne (Ne.symm same), same]

private theorem observeResult_tallies {groups : List (Text × List RuleResult)}
    {rows : List (Text × RuleRow)}
    (tallied : List.Forall₂ (fun entry row => entry.1 = row.1 ∧ row.2.Tallies entry.2) groups rows)
    (item : RuleResult) :
    List.Forall₂ (fun entry row => entry.1 = row.1 ∧ row.2.Tallies entry.2)
      (addToGroup item.ruleId item groups) (observeResult rows item) := by
  induction tallied with
  | nil => exact .cons ⟨rfl, RuleRow.tallies_start item⟩ .nil
  | @cons entry row groups rows first rest induction =>
      rcases entry with ⟨key, items⟩
      rcases row with ⟨other, row⟩
      rcases first with ⟨equal, tallies⟩
      change key = other at equal
      subst equal
      by_cases same : key = item.ruleId
      · subst same
        rw [addToGroup, if_pos rfl, observeResult, lookup_cons_self, Option.getD_some,
          AssociationList.insert,
          if_pos rfl]
        exact .cons ⟨rfl, tallies.observe item⟩ rest
      · rw [addToGroup, if_neg same, observeResult, lookup_cons, if_neg (Ne.symm same),
          AssociationList.insert, if_neg same]
        exact .cons ⟨rfl, tallies⟩ induction

/-- The rows tally the results grouped by rule identifier. -/
theorem foldl_observeResult_tallies (results : List RuleResult) :
    List.Forall₂ (fun entry row => entry.1 = row.1 ∧ row.2.Tallies entry.2)
      (group RuleResult.ruleId results) (results.foldl observeResult []) := by
  induction results using List.reverseRecOn with
  | nil => exact .nil
  | append_singleton results item induction =>
      rw [group, List.foldl_append, List.foldl_append]
      exact observeResult_tallies induction item

/-- A row is kept under the identifier of its rule, and counts its results. -/
theorem tallies_of_mem_foldl {results : List RuleResult} {entry : Text × RuleRow}
    (member : entry ∈ results.foldl observeResult []) :
    entry.2.ruleId = entry.1 ∧
      entry.2.Tallies (results.filter fun item => item.ruleId = entry.2.ruleId) := by
  rcases exists_of_mem_right (foldl_observeResult_tallies _) member with
    ⟨grouped, inGroups, key, tallies⟩
  have items := (mem_group_iff.mp inGroups).1
  have named : entry.2.ruleId = grouped.1 := by
    rcases tallies.labels with ⟨item, inItems, equal, _⟩
    rw [items, List.mem_filter] at inItems
    exact equal.trans (of_decide_eq_true inItems.2)
  refine ⟨named.trans key, ?_⟩
  rwa [named, ← items]

/-- The results of all cases. -/
def SuiteReport.results (report : SuiteReport) : List RuleResult :=
  report.cases.flatMap fun case => case.evaluation.ruleResults

theorem exists_entry_of_mem_coverageRows {report : SuiteReport} {coverage : RuleCoverage}
    (member : coverage ∈ coverageRows report) :
    ∃ entry ∈ report.results.foldl observeResult [], coverage = entry.2.complete := by
  rcases List.mem_map.mp member with ⟨row, sorted, rfl⟩
  rw [List.mem_insertionSort] at sorted
  rcases List.mem_map.mp sorted with ⟨entry, inRows, rfl⟩
  exact ⟨entry, inRows, rfl⟩

theorem coverageRows_tallies {report : SuiteReport} {coverage : RuleCoverage}
    (member : coverage ∈ coverageRows report) :
    ∃ row : RuleRow, coverage = row.complete ∧ row.Tallies
      ((report.cases.flatMap fun case => case.evaluation.ruleResults).filter
        fun item => item.ruleId = row.ruleId) := by
  rcases exists_entry_of_mem_coverageRows member with ⟨entry, inRows, complete⟩
  exact ⟨entry.2, complete, (tallies_of_mem_foldl inRows).2⟩

/-! ## What the rows depend on -/

/-- What a fresh row has and every observation preserves holds of all rows. -/
theorem foldl_observeResult_preserves (property : RuleRow → Prop)
    (fresh : ∀ item, property (RuleRow.start item))
    (observed : ∀ row item, property row → property (row.observe item))
    (results : List RuleResult) :
    ∀ row ∈ results.foldl observeResult [], property row.2 := by
  induction results using List.reverseRecOn with
  | nil => exact List.forall_mem_nil _
  | append_singleton results item induction =>
      rw [List.foldl_append, List.foldl_cons, List.foldl_nil, observeResult]
      intro row member
      rcases eq_or_mem_of_mem_insert member with rfl | old
      · apply observed
        cases found : lookup item.ruleId (results.foldl observeResult []) with
        | none => exact fresh item
        | some earlier => exact induction _ (mem_of_lookup_eq_some found)
      · exact induction row old

private theorem foldl_observeResult_positive (results : List RuleResult) :
    ∀ row ∈ results.foldl observeResult [], ∀ entry ∈ row.2.reasonCounts, 0 < entry.2 := by
  apply foldl_observeResult_preserves (fun row => ∀ entry ∈ row.reasonCounts, 0 < entry.2)
    fun _ => List.forall_mem_nil _
  intro row item positive entry member
  rcases eq_or_mem_of_mem_insert member with rfl | old
  · exact Nat.succ_pos _
  · exact positive entry old

/-- The reasons counted are as many as the results counted. -/
theorem foldl_observeResult_balanced (results : List RuleResult) :
    ∀ row ∈ results.foldl observeResult [],
      (row.2.reasonCounts.map Prod.snd).sum = row.2.passedCases + row.2.failedCases := by
  apply foldl_observeResult_preserves (fun row =>
    (row.reasonCounts.map Prod.snd).sum = row.passedCases + row.failedCases) fun _ => rfl
  intro row item balanced
  simp only [RuleRow.observe, sum_insert_succ, balanced]
  cases item.passed
  · exact Nat.add_assoc _ _ _
  · exact Nat.add_right_comm _ _ _

section Rows

variable {report : SuiteReport} {coverage : RuleCoverage}

/-- The identifiers of the rows ascend. -/
theorem coverageRows_ascending (report : SuiteReport) :
    ((coverageRows report).map fun row => row.ruleId).Pairwise (· < ·) := by
  let table := report.results.foldl observeResult []
  have ids : (coverageRows report).map (fun row => row.ruleId) =
      sortedIds ((table.map Prod.snd).map RuleRow.ruleId) := by
    rw [coverageRows, List.map_map, sortedIds]
    apply List.map_insertionSort
    intros
    exact Iff.rfl
  have keyed : (table.map Prod.snd).map RuleRow.ruleId = keys table := by
    rw [List.map_map]
    exact List.map_congr_left fun entry member => (tallies_of_mem_foldl member).1
  have grouped : List.Forall₂ Eq (keys (group RuleResult.ruleId report.results)) (keys table) := by
    rw [List.forall₂_map_left_iff, List.forall₂_map_right_iff]
    exact (foldl_observeResult_tallies report.results).imp fun _ _ tallied => tallied.1
  rw [List.forall₂_eq_eq_eq] at grouped
  have distinct : (sortedIds (keys table)).Nodup := by
    rw [← grouped, sortedIds, (List.perm_insertionSort _ _).nodup_iff]
    exact group_keys_nodup _ _
  rw [ids, keyed]
  exact (List.sortedLE_insertionSort.sortedLT_of_nodup distinct).pairwise

theorem exists_coverageRow {item : RuleResult} (observed : item ∈ report.results) :
    ∃ coverage ∈ coverageRows report, coverage.ruleId = item.ruleId := by
  have inGroup : item ∈ report.results.filter fun other => other.ruleId = item.ruleId :=
    List.mem_filter.mpr ⟨observed, decide_eq_true rfl⟩
  have grouped := mem_group_iff.mpr ⟨rfl, List.ne_nil_of_mem inGroup⟩
  rcases exists_of_mem_left (foldl_observeResult_tallies report.results) grouped with
    ⟨row, inTable, key, _⟩
  refine ⟨row.2.complete, List.mem_map_of_mem ?_, (tallies_of_mem_foldl inTable).1.trans key.symm⟩
  exact (List.mem_insertionSort _).mpr (List.mem_map_of_mem inTable)

variable (member : coverage ∈ coverageRows report)

include member

theorem coverageRow_labels :
    ∃ item ∈ report.results, coverage.ruleId = item.ruleId ∧ coverage.path = item.path ∧
      coverage.kind = item.kind := by
  rcases coverageRows_tallies member with ⟨row, rfl, tallies⟩
  rcases tallies.labels with ⟨item, inItems, labels⟩
  exact ⟨item, List.mem_of_mem_filter inItems, labels⟩

theorem passedCases_eq_zero_iff :
    coverage.passedCases = 0 ↔
      ∀ item ∈ report.results, item.ruleId = coverage.ruleId → item.passed = false := by
  rcases coverageRows_tallies member with ⟨row, rfl, tallies⟩
  change row.passedCases = 0 ↔ ∀ item ∈ report.results, item.ruleId = row.ruleId → _
  rw [tallies.passedCases, List.countP_eq_zero]
  simp only [List.mem_filter, decide_eq_true_eq, and_imp, Bool.not_eq_true]
  exact Iff.rfl

theorem failedCases_eq_zero_iff :
    coverage.failedCases = 0 ↔
      ∀ item ∈ report.results, item.ruleId = coverage.ruleId → item.passed = true := by
  rcases coverageRows_tallies member with ⟨row, rfl, tallies⟩
  change row.failedCases = 0 ↔ ∀ item ∈ report.results, item.ruleId = row.ruleId → _
  rw [tallies.failedCases, List.countP_eq_zero]
  simp only [List.mem_filter, decide_eq_true_eq, and_imp, Bool.not_eq_true', Bool.not_eq_false]
  exact Iff.rfl

theorem sum_reasonCounts :
    (coverage.reasonCounts.map Prod.snd).sum = coverage.passedCases + coverage.failedCases := by
  rcases exists_entry_of_mem_coverageRows member with ⟨entry, inTable, rfl⟩
  exact foldl_observeResult_balanced _ entry inTable

/-- A reason code is counted exactly when a result of the rule gives it. -/
theorem mem_reasonCounts_iff {code : ReasonCode} :
    code ∈ keys coverage.reasonCounts ↔
      ∃ item ∈ report.results, item.ruleId = coverage.ruleId ∧ item.reasonCode = code := by
  rcases exists_entry_of_mem_coverageRows member with ⟨entry, inTable, rfl⟩
  have tallies := (tallies_of_mem_foldl inTable).2
  have positive := foldl_observeResult_positive _ entry inTable
  have counted : code ∈ keys entry.2.reasonCounts ↔
      0 < (lookup code entry.2.reasonCounts).getD 0 := by
    rw [← lookup_isSome_iff_mem_keys]
    cases found : lookup code entry.2.reasonCounts with
    | none => simp
    | some count => simpa using positive _ (mem_of_lookup_eq_some found)
  change code ∈ keys entry.2.reasonCounts ↔
    ∃ item ∈ report.results, item.ruleId = entry.2.ruleId ∧ _
  rw [counted, tallies.reasonCounts, List.count_pos_iff, List.mem_map]
  simp only [List.mem_filter, decide_eq_true_eq, and_assoc]

end Rows

section Congruence

variable {left right : SuiteReport} (same : ∀ item, item ∈ left.results ↔ item ∈ right.results)

include same

/-- The identifiers of the rows with a property that depends on the results only. -/
theorem coverageIds_congr {property : RuleCoverage → Bool}
    (alike : ∀ first ∈ coverageRows left, ∀ second ∈ coverageRows right,
      first.ruleId = second.ruleId → property first = property second) :
    ((coverageRows left).filter property).map (fun row => row.ruleId) =
      ((coverageRows right).filter property).map fun row => row.ruleId := by
  have ascending := fun report : SuiteReport => (coverageRows_ascending report).sublist
    ((List.filter_sublist (p := property) (l := coverageRows report)).map fun row => row.ruleId)
  apply (ascending left).eq_of_mem_iff (ascending right)
  intro ruleId
  simp only [List.mem_map, List.mem_filter]
  constructor
  · intro listed
    rcases listed with ⟨first, ⟨member, holds⟩, rfl⟩
    rcases coverageRow_labels member with ⟨item, observed, named, _⟩
    rcases exists_coverageRow ((same item).mp observed) with ⟨second, secondMember, equal⟩
    have equalIds := named.trans equal.symm
    exact ⟨second, ⟨secondMember, alike first member second secondMember equalIds ▸ holds⟩,
      equalIds.symm⟩
  · intro listed
    rcases listed with ⟨second, ⟨member, holds⟩, rfl⟩
    rcases coverageRow_labels member with ⟨item, observed, named, _⟩
    rcases exists_coverageRow ((same item).mpr observed) with ⟨first, firstMember, equal⟩
    have equalIds := equal.trans named.symm
    exact ⟨first, ⟨firstMember, (alike first firstMember second member equalIds).trans holds⟩,
      equalIds⟩

/-- Reports with the same results leave the same rules unexercised. -/
theorem unexercised_congr
    (kinds : ∀ first ∈ left.results, ∀ second ∈ left.results, first.ruleId = second.ruleId →
      first.kind = second.kind) :
    ∀ first ∈ coverageRows left, ∀ second ∈ coverageRows right,
      first.ruleId = second.ruleId →
        (first.passedCases = 0 ↔ second.passedCases = 0) ∧
        (first.failedCases = 0 ↔ second.failedCases = 0) ∧
        first.unexercisedReasonCodes = second.unexercisedReasonCodes := by
  intro first firstMember second secondMember named
  refine ⟨?_, ?_, ?_⟩
  · rw [passedCases_eq_zero_iff firstMember, passedCases_eq_zero_iff secondMember, named]
    simp only [same]
  · rw [failedCases_eq_zero_iff firstMember, failedCases_eq_zero_iff secondMember, named]
    simp only [same]
  · have kind : first.kind = second.kind := by
      rcases coverageRow_labels firstMember with ⟨item, observed, itemNamed, _, itemKind⟩
      rcases coverageRow_labels secondMember with
        ⟨other, otherObserved, otherNamed, _, otherKind⟩
      rw [itemKind, otherKind]
      apply kinds item observed other ((same other).mpr otherObserved)
      rw [← itemNamed, ← otherNamed, named]
    have codes : ∀ code, code ∈ keys first.reasonCounts ↔ code ∈ keys second.reasonCounts := by
      intro code
      rw [mem_reasonCounts_iff firstMember, mem_reasonCounts_iff secondMember, named]
      simp only [same]
    rcases List.mem_map.mp firstMember with ⟨firstRow, _, rfl⟩
    rcases List.mem_map.mp secondMember with ⟨secondRow, _, rfl⟩
    have rowKind : firstRow.kind = secondRow.kind := kind
    change (reachableReasonCodes firstRow.kind).filter _ =
      (reachableReasonCodes secondRow.kind).filter _
    rw [rowKind]
    apply List.filter_congr
    intro code _
    exact decide_eq_decide.mpr (not_congr (codes code))

end Congruence

/-! ## Complete coverage -/

theorem mem_reachableReasonCodes {kind : RuleKind} {code : ReasonCode} :
    code ∈ reachableReasonCodes kind ↔
      code = .satisfied ∨ code = .missing ∨ failureReasonByKind kind = some code := by
  rw [reachableReasonCodes, List.mem_insertionSort]
  simp

variable {policy : Policy} {suite : Suite}

/-- Some case of the suite makes the rule give the reason code. -/
def Suite.Exercises (suite : Suite) (rule : Rule) (code : ReasonCode) : Prop :=
  ∃ case ∈ suite.cases, (evaluateRule rule (.object case.response)).reasonCode = code

theorem evaluateRule_of_missing {rule : Rule} {response : Json}
    (absent : getField response rule.path = none) :
    (evaluateRule rule response).reasonCode = .missing := by
  rw [evaluateRule, evaluateCompiledRule]
  simp only [absent]

theorem evaluateRule_reasonCode_satisfied_iff (rule : Rule) (response : Json) :
    (evaluateRule rule response).reasonCode = .satisfied ↔
      (evaluateRule rule response).passed = true := by
  rw [evaluateRule, evaluateCompiledRule_reasonCode (.inl rfl)]
  split_ifs with passed <;> simp [passed, rule.kind.rejection_ne_satisfied]

/-- The rows of a suite report are the evaluations of its cases. -/
theorem mem_suiteReport_results (valid : policy.Valid) {item : RuleResult} :
    item ∈ ((suiteReport policy suite).cases.flatMap fun case => case.evaluation.ruleResults) ↔
      ∃ case ∈ suite.cases, ∃ rule ∈ policy.rules,
        evaluateRule rule (.object case.response) = item := by
  have results : ∀ case : SuiteCase,
      (caseReport policy suite.suiteVersion case).evaluation.ruleResults =
        policy.rules.map fun rule => evaluateRule rule (.object case.response) := by
    intro case
    rw [← valid.evaluate_ruleResults]
    cases suite.suiteVersion <;> rfl
  simp only [suiteReport, List.flatMap_map, results, List.mem_flatMap, List.mem_map]

/-- Each row of the coverage of a valid suite belongs to a declared rule. -/
theorem coverageRows_rule (valid : policy.Valid) {coverage : RuleCoverage}
    (member : coverage ∈ coverageRows (suiteReport policy suite)) :
    ∃ rule ∈ policy.rules, coverage.kind = rule.kind ∧
      ∀ code, suite.Exercises rule code → code ∈ keys coverage.reasonCounts ∧
        (code = .satisfied → 0 < coverage.passedCases) ∧
        (code ≠ .satisfied → 0 < coverage.failedCases) := by
  rcases coverageRows_tallies member with ⟨row, rfl, tallies⟩
  rcases tallies.labels with ⟨item, inItems, _, _, kind⟩
  rw [List.mem_filter, mem_suiteReport_results valid] at inItems
  rcases inItems with ⟨⟨_, _, rule, declared, rfl⟩, named⟩
  refine ⟨rule, declared, kind.trans (evaluateCompiledRule_labels (.inl rfl) _).2.1, ?_⟩
  intro code exercised
  rcases exercised with ⟨case, inSuite, rfl⟩
  let item := evaluateRule rule (.object case.response)
  have observed : item ∈ ((suiteReport policy suite).cases.flatMap fun case =>
      case.evaluation.ruleResults).filter fun item => item.ruleId = row.ruleId := by
    rw [List.mem_filter, mem_suiteReport_results valid]
    refine ⟨⟨case, inSuite, rule, declared, rfl⟩, ?_⟩
    rw [evaluateRule_ruleId] at named ⊢
    exact named
  have reason := evaluateRule_reasonCode_satisfied_iff rule (.object case.response)
  refine ⟨?_, fun satisfied => ?_, fun unsatisfied => ?_⟩
  · have counted : 0 < (lookup item.reasonCode row.reasonCounts).getD 0 := by
      rw [tallies.reasonCounts, List.count_pos_iff]
      exact List.mem_map_of_mem observed
    apply lookup_isSome_iff_mem_keys.mp
    change (lookup item.reasonCode row.reasonCounts).isSome
    cases found : lookup item.reasonCode row.reasonCounts with
    | none => simp [found] at counted
    | some count => rfl
  · change 0 < row.passedCases
    rw [tallies.passedCases, List.countP_pos_iff]
    exact ⟨item, observed, reason.mp satisfied⟩
  · change 0 < row.failedCases
    rw [tallies.failedCases, List.countP_pos_iff]
    refine ⟨item, observed, ?_⟩
    rw [Bool.not_eq_true', ← Bool.not_eq_true]
    exact fun passed => unsatisfied (reason.mpr passed)

/-- A suite that exercises every reachable reason code leaves nothing uncovered. -/
theorem suiteCoverage_complete {input : PolicyInput} {raw : Json}
    (validated : validatePolicy input = .ok policy)
    (suiteValidated : validateSuite raw = .ok suite)
    (exercised : ∀ rule ∈ policy.rules, ∀ code ∈ reachableReasonCodes rule.kind,
      suite.Exercises rule code) :
    ∃ coverage, suiteCoverage input raw = .ok coverage ∧ coverage.unexercisedPasses = [] ∧
      coverage.unexercisedFailures = [] ∧ coverage.rulesMissingReasonCodes = [] := by
  have valid := valid_of_validatePolicy validated
  rw [suiteCoverage, evaluateSuite_eq validated suiteValidated, ok_bind]
  refine ⟨_, rfl, ?_, ?_, ?_⟩
  all_goals
    rw [List.map_eq_nil_iff, List.filter_eq_nil_iff]
    intro coverage member
    rcases coverageRows_rule valid member with ⟨rule, declared, kind, seen⟩
    have each := fun code reachable => seen code (exercised rule declared code reachable)
  · have passed := (each .satisfied (mem_reachableReasonCodes.mpr (.inl rfl))).2.1 rfl
    simpa using passed.ne'
  · have failed := (each .missing (mem_reachableReasonCodes.mpr (.inr (.inl rfl)))).2.2 nofun
    simpa using failed.ne'
  · have complete : coverage.unexercisedReasonCodes = [] := by
      rcases coverageRows_tallies member with ⟨row, rfl, _⟩
      apply List.filter_eq_nil_iff.mpr
      intro code reachable
      rw [show row.kind = rule.kind from kind] at reachable
      rw [decide_eq_true_eq, not_not]
      exact (each code reachable).1
    simp [complete]

end AgentTestbench

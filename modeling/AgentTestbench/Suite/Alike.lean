import AgentTestbench.Policy.Alike
import AgentTestbench.Suite.Report

/-! # Alike suites

A suite read from a dictionary has the same JSON form up to member order. Suites with the
same JSON form evaluate alike.
-/

namespace AgentTestbench

open AssociationList Fallible

/-! ## Round trip -/

private theorem Assertion.toJson_same {raw : Json} {assertion : Assertion}
    (read : assertionOf? raw = some assertion) (formed : raw.WellFormed) :
    assertion.toJson.Same raw := by
  rcases assertionOf?_eq_some read with ⟨members, rfl, exactKeys, passedField, nameField⟩
  have present : ∀ key ∈ [text "passed", text "reason_code"],
      lookup key members = some (field members key) :=
    fun key expected => lookup_of_field (exactKeys.2 key expected)
  apply Json.same_object_of_found
  · change [text "passed", text "reason_code"].Nodup
    decide
  · exact (Json.wellFormed_object_iff.mp formed).1
  · exact exactKeys.1
  · rw [List.forall_mem_cons, List.forall_mem_singleton]
    exact ⟨⟨_, present _ (by simp), passedField ▸ Json.Same.refl _⟩, _, present _ (by simp),
      nameField ▸ Json.Same.refl _⟩

theorem keys_of_validateAssertions {entries : List (Text × Json)}
    {assertions : List (Text × Assertion)}
    (validated : validateAssertions (.object entries) = .ok assertions) :
    keys assertions = keys entries := by
  rcases validateAssertions_eq_ok_iff.mp validated with ⟨_, equal, each⟩
  cases equal
  have named : List.Forall₂ (fun entry result => entry.1 = result.1) entries assertions :=
    each.imp fun _ _ read => read.2.1
  rw [keys, keys, ← List.forall₂_eq_eq_eq, List.forall₂_map_left_iff, List.forall₂_map_right_iff]
  exact named.flip.imp fun _ _ equal => equal.symm

private theorem assertionsJson_same {entries : List (Text × Json)}
    {assertions : List (Text × Assertion)}
    (validated : validateAssertions (.object entries) = .ok assertions)
    (formed : (Json.object entries).WellFormed) :
    (assertionsJson assertions).Same (.object entries) := by
  have sameKeys := keys_of_validateAssertions validated
  rw [Json.wellFormed_object_iff] at formed
  have listedKeys : keys (assertions.map fun entry => (entry.1, entry.2.toJson)) =
      keys entries := by
    rw [← sameKeys, keys, List.map_map]
    rfl
  rcases validateAssertions_eq_ok_iff.mp validated with ⟨_, equal, each⟩
  cases equal
  apply Json.same_object_of_found
  · rw [listedKeys]
    exact formed.1
  · exact formed.1
  · intro key member
    rw [listedKeys]
    exact member
  · rw [List.forall_mem_map]
    intro entry member
    rcases exists_of_mem_right each member with ⟨source, inEntries, _, named, read⟩
    refine ⟨source.2, ?_, Assertion.toJson_same read (formed.2 source inEntries)⟩
    rw [← named]
    exact lookup_eq_some_of_mem formed.1 inEntries

/-- No assertion of a case is about the same rule as another. -/
def SuiteCase.Distinct (case : SuiteCase) : Prop :=
  (keys case.assertions).Nodup

theorem SuiteCase.ReadFrom.distinct {version : SuiteVersion} {raw : Json} {case : SuiteCase}
    (read : case.ReadFrom version raw) (formed : raw.WellFormed) : case.Distinct := by
  rcases read.object with ⟨members, rfl, _, _, _, _, _, assertionsRead⟩
  rw [SuiteCase.Distinct, SuiteCase.assertions]
  cases rules : case.expectedRules with
  | none => exact List.nodup_nil
  | some assertions =>
      rw [rules] at assertionsRead
      rcases assertionsRead with ⟨expected, found, validated⟩
      have expectedFormed := (Json.wellFormed_object_iff.mp formed).2 _
        (mem_of_lookup_eq_some found)
      rcases validateAssertions_eq_ok_iff.mp validated with ⟨entries, rfl, _⟩
      rw [Option.getD_some, keys_of_validateAssertions validated]
      exact (Json.wellFormed_object_iff.mp expectedFormed).1

theorem SuiteCase.keys_members_nodup (case : SuiteCase) : (keys case.members).Nodup := by
  rw [SuiteCase.members]
  cases case.expectedRules with
  | none =>
      change [text "case_id", text "response", text "expected_passed"].Nodup
      decide
  | some assertions =>
      change [text "case_id", text "response", text "expected_passed",
        text "expected_rules"].Nodup
      decide

theorem SuiteCase.ReadFrom.same {version : SuiteVersion} {raw : Json} {case : SuiteCase}
    (read : case.ReadFrom version raw) (formed : raw.WellFormed) :
    (Json.object case.members).Same raw := by
  rcases read.object with ⟨members, rfl, required, allowed, idField, responseField, passedField,
    assertionsRead⟩
  rw [Json.wellFormed_object_iff] at formed
  have present : ∀ key value, key ∈ requiredCaseKeys → field members key = value →
      ∃ other, lookup key members = some other ∧ value.Same other := by
    intro key value expected equal
    exact ⟨_, lookup_of_field (required key expected), equal ▸ Json.Same.refl _⟩
  have first : ∀ member ∈ [(text "case_id", Json.string case.caseId),
      (text "response", .object case.response),
      (text "expected_passed", .bool case.expectedPassed)],
      ∃ other, lookup member.1 members = some other ∧ member.2.Same other := by
    rw [List.forall_mem_cons, List.forall_mem_cons, List.forall_mem_singleton]
    exact ⟨present _ _ (by simp [requiredCaseKeys]) idField,
      present _ _ (by simp [requiredCaseKeys]) responseField,
      present _ _ (by simp [requiredCaseKeys]) passedField⟩
  have known : ∀ key ∈ keys members, key ∈ requiredCaseKeys ∨ key = text "expected_rules" := by
    intro key member
    have listed := allowed key member
    cases version with
    | version1_0 => exact .inl listed
    | version1_1 =>
        rw [SuiteVersion.allowedCaseKeys, List.mem_append, List.mem_singleton] at listed
        exact listed
  apply Json.same_object_of_found case.keys_members_nodup formed.1
  · intro key member
    rcases known key member with fixed | rules
    · rw [SuiteCase.members, keys, List.map_append]
      exact List.mem_append_left _ fixed
    · subst rules
      rw [SuiteCase.members]
      cases shape : case.expectedRules with
      | none =>
          rw [shape] at assertionsRead
          exact absurd member (lookup_eq_none_iff.mp assertionsRead)
      | some assertions =>
          rw [keys, List.map_append]
          exact List.mem_append_right _ (List.mem_singleton_self _)
  · rw [SuiteCase.members, List.forall_mem_append]
    refine ⟨first, ?_⟩
    cases shape : case.expectedRules with
    | none => exact List.forall_mem_nil _
    | some assertions =>
        rw [shape] at assertionsRead
        rcases assertionsRead with ⟨expected, found, validated⟩
        rcases validateAssertions_eq_ok_iff.mp validated with ⟨entries, rfl, _⟩
        rw [List.forall_mem_singleton]
        exact ⟨_, found, assertionsJson_same validated
          (formed.2 _ (mem_of_lookup_eq_some found))⟩

/-- The JSON form of a validated suite is the suite, up to member order. -/
theorem Suite.ReadFrom.same {raw : Json} {suite : Suite} (read : suite.ReadFrom raw)
    (formed : raw.WellFormed) :
    suite.toJson.Same raw ∧ ∀ case ∈ suite.cases, case.Distinct := by
  rcases read.object with ⟨members, rawCases, rfl, exactKeys, versionField, casesField, casesRead⟩
  rw [Json.wellFormed_object_iff] at formed
  have present : ∀ key ∈ [text "suite_version", text "cases"],
      lookup key members = some (field members key) :=
    fun key expected => lookup_of_field (exactKeys.2 key expected)
  have casesFormed := formed.2 _ (mem_of_lookup_eq_some (present (text "cases") (by simp)))
  rw [casesField, Json.wellFormed_array_iff] at casesFormed
  constructor
  · have each : List.Forall₂ (fun case rawCase => (Json.object (SuiteCase.members case)).Same
        rawCase) suite.cases rawCases := by
      have paired := casesRead.flip
      rw [List.forall₂_iff_get] at paired ⊢
      refine ⟨paired.1, fun index left right => ?_⟩
      exact (paired.2 index left right).same (casesFormed _ (List.get_mem _ _))
    apply Json.same_object_of_found
    · change [text "suite_version", text "cases"].Nodup
      decide
    · exact formed.1
    · exact exactKeys.1
    · rw [List.forall_mem_cons, List.forall_mem_singleton]
      refine ⟨⟨_, present _ (by simp), versionField ▸ Json.Same.refl _⟩, _, present _ (by simp),
        ?_⟩
      rw [casesField, Json.same_array_iff, List.forall₂_map_left_iff]
      exact each
  · intro case member
    rcases exists_of_mem_right casesRead member with ⟨rawCase, inRaw, caseRead⟩
    exact caseRead.distinct (casesFormed rawCase inRaw)

/-! ## Alike cases -/

/-- Cases that differ at most in member order. -/
structure SuiteCase.Alike (left right : SuiteCase) : Prop where
  caseId : left.caseId = right.caseId
  response : (Json.object left.response).Same (.object right.response)
  expectedPassed : left.expectedPassed = right.expectedPassed
  assertions : ∀ ruleId, lookup ruleId left.assertions = lookup ruleId right.assertions

private theorem Assertion.toJson_injective {left right : Assertion}
    (same : left.toJson.Same right.toJson) : left = right := by
  have passed := Json.bool.inj (Option.some.inj (same.member? (text "passed")))
  have named := Json.string.inj (Option.some.inj (same.member? (text "reason_code")))
  exact Assertion.ext passed (ReasonCode.name_injective named)

private theorem lookup_assertions_of_same {left right : List (Text × Assertion)}
    (same : (assertionsJson left).Same (assertionsJson right)) (ruleId : Text) :
    lookup ruleId left = lookup ruleId right := by
  have found := same.member? ruleId
  rw [assertionsJson, assertionsJson, Json.member?_object, Json.member?_object, lookup_map_value,
    lookup_map_value, Option.map_map, Option.map_map] at found
  apply Option.map_injective _ found
  intro first second equal
  exact Assertion.toJson_injective equal

theorem SuiteCase.alike_of_same {left right : SuiteCase}
    (same : (Json.object left.members).Same (.object right.members)) : left.Alike right := by
  rcases left with ⟨leftId, leftResponse, leftExpected, leftRules⟩
  rcases right with ⟨rightId, rightResponse, rightExpected, rightRules⟩
  have rules := same.member? (text "expected_rules")
  refine ⟨Json.string.inj (Option.some.inj (same.member? (text "case_id"))),
    Option.some.inj (same.member? (text "response")),
    Json.bool.inj (Option.some.inj (same.member? (text "expected_passed"))), ?_⟩
  cases leftRules with
  | none =>
      cases rightRules with
      | none => exact fun _ => rfl
      | some others => cases rules
  | some assertions =>
      cases rightRules with
      | none => cases rules
      | some others => exact lookup_assertions_of_same (Option.some.inj rules)

/-- Suites with the same JSON form have one version and the same cases in order. -/
theorem Suite.same_iff {left right : Suite} :
    left.toJson.Same right.toJson ↔ left.suiteVersion = right.suiteVersion ∧
      List.Forall₂ (fun case other => (Json.object (SuiteCase.members case)).Same
        (.object other.members)) left.cases right.cases := by
  have distinct : ∀ version caseList : Json,
      (keys [(text "suite_version", version), (text "cases", caseList)]).Nodup := by
    intro version caseList
    change [text "suite_version", text "cases"].Nodup
    decide
  have caseList : (Json.array (left.cases.map fun case => Json.object case.members)).Same
      (.array (right.cases.map fun case => Json.object case.members)) ↔
      List.Forall₂ (fun case other => (Json.object (SuiteCase.members case)).Same
        (.object other.members)) left.cases right.cases := by
    rw [Json.same_array_iff, List.forall₂_map_left_iff, List.forall₂_map_right_iff]
  constructor
  · intro same
    refine ⟨?_, caseList.mp (Option.some.inj (same.member? (text "cases")))⟩
    have named := Json.string.inj (Option.some.inj (same.member? (text "suite_version")))
    revert named
    cases left.suiteVersion <;> cases right.suiteVersion <;>
      first | exact fun _ => rfl | decide
  · intro same
    rw [Suite.toJson, Suite.toJson, same.1]
    apply Json.same_object_of_found (distinct _ _) (distinct _ _)
    · exact fun _ => id
    · rw [List.forall_mem_cons, List.forall_mem_singleton]
      exact ⟨⟨_, rfl, Json.Same.refl _⟩, _, rfl, caseList.mpr same.2⟩

theorem Suite.alike_of_same {left right : Suite} (same : left.toJson.Same right.toJson) :
    left.suiteVersion = right.suiteVersion ∧
      List.Forall₂ SuiteCase.Alike left.cases right.cases :=
  ⟨(Suite.same_iff.mp same).1,
    (Suite.same_iff.mp same).2.imp fun _ _ => SuiteCase.alike_of_same⟩

/-! ## Alike reports -/

/-- Alike cases make the same assertions. -/
theorem SuiteCase.Alike.mem_assertions_iff {left right : SuiteCase} (alike : left.Alike right)
    (leftDistinct : left.Distinct) (rightDistinct : right.Distinct)
    (entry : Text × Assertion) : entry ∈ left.assertions ↔ entry ∈ right.assertions := by
  rcases entry with ⟨ruleId, assertion⟩
  constructor
  · intro member
    exact mem_of_lookup_eq_some ((alike.assertions ruleId).symm.trans
      (lookup_eq_some_of_mem leftDistinct member))
  · intro member
    exact mem_of_lookup_eq_some ((alike.assertions ruleId).trans
      (lookup_eq_some_of_mem rightDistinct member))

theorem SuiteCase.Alike.assertionMismatches_eq {left right : SuiteCase}
    (alike : left.Alike right) (leftDistinct : left.Distinct) (rightDistinct : right.Distinct)
    (results : List RuleResult) :
    assertionMismatches left.assertions results =
      assertionMismatches right.assertions results := by
  have perm : left.assertions.Perm right.assertions := (List.perm_ext_iff_of_nodup
    (List.Nodup.of_map Prod.fst leftDistinct) (List.Nodup.of_map Prod.fst rightDistinct)).mpr
    (alike.mem_assertions_iff leftDistinct rightDistinct)
  rw [assertionMismatches, assertionMismatches]
  exact sortedIds_eq_of_perm ((perm.filter _).map Prod.fst)

section Rows

variable {left right : Policy} (leftValid : left.Valid) (rightValid : right.Valid)
  (named : left.policyId = right.policyId) (alike : List.Forall₂ Rule.Alike left.rules right.rules)

include leftValid rightValid named alike

private theorem caseReport_eq_of_alike {version : SuiteVersion} {leftCase rightCase : SuiteCase}
    (same : leftCase.Alike rightCase) (leftDistinct : leftCase.Distinct)
    (rightDistinct : rightCase.Distinct) :
    caseReport left version leftCase = caseReport right version rightCase := by
  have evaluated : left.evaluate (.object leftCase.response) =
      right.evaluate (.object rightCase.response) :=
    evaluateChecked_eq_of_alike leftValid rightValid named alike same.response
  simp only [caseReport.eq_def, evaluated, same.caseId, same.expectedPassed,
    same.assertionMismatches_eq leftDistinct rightDistinct]

/-- Alike policies report alike on alike suites. -/
theorem suiteReport_eq_of_alike {leftSuite rightSuite : Suite}
    (version : leftSuite.suiteVersion = rightSuite.suiteVersion)
    (caseList : List.Forall₂ SuiteCase.Alike leftSuite.cases rightSuite.cases)
    (leftDistinct : ∀ case ∈ leftSuite.cases, case.Distinct)
    (rightDistinct : ∀ case ∈ rightSuite.cases, case.Distinct) :
    suiteReport left leftSuite = suiteReport right rightSuite := by
  have rows : leftSuite.cases.map (caseReport left leftSuite.suiteVersion) =
      rightSuite.cases.map (caseReport right rightSuite.suiteVersion) := by
    rw [← List.forall₂_eq_eq_eq, List.forall₂_map_left_iff, List.forall₂_map_right_iff, version]
    rw [List.forall₂_iff_get] at caseList ⊢
    refine ⟨caseList.1, fun index inLeft inRight => ?_⟩
    exact caseReport_eq_of_alike leftValid rightValid named alike (caseList.2 index inLeft inRight)
      (leftDistinct _ (List.get_mem _ _)) (rightDistinct _ (List.get_mem _ _))
  rw [suiteReport, suiteReport, rows, version, named]

end Rows

end AgentTestbench

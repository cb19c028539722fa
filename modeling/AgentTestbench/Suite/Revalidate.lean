import AgentTestbench.Suite.Evaluate

/-! # Valid suites

The relation between an accepted value and the suite read off it, which holds between
a valid suite and its own JSON form.
-/

namespace AgentTestbench

open AssociationList Fallible

/-! ## Assertions -/

theorem mem_reasonCodes (code : ReasonCode) : code ∈ reasonCodes := by
  cases code <;> decide

theorem ReasonCode.name_injective : Function.Injective ReasonCode.name :=
  injective_of_listed mem_reasonCodes (by decide)

theorem ReasonCode.ofName?_eq_some_iff {name : Text} {reasonCode : ReasonCode} :
    ReasonCode.ofName? name = some reasonCode ↔ name = reasonCode.name := by
  rw [ofName?, find?_name_eq_some_iff name_injective]
  exact (and_iff_right (mem_reasonCodes reasonCode)).trans ⟨Eq.symm, Eq.symm⟩

/-- An assertion and the object it is read from. -/
theorem assertionOf?_eq_some {raw : Json} {assertion : Assertion}
    (read : assertionOf? raw = some assertion) :
    ∃ members, raw = .object members ∧
      HasExactKeys members [text "passed", text "reason_code"] ∧
      field members (text "passed") = .bool assertion.passed ∧
      field members (text "reason_code") = .string assertion.reasonCode.name := by
  cases raw with
  | object members =>
      rw [assertionOf?] at read
      split_ifs at read with exactKeys
      split at read
      · rename_i passed name passedField nameField
        rcases Option.bind_eq_some_iff.mp read with ⟨reasonCode, known, read⟩
        split_ifs at read with consistent
        cases read
        rw [ReasonCode.ofName?_eq_some_iff] at known
        exact ⟨members, rfl, exactKeys, passedField, known ▸ nameField⟩
      · cases read
  | _ => cases read

theorem assertionOf?_toJson (assertion : Assertion) :
    assertionOf? assertion.toJson = some assertion := by
  have exactKeys : HasExactKeys [(text "passed", .bool assertion.passed),
      (text "reason_code", .string assertion.reasonCode.name)]
      [text "passed", text "reason_code"] :=
    ⟨fun _ => id, fun _ => id⟩
  rw [Assertion.toJson, assertionOf?, if_pos exactKeys]
  have known : ReasonCode.ofName? assertion.reasonCode.name = some assertion.reasonCode :=
    ReasonCode.ofName?_eq_some_iff.mpr rfl
  change (ReasonCode.ofName? assertion.reasonCode.name).bind _ = _
  rw [known, Option.bind_some, dif_pos assertion.consistent]

private theorem Assertion.toJson_within {raw : Json} {assertion : Assertion}
    (read : assertionOf? raw = some assertion) : assertion.toJson.Within raw := by
  rcases assertionOf?_eq_some read with ⟨members, rfl, exactKeys, passedField, nameField⟩
  apply Json.within_object
  · change [text "passed", text "reason_code"].Nodup
    decide
  · rw [List.forall_mem_cons, List.forall_mem_singleton]
    have present : ∀ key ∈ [text "passed", text "reason_code"],
        lookup key members = some (field members key) :=
      fun key expected => lookup_of_field (exactKeys.2 key expected)
    exact ⟨⟨_, present _ (by simp), passedField ▸ Json.Within.refl _⟩, _, present _ (by simp),
      nameField ▸ Json.Within.refl _⟩

theorem validateAssertion_eq_ok_iff {entry : Text × Json} {result : Text × Assertion} :
    validateAssertion entry = .ok result ↔
      isIdentifier entry.1 = true ∧ entry.1 = result.1 ∧ assertionOf? entry.2 = some result.2 := by
  rcases result with ⟨identifier, assertion⟩
  simp only [validateAssertion, bind_eq_ok_iff, require_eq_ok_iff]
  cases assertionOf? entry.2 with
  | none => simp
  | some other => simp

theorem validateAssertions_eq_ok_iff {expected : Json} {assertions : List (Text × Assertion)} :
    validateAssertions expected = .ok assertions ↔
      ∃ entries, expected = .object entries ∧
        List.Forall₂ (fun entry result => isIdentifier entry.1 = true ∧ entry.1 = result.1 ∧
          assertionOf? entry.2 = some result.2) entries assertions := by
  cases expected with
  | object entries =>
      simp only [validateAssertions, forEach_eq_ok_iff, validateAssertion_eq_ok_iff,
        Json.object.injEq, exists_eq_left']
  | _ => simp [validateAssertions]

private theorem validateAssertions_toJson {assertions : List (Text × Assertion)}
    (identifiers : ∀ entry ∈ assertions, isIdentifier entry.1 = true) :
    validateAssertions (assertionsJson assertions) = .ok assertions := by
  rw [validateAssertions_eq_ok_iff]
  refine ⟨_, rfl, ?_⟩
  rw [List.forall₂_map_left_iff, List.forall₂_same]
  intro entry member
  exact ⟨identifiers entry member, rfl, assertionOf?_toJson entry.2⟩

/-! ## Cases -/

/-- The assertions of a case and the member they are read from. -/
def AssertionsReadFrom (expected : Option Json) : Option (List (Text × Assertion)) → Prop
  | none => expected = none
  | some assertions => ∃ raw, expected = some raw ∧ validateAssertions raw = .ok assertions

/-- The JSON object a case was read from. -/
structure SuiteCase.ReadFrom (version : SuiteVersion) (raw : Json) (case : SuiteCase) :
    Prop where
  identifier : isIdentifier case.caseId = true
  object : ∃ members, raw = .object members ∧
    (∀ key ∈ requiredCaseKeys, key ∈ keys members) ∧
    (∀ key ∈ keys members, key ∈ version.allowedCaseKeys) ∧
    field members (text "case_id") = .string case.caseId ∧
    field members (text "response") = .object case.response ∧
    field members (text "expected_passed") = .bool case.expectedPassed ∧
    AssertionsReadFrom (lookup (text "expected_rules") members) case.expectedRules

private theorem validateCase_eq_ok_iff {version : SuiteVersion} {seen : List Text} {raw : Json}
    {case : SuiteCase} :
    validateCase version seen raw = .ok case ↔
      case.ReadFrom version raw ∧ case.caseId ∉ seen := by
  cases raw with
  | object members =>
      simp only [validateCase, bind_eq_ok_iff, require_eq_ok_iff]
      constructor
      · intro accepted
        rcases accepted with ⟨_, keysFit, accepted⟩
        split at accepted
        · rename_i caseId idField
          simp only [bind_eq_ok_iff, require_eq_ok_iff] at accepted
          rcases accepted with ⟨_, ⟨identifier, fresh⟩, accepted⟩
          split at accepted
          · rename_i response expectedPassed responseField passedField
            split at accepted
            · rename_i absent
              cases accepted
              exact ⟨⟨identifier, members, rfl, keysFit.1, keysFit.2, idField, responseField,
                passedField, absent⟩, fresh⟩
            · rename_i expected found
              simp only [bind_eq_ok_iff, Except.ok.injEq] at accepted
              rcases accepted with ⟨assertions, validated, rfl⟩
              exact ⟨⟨identifier, members, rfl, keysFit.1, keysFit.2, idField, responseField,
                passedField, expected, found, validated⟩, fresh⟩
          · cases accepted
        · cases accepted
      · intro accepted
        rcases accepted with ⟨⟨identifier, _, equal, required, allowed, idField, responseField,
          passedField, read⟩, fresh⟩
        cases equal
        refine ⟨(), ⟨required, allowed⟩, ?_⟩
        rw [idField, responseField, passedField]
        simp only [bind_eq_ok_iff, require_eq_ok_iff]
        refine ⟨(), ⟨identifier, fresh⟩, ?_⟩
        rcases case with ⟨caseId, response, expectedPassed, expectedRules⟩
        cases expectedRules with
        | none =>
            rw [show lookup (text "expected_rules") members = none from read]
        | some assertions =>
            rcases read with ⟨expected, found, validated⟩
            rw [found]
            simp only [validated, ok_bind]
  | _ =>
      simp only [validateCase, reduceCtorEq, false_iff, not_and]
      intro read
      rcases read.object with ⟨_, equal, _⟩
      cases equal

theorem validateCases_eq_ok_iff {version : SuiteVersion} {seen : List Text} {raws : List Json}
    {caseList : List SuiteCase} :
    validateCases version seen raws = .ok caseList ↔
      List.Forall₂ (SuiteCase.ReadFrom version) raws caseList ∧
        (caseList.map SuiteCase.caseId).Nodup ∧ ∀ case ∈ caseList, case.caseId ∉ seen := by
  induction raws generalizing seen caseList with
  | nil => cases caseList <;> simp [validateCases]
  | cons raw raws induction =>
      cases caseList with
      | nil => simp [validateCases, bind_eq_ok_iff]
      | cons case caseList =>
          rw [List.forall₂_cons, List.map_cons, List.nodup_cons, List.forall_mem_cons]
          simp only [validateCases, bind_eq_ok_iff, validateCase_eq_ok_iff, induction,
            Except.ok.injEq, List.cons.injEq, List.mem_cons, not_or, forall_and]
          constructor
          · intro accepted
            rcases accepted with ⟨_, ⟨read, fresh⟩, _, ⟨rest, distinct, apart, old⟩, rfl, rfl⟩
            refine ⟨⟨read, rest⟩, ⟨fun repeated => ?_, distinct⟩, fresh, old⟩
            rcases List.mem_map.mp repeated with ⟨other, member, equal⟩
            exact apart other member equal
          · intro accepted
            rcases accepted with ⟨⟨read, rest⟩, ⟨new, distinct⟩, fresh, old⟩
            refine ⟨case, ⟨read, fresh⟩, caseList, ⟨rest, distinct, fun other member equal => ?_,
              old⟩, rfl, rfl⟩
            exact new (equal ▸ List.mem_map_of_mem member)

/-! ## Suites -/

/-- What `validate_suite` establishes. -/
structure Suite.Valid (suite : Suite) : Prop where
  nonempty : suite.cases ≠ []
  count : suite.cases.length ≤ maxSuiteCases
  distinct : (suite.cases.map SuiteCase.caseId).Nodup
  identifiers : ∀ case ∈ suite.cases, isIdentifier case.caseId = true
  assertions : ∀ case ∈ suite.cases, ∀ entry ∈ case.assertions, isIdentifier entry.1 = true
  unasserted : suite.suiteVersion = .version1_0 → ∀ case ∈ suite.cases,
    case.expectedRules = none
  fits : suite.toJson.FitsLimits maxJsonInputBytes

structure Suite.ReadFrom (raw : Json) (suite : Suite) : Prop where
  fits : raw.FitsLimits maxJsonInputBytes
  count : suite.cases.length ≤ maxSuiteCases
  nonempty : suite.cases ≠ []
  distinct : (suite.cases.map SuiteCase.caseId).Nodup
  object : ∃ members rawCases, raw = .object members ∧
    HasExactKeys members [text "suite_version", text "cases"] ∧
    field members (text "suite_version") = .string suite.suiteVersion.name ∧
    field members (text "cases") = .array rawCases ∧
    List.Forall₂ (SuiteCase.ReadFrom suite.suiteVersion) rawCases suite.cases

theorem SuiteVersion.supported_find?_eq_some_iff {value : Json} {version : SuiteVersion} :
    SuiteVersion.supported.find? (fun known => Json.string known.name = value) = some version ↔
      value = .string version.name := by
  have injective : Function.Injective fun known : SuiteVersion => Json.string known.name := by
    intro left right equal
    cases left <;> cases right <;> first | rfl | exact absurd equal (by decide)
  have listed : version ∈ SuiteVersion.supported := by cases version <;> decide
  rw [find?_name_eq_some_iff injective, and_iff_right listed]
  exact ⟨Eq.symm, Eq.symm⟩

theorem validateSuite_eq_ok_iff {raw : Json} {suite : Suite} :
    validateSuite raw = .ok suite ↔ suite.ReadFrom raw := by
  simp only [validateSuite, bind_eq_ok_iff, mapError_eq_ok_iff, checkJson_eq_ok_iff]
  constructor
  · intro accepted
    rcases accepted with ⟨size, ⟨fits, sized⟩, accepted⟩
    split at accepted
    · rename_i members
      simp only [bind_eq_ok_iff, require_eq_ok_iff] at accepted
      rcases accepted with ⟨_, exactKeys, accepted⟩
      split at accepted
      · cases accepted
      · rename_i version supported
        split at accepted
        · rename_i rawCases casesField
          simp only [bind_eq_ok_iff, require_eq_ok_iff, validateCases_eq_ok_iff,
            Except.ok.injEq] at accepted
          rcases accepted with ⟨_, ⟨nonempty, count⟩, caseList, ⟨read, distinct, _⟩, rfl⟩
          refine ⟨fits, read.length_eq ▸ count, ?_, distinct, members, rawCases, rfl, exactKeys,
            SuiteVersion.supported_find?_eq_some_iff.mp supported, casesField, read⟩
          intro empty
          cases empty
          cases read
          exact nonempty rfl
        · cases accepted
    · cases accepted
  · intro read
    rcases read.object with ⟨members, rawCases, rfl, exactKeys, versionField, casesField, casesRead⟩
    have rawNonempty : rawCases ≠ [] := by
      intro empty
      cases empty
      exact read.nonempty (List.forall₂_nil_left_iff.mp casesRead)
    refine ⟨_, ⟨read.fits, rfl⟩, ?_⟩
    simp only [bind_eq_ok_iff, require_eq_ok_iff]
    refine ⟨(), exactKeys, ?_⟩
    rw [SuiteVersion.supported_find?_eq_some_iff.mpr versionField, casesField]
    simp only [bind_eq_ok_iff, require_eq_ok_iff, validateCases_eq_ok_iff, Except.ok.injEq]
    exact ⟨(), ⟨rawNonempty, casesRead.length_eq ▸ read.count⟩, suite.cases,
      ⟨casesRead, read.distinct, fun _ _ => List.not_mem_nil⟩, rfl⟩

theorem SuiteCase.ReadFrom.within {version : SuiteVersion} {raw : Json} {case : SuiteCase}
    (read : case.ReadFrom version raw) : (Json.object case.members).Within raw := by
  rcases read.object with ⟨members, rfl, required, _, idField, responseField, passedField,
    assertionsRead⟩
  have present : ∀ key ∈ requiredCaseKeys, lookup key members = some (field members key) :=
    fun key expected => lookup_of_field (required key expected)
  have found : ∀ key value, key ∈ requiredCaseKeys → field members key = value →
      ∃ other, lookup key members = some other ∧ value.Within other := by
    intro key value expected equal
    exact ⟨_, present key expected, equal ▸ Json.Within.refl _⟩
  have first : ∀ member ∈ [(text "case_id", Json.string case.caseId),
      (text "response", .object case.response), (text "expected_passed", .bool case.expectedPassed)],
      ∃ other, lookup member.1 members = some other ∧ member.2.Within other := by
    rw [List.forall_mem_cons, List.forall_mem_cons, List.forall_mem_singleton]
    exact ⟨found _ _ (by simp [requiredCaseKeys]) idField,
      found _ _ (by simp [requiredCaseKeys]) responseField,
      found _ _ (by simp [requiredCaseKeys]) passedField⟩
  cases rules : case.expectedRules with
  | none =>
      rw [SuiteCase.members, rules]
      apply Json.within_object
      · change [text "case_id", text "response", text "expected_passed"].Nodup
        decide
      · rw [List.append_nil]
        exact first
  | some assertions =>
      rw [rules] at assertionsRead
      rcases assertionsRead with ⟨expected, rulesField, validated⟩
      rcases validateAssertions_eq_ok_iff.mp validated with ⟨entries, rfl, each⟩
      rw [SuiteCase.members, rules]
      apply Json.within_object
      · change [text "case_id", text "response", text "expected_passed",
          text "expected_rules"].Nodup
        decide
      · rw [List.forall_mem_append, List.forall_mem_singleton]
        refine ⟨first, _, rulesField, Json.within_object_of_forall₂ ?_⟩
        rw [List.forall₂_map_left_iff]
        exact each.flip.imp fun entry result related =>
          ⟨related.2.1.symm, Assertion.toJson_within related.2.2⟩

theorem Suite.ReadFrom.within {raw : Json} {suite : Suite} (read : suite.ReadFrom raw) :
    suite.toJson.Within raw := by
  rcases read.object with ⟨members, rawCases, rfl, exactKeys, versionField, casesField, casesRead⟩
  have present : ∀ key ∈ [text "suite_version", text "cases"],
      lookup key members = some (field members key) :=
    fun key expected => lookup_of_field (exactKeys.2 key expected)
  apply Json.within_object
  · change [text "suite_version", text "cases"].Nodup
    decide
  · rw [List.forall_mem_cons, List.forall_mem_singleton]
    refine ⟨⟨_, present _ (by simp), versionField ▸ Json.Within.refl _⟩, _, present _ (by simp), ?_⟩
    rw [casesField]
    apply Json.within_array
    rw [List.forall₂_map_left_iff]
    exact casesRead.flip.imp fun _ _ => SuiteCase.ReadFrom.within

theorem SuiteCase.ReadFrom.assertions_valid {version : SuiteVersion} {raw : Json}
    {case : SuiteCase} (read : case.ReadFrom version raw) :
    (∀ entry ∈ case.assertions, isIdentifier entry.1 = true) ∧
      (version = .version1_0 → case.expectedRules = none) := by
  rcases read.object with ⟨members, _, _, allowed, _, _, _, assertionsRead⟩
  rw [SuiteCase.assertions]
  cases rules : case.expectedRules with
  | none => exact ⟨nofun, fun _ => rfl⟩
  | some assertions =>
      rw [rules] at assertionsRead
      rcases assertionsRead with ⟨expected, found, validated⟩
      rcases validateAssertions_eq_ok_iff.mp validated with ⟨entries, _, each⟩
      refine ⟨fun entry member => ?_, fun old => ?_⟩
      · rcases exists_of_mem_right each member with ⟨source, _, identifier, equal, _⟩
        exact equal ▸ identifier
      · have inKeys := allowed _ (lookup_isSome_iff_mem_keys.mp (by rw [found]; rfl))
        rw [old] at inKeys
        exact absurd inKeys (by decide)

theorem Suite.ReadFrom.valid {raw : Json} {suite : Suite} (read : suite.ReadFrom raw) :
    suite.Valid := by
  rcases read.object with ⟨_, rawCases, _, _, _, _, casesRead⟩
  exact {
    nonempty := read.nonempty
    count := read.count
    distinct := read.distinct
    identifiers := fun case member =>
      (exists_of_mem_right casesRead member).elim fun _ related => related.2.identifier
    assertions := fun case member =>
      (exists_of_mem_right casesRead member).elim fun _ related => related.2.assertions_valid.1
    unasserted := fun old case member =>
      (exists_of_mem_right casesRead member).elim fun _ related =>
        related.2.assertions_valid.2 old
    fits := read.within.fitsLimits read.fits }

theorem valid_of_validateSuite {raw : Json} {suite : Suite}
    (validated : validateSuite raw = .ok suite) : suite.Valid :=
  (validateSuite_eq_ok_iff.mp validated).valid

theorem SuiteCase.readFrom_members {version : SuiteVersion} {case : SuiteCase}
    (identifier : isIdentifier case.caseId = true)
    (assertions : ∀ entry ∈ case.assertions, isIdentifier entry.1 = true)
    (unasserted : version = .version1_0 → case.expectedRules = none) :
    case.ReadFrom version (.object case.members) := by
  refine ⟨identifier, case.members, rfl, ?_, ?_, rfl, rfl, rfl, ?_⟩
  · rcases case with ⟨caseId, response, expectedPassed, expectedRules⟩
    cases expectedRules with
    | none => exact fun key => id
    | some rules => exact fun key member => List.mem_append_left [text "expected_rules"] member
  · rcases case with ⟨caseId, response, expectedPassed, expectedRules⟩
    cases expectedRules with
    | none =>
        intro key member
        have required : key ∈ requiredCaseKeys := member
        cases version with
        | version1_0 => exact required
        | version1_1 => exact List.mem_append_left _ required
    | some rules =>
        cases version with
        | version1_0 => cases unasserted rfl
        | version1_1 => exact fun key => id
  · rcases case with ⟨caseId, response, expectedPassed, expectedRules⟩
    cases expectedRules with
    | none => rfl
    | some rules => exact ⟨_, rfl, validateAssertions_toJson assertions⟩

/-- Validating the JSON form of a valid suite returns the suite. -/
theorem Suite.Valid.validate_toJson {suite : Suite} (valid : suite.Valid) :
    validateSuite suite.toJson = .ok suite := by
  rw [validateSuite_eq_ok_iff]
  refine ⟨valid.fits, valid.count, valid.nonempty, valid.distinct, _, _, rfl,
    ⟨fun _ => id, fun _ => id⟩, rfl, rfl, ?_⟩
  rw [List.forall₂_map_left_iff, List.forall₂_same]
  intro case member
  exact SuiteCase.readFrom_members (valid.identifiers case member)
    (valid.assertions case member) fun old => valid.unasserted old case member

private theorem SuiteCase.eq_of_readFrom {version : SuiteVersion} {case other : SuiteCase}
    (read : other.ReadFrom version (.object case.members)) : other = case := by
  rcases case with ⟨caseId, response, expectedPassed, expectedRules⟩
  rcases other with ⟨_, _, _, otherRules⟩
  rcases read.object with ⟨members, equal, _, _, idField, responseField, passedField,
    assertionsRead⟩
  have memberList := Json.object.inj equal
  subst memberList
  have named := Json.string.inj idField
  have responses := Json.object.inj responseField
  have verdicts := Json.bool.inj passedField
  simp only at named responses verdicts
  subst named responses verdicts
  cases expectedRules with
  | none =>
      cases otherRules with
      | none => rfl
      | some assertions =>
          rcases assertionsRead with ⟨_, found, _⟩
          cases found
  | some assertions =>
      cases otherRules with
      | none => cases assertionsRead
      | some others =>
          rcases assertionsRead with ⟨_, found, validated⟩
          cases found
          rcases validateAssertions_eq_ok_iff.mp validated with ⟨entries, equal, each⟩
          cases equal
          rw [List.forall₂_map_left_iff] at each
          have same : List.Forall₂ Eq assertions others := by
            refine each.imp fun entry result read => ?_
            rcases read with ⟨_, key, value⟩
            rw [assertionOf?_toJson, Option.some.injEq] at value
            exact Prod.ext key value
          rw [List.forall₂_eq_eq_eq] at same
          rw [same]

/-- Validating the JSON form of a suite can only return that suite. -/
theorem Suite.eq_of_validate_toJson {suite other : Suite}
    (validated : validateSuite suite.toJson = .ok other) : other = suite := by
  rcases (validateSuite_eq_ok_iff.mp validated).object with
    ⟨_, rawCases, equal, _, versionField, casesField, casesRead⟩
  cases equal
  have version : suite.suiteVersion = other.suiteVersion := by
    have named := Json.string.inj versionField
    revert named
    cases suite.suiteVersion <;> cases other.suiteVersion <;> first | exact fun _ => rfl | decide
  have caseList := Json.array.inj casesField
  rw [← caseList, List.forall₂_map_left_iff] at casesRead
  have same : List.Forall₂ Eq suite.cases other.cases :=
    casesRead.imp fun case result read => (SuiteCase.eq_of_readFrom read).symm
  rw [List.forall₂_eq_eq_eq] at same
  rcases suite with ⟨_, _⟩
  rcases other with ⟨_, _⟩
  simp only at version same
  rw [version, same]

theorem validateSuite_toJson_eq_ok_iff {suite other : Suite} :
    validateSuite suite.toJson = .ok other ↔ suite.Valid ∧ other = suite := by
  constructor
  · intro validated
    have equal := Suite.eq_of_validate_toJson validated
    exact ⟨equal ▸ valid_of_validateSuite validated, equal⟩
  · intro valid
    rw [valid.2]
    exact valid.1.validate_toJson

/-- Some of the cases of a valid suite, in order, make a valid suite. -/
theorem Suite.Valid.of_sublist {suite : Suite} (suiteValid : suite.Valid)
    {caseList : List SuiteCase} (sublist : caseList.Sublist suite.cases)
    (nonempty : caseList ≠ []) :
    Suite.Valid { suite with cases := caseList } where
  nonempty := nonempty
  count := sublist.length_le.trans suiteValid.count
  distinct := suiteValid.distinct.sublist (sublist.map _)
  identifiers := fun case member => suiteValid.identifiers case (sublist.subset member)
  assertions := fun case member => suiteValid.assertions case (sublist.subset member)
  unasserted := fun old case member => suiteValid.unasserted old case (sublist.subset member)
  fits := by
    apply Json.Within.fitsLimits _ suiteValid.fits
    apply Json.within_object_of_forall₂
    exact .cons ⟨rfl, Json.Within.refl _⟩
      (.cons ⟨rfl, Json.within_array_of_subperm (sublist.map _).subperm⟩ .nil)

/-- A response inside a valid suite is accepted by the evaluator. -/
theorem Suite.Valid.accepted {suite : Suite} (valid : suite.Valid) {case : SuiteCase}
    (member : case ∈ suite.cases) : Accepted (.object case.response) := by
  refine ⟨⟨_, rfl⟩, Json.Within.fitsLimits ?_ valid.fits⟩
  have inCases : Json.object case.members ∈
      suite.cases.map fun case => Json.object case.members := List.mem_map_of_mem member
  have inSuite : (text "cases", Json.array (suite.cases.map fun case => Json.object case.members))
      ∈ [(text "suite_version", Json.string suite.suiteVersion.name),
        (text "cases", .array (suite.cases.map fun case => Json.object case.members))] := by
    simp
  have inCase : (text "response", Json.object case.response) ∈ case.members := by
    simp [SuiteCase.members]
  exact (Json.within_of_member inCase).trans
    ((Json.within_of_item inCases).trans (Json.within_of_member inSuite))

end AgentTestbench

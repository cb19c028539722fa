import AgentTestbench.Binding
import AgentTestbench.Replay

/-! # Member order

Documents that differ in the order of members are validated alike, and what is read off them is
alike too.
-/

namespace AgentTestbench

open AssociationList Fallible

/-! ## Values -/

namespace Json

section Shapes

variable {value : Json}

/-- Only containers have other forms. -/
theorem Same.eq_scalar {scalar : Json} (same : value.Same scalar)
    (array : ∀ items, scalar ≠ .array items) (object : ∀ members, scalar ≠ .object members) :
    value = scalar := by
  have normal : scalar.normalize = scalar := by
    cases scalar with
    | array items => exact absurd rfl (array items)
    | object members => exact absurd rfl (object members)
    | _ => rfl
  rw [Same, normal] at same
  cases value with
  | array items =>
      rw [normalize_array] at same
      exact absurd same.symm (array _)
  | object members =>
      rw [normalize_object] at same
      exact absurd same.symm (object _)
  | _ => exact same

theorem Same.eq_string {content : Text} (same : value.Same (.string content)) :
    value = .string content :=
  same.eq_scalar (fun _ equal => by cases equal) fun _ equal => by cases equal

theorem Same.eq_bool {flag : Bool} (same : value.Same (.bool flag)) : value = .bool flag :=
  same.eq_scalar (fun _ equal => by cases equal) fun _ equal => by cases equal

private theorem Same.eq_number {number : Number} (same : value.Same (.number number)) :
    value = .number number :=
  same.eq_scalar (fun _ equal => by cases equal) fun _ equal => by cases equal

theorem Same.exists_array {items : List Json} (same : value.Same (.array items)) :
    ∃ others, value = .array others ∧ List.Forall₂ Same others items := by
  cases value with
  | array others => exact ⟨others, rfl, same_array_iff.mp same⟩
  | object members =>
      rw [Same, normalize_object, normalize_array] at same
      cases same
  | _ =>
      rw [Same, normalize_array] at same
      cases same

theorem Same.exists_object {members : List (Text × Json)} (same : value.Same (.object members)) :
    ∃ others, value = .object others := by
  cases value with
  | object others => exact ⟨others, rfl⟩
  | array items =>
      rw [Same, normalize_object, normalize_array] at same
      cases same
  | _ =>
      rw [Same, normalize_object] at same
      cases same

end Shapes

section Limits

variable {left right : Json}

/-- The limits do not see the order of members. -/
theorem Same.limits (same : left.Same right) :
    left.nodes = right.nodes ∧ left.depth = right.depth ∧ (left.Portable ↔ right.Portable) := by
  refine ⟨?_, ?_, ?_⟩
  · rw [← nodes_normalize, same, nodes_normalize]
  · rw [← depth_normalize, same, depth_normalize]
  · rw [← portable_normalize_iff, same, portable_normalize_iff]

theorem FitsLimits.of_same {limit : Nat} (fits : right.FitsLimits limit) (same : left.Same right) :
    left.FitsLimits limit where
  nodes := same.limits.1.trans_le fits.nodes
  depth := same.limits.2.1.trans_le fits.depth
  portable := same.limits.2.2.mpr fits.portable
  encodable := encodable_of_same same.symm fits.encodable
  size := by
    rw [← canonicalSize_normalize, same, canonicalSize_normalize]
    exact fits.size

theorem Checked.of_same (checked : right.Checked) (same : left.Same right) : left.Checked where
  nodes := same.limits.1.trans_le checked.nodes
  depth := same.limits.2.1.trans_le checked.depth
  portable := same.limits.2.2.mpr checked.portable
  encodable := encodable_of_same same.symm checked.encodable

end Limits

end Json

/-! ## Members -/

section Members

variable {members others : List (Text × Json)}
  (same : (Json.object others).Same (.object members))

include same

theorem lookup_same (key : Text) :
    (lookup key others).map Json.normalize = (lookup key members).map Json.normalize :=
  same.member? key

theorem mem_keys_same (key : Text) : key ∈ keys others ↔ key ∈ keys members := by
  have found := congrArg Option.isSome (lookup_same same key)
  rw [Option.isSome_map, Option.isSome_map] at found
  rw [← lookup_isSome_iff_mem_keys, ← lookup_isSome_iff_mem_keys, found]

theorem field_same (key : Text) : (field others key).Same (field members key) := by
  have found := lookup_same same key
  rw [field, field]
  cases there : lookup key others with
  | none =>
      cases here : lookup key members with
      | none => exact Json.Same.refl _
      | some value =>
          rw [there, here] at found
          cases found
  | some value =>
      cases here : lookup key members with
      | none =>
          rw [there, here] at found
          cases found
      | some other =>
          rw [there, here] at found
          exact Option.some.inj found

theorem field_string {key content : Text} (here : field members key = .string content) :
    field others key = .string content :=
  (here ▸ field_same same key).eq_string

theorem lookup_number {Limit : Type} {key : Text} {limit : Option Limit}
    {toNumber : Limit → Number}
    (here : lookup key members = limit.map fun limit => Json.number (toNumber limit)) :
    lookup key others = limit.map fun limit => Json.number (toNumber limit) := by
  have found := lookup_same same key
  rw [here] at found
  cases there : lookup key others with
  | none =>
      rw [there] at found
      cases limit with
      | none => rfl
      | some limit => cases found
  | some value =>
      rw [there] at found
      cases limit with
      | none => cases found
      | some limit => exact congrArg some (Json.Same.eq_number (Option.some.inj found))

theorem hasExactKeys_same {expected : List Text} (exactKeys : HasExactKeys members expected) :
    HasExactKeys others expected :=
  ⟨fun key member => exactKeys.1 key ((mem_keys_same same key).mp member),
    fun key member => (mem_keys_same same key).mpr (exactKeys.2 key member)⟩

end Members

/-! ## Policies -/

section Rules

private theorem typesJson_of_same {value : Json} {types : List Json.TypeName}
    (sameTypes : value.Same (typesJson types)) : value = typesJson types := by
  rw [typesJson] at sameTypes ⊢
  rcases sameTypes.exists_array with ⟨items, rfl, each⟩
  rw [List.forall₂_map_right_iff] at each
  rw [Json.array.injEq, ← List.forall₂_eq_eq_eq, List.forall₂_map_right_iff]
  exact each.imp fun _ _ => Json.Same.eq_string

variable {members others : List (Text × Json)}
  (same : (Json.object others).Same (.object members))

include same

theorem Constraint.ReadFrom.reorder {constraint : Constraint} (valid : constraint.Valid)
    (read : constraint.ReadFrom members) :
    ∃ reordered : Constraint, reordered.kind = constraint.kind ∧ reordered.Valid ∧
      reordered.ReadFrom others := by
  cases constraint with
  | equals value =>
      have sameValue := field_same same (text "value")
      rw [show field members (text "value") = value from read] at sameValue
      exact ⟨.equals (field others (text "value")), rfl, valid.of_same sameValue, rfl⟩
  | oneOf values =>
      have sameValues := field_same same (text "values")
      rw [show field members (text "values") = .array values from read] at sameValues
      rcases sameValues.exists_array with ⟨items, reading, each⟩
      rcases valid with ⟨nonempty, count, checked, distinct⟩
      have normal : items.map Json.normalize = values.map Json.normalize := by
        rw [← List.forall₂_eq_eq_eq, List.forall₂_map_left_iff, List.forall₂_map_right_iff]
        exact each
      refine ⟨.oneOf items, rfl, ⟨?_, each.length_eq ▸ count, ?_, ?_⟩, reading⟩
      · rintro rfl
        exact nonempty (List.forall₂_nil_left_iff.mp each)
      · intro item member
        rcases exists_of_mem_left each member with ⟨value, valueMember, sameValue⟩
        exact (checked value valueMember).of_same sameValue
      · have apart : (values.map Json.normalize).Pairwise (· ≠ ·) :=
          List.pairwise_map.mpr distinct
        rw [← normal] at apart
        exact List.pairwise_map.mp apart
  | type types =>
      have sameTypes := field_same same (text "types")
      rw [show field members (text "types") = typesJson types from read] at sameTypes
      exact ⟨.type types, rfl, valid, typesJson_of_same sameTypes⟩
  | range minimum maximum =>
      exact ⟨.range minimum maximum, rfl, valid, lookup_number same read.1,
        lookup_number same read.2⟩
  | length minimum maximum =>
      exact ⟨.length minimum maximum, rfl, valid, lookup_number same read.1,
        lookup_number same read.2⟩
  | requiredField => exact ⟨.requiredField, rfl, valid, trivial⟩
  | false => exact ⟨.false, rfl, valid, trivial⟩
  | emptyList => exact ⟨.emptyList, rfl, valid, trivial⟩

private theorem mem_expectedKeys_same (kind : RuleKind) (key : Text) :
    key ∈ expectedKeys kind others ↔ key ∈ expectedKeys kind members := by
  have bounds : [text "minimum", text "maximum"].filter (· ∈ keys others) =
      [text "minimum", text "maximum"].filter (· ∈ keys members) :=
    List.filter_congr fun key _ => decide_eq_decide.mpr (mem_keys_same same key)
  cases kind <;> simp only [expectedKeys, RuleKind.constraintKeys, bounds]

end Rules

theorem Rule.ReadFrom.reorder {allowedKinds : List RuleKind} {raw other : Json} {rule : Rule}
    (read : rule.ReadFrom allowedKinds raw) (same : other.Same raw) :
    ∃ reordered : Rule, reordered.ReadFrom allowedKinds other ∧
      reordered.ruleId = rule.ruleId := by
  rcases read.object with ⟨members, rfl, kind, exactKeys, idField, pathField, constraintRead⟩
  rcases same.exists_object with ⟨others, rfl⟩
  rcases constraintRead.reorder same read.valid.constraint with
    ⟨constraint, sameKind, valid, constraintOther⟩
  have found := lookup_same same (text "kind")
  rw [kind, Option.map_some, Option.map_eq_some_iff] at found
  rcases found with ⟨name, there, normal⟩
  refine ⟨⟨rule.ruleId, rule.path, constraint⟩, ⟨?_, ?_, others, rfl, ?_, ?_, ?_, ?_, ?_⟩, rfl⟩
  · exact { read.valid with constraint := valid }
  · rw [Rule.kind, sameKind]
    exact read.allowed
  · rw [there, Json.Same.eq_string normal]
    exact congrArg (fun kind => some (Json.string (RuleKind.name kind))) sameKind.symm
  · intro key
    rw [mem_keys_same same, exactKeys, Rule.kind, Rule.kind, sameKind]
    exact (mem_expectedKeys_same same _ key).symm
  · exact field_string same idField
  · exact field_string same pathField
  · exact constraintOther

/-- What is read item by item is read off the items of an array that is the same. -/
theorem reorder_items {Item : Type} {reads : Json → Item → Prop} {key : Item → Text}
    {items others : List Json} {results : List Item} (same : List.Forall₂ Json.Same others items)
    (read : List.Forall₂ reads items results)
    (each : ∀ item ∈ items, ∀ other result, other.Same item → other ∈ others →
      reads item result → ∃ reordered, reads other reordered ∧ key reordered = key result) :
    ∃ reordered, List.Forall₂ reads others reordered ∧
      reordered.map key = results.map key := by
  induction same generalizing results with
  | nil =>
      cases read
      exact ⟨[], .nil, rfl⟩
  | cons first rest induction =>
      cases read with
      | cons firstRead restRead =>
          rcases each _ List.mem_cons_self _ _ first List.mem_cons_self firstRead with
            ⟨reordered, here, named⟩
          have later := induction restRead fun item member other result same inside =>
            each item (List.mem_cons_of_mem _ member) other result same
              (List.mem_cons_of_mem _ inside)
          rcases later with ⟨others, there, names⟩
          refine ⟨reordered :: others, .cons here there, ?_⟩
          rw [List.map_cons, List.map_cons, named, names]

/-- A document with its members in another order is accepted too. -/
theorem Policy.ReadFrom.reorder {raw other : Json} {policy : Policy} (read : policy.ReadFrom raw)
    (same : other.Same raw) : ∃ reordered : Policy, reordered.ReadFrom other := by
  rcases read.object with
    ⟨members, rawRules, rfl, exactKeys, versionField, idField, rulesField, rulesRead⟩
  rcases same.exists_object with ⟨others, rfl⟩
  have sameRules := field_same same (text "rules")
  rw [rulesField] at sameRules
  rcases sameRules.exists_array with ⟨otherRules, otherField, each⟩
  rcases @reorder_items _ _ Rule.ruleId _ _ _ each rulesRead
    (fun _ _ _ _ same _ read => read.reorder same) with ⟨rules, rulesOther, names⟩
  have length : rules.length = policy.rules.length := by
    have lengths := congrArg List.length names
    rwa [List.length_map, List.length_map] at lengths
  refine ⟨⟨policy.policyId, rules, policy.schemaVersion⟩, ?_⟩
  exact {
    fits := read.fits.of_same same
    identifier := read.identifier
    nonempty := by
      intro empty
      have vacant : rules = [] := empty
      rw [vacant] at length
      exact read.nonempty (List.length_eq_zero_iff.mp length.symm)
    count := length.trans_le read.count
    distinct := names ▸ read.distinct
    object := ⟨others, otherRules, rfl,
      fun key => (mem_keys_same same key).trans (exactKeys key), field_string same versionField,
      field_string same idField, otherField, rulesOther⟩ }

/-! ## Suites -/

private theorem assertionOf?_of_same {raw other : Json} {assertion : Assertion}
    (read : assertionOf? raw = some assertion) (same : other.Same raw) :
    assertionOf? other = some assertion := by
  rcases assertionOf?_eq_some read with ⟨members, rfl, exactKeys, passedField, nameField⟩
  rcases same.exists_object with ⟨others, rfl⟩
  have passedOther := (passedField ▸ field_same same (text "passed")).eq_bool
  have nameOther := field_string same nameField
  have known : ReasonCode.ofName? assertion.reasonCode.name = some assertion.reasonCode :=
    ReasonCode.ofName?_eq_some_iff.mpr rfl
  rw [assertionOf?, if_pos (hasExactKeys_same same exactKeys), passedOther, nameOther]
  simp only
  rw [known, Option.bind_some, dif_pos assertion.consistent]

private theorem forEach_returns {Value Result Failure : Type} {step : Value → Except Failure Result}
    {items : List Value} (each : ∀ item ∈ items, ∃ result, step item = .ok result) :
    ∃ results, forEach step items = .ok results := by
  induction items with
  | nil => exact ⟨[], rfl⟩
  | cons item items induction =>
      rw [List.forall_mem_cons] at each
      rcases each with ⟨⟨first, here⟩, others⟩
      rcases induction others with ⟨rest, there⟩
      refine ⟨first :: rest, ?_⟩
      rw [forEach, here, ok_bind, there, ok_bind]

private theorem validateAssertions_reorder {expected other : Json}
    {assertions : List (Text × Assertion)} (read : validateAssertions expected = .ok assertions)
    (formed : other.WellFormed) (same : other.Same expected) :
    ∃ reordered, validateAssertions other = .ok reordered := by
  rcases validateAssertions_eq_ok_iff.mp read with ⟨entries, rfl, each⟩
  rcases same.exists_object with ⟨others, rfl⟩
  have distinct := (Json.wellFormed_object_iff.mp formed).1
  apply forEach_returns
  intro entry member
  have there := lookup_eq_some_of_mem distinct member
  have found := lookup_same same entry.1
  rw [there] at found
  cases here : lookup entry.1 entries with
  | none =>
      rw [here] at found
      cases found
  | some value =>
      rw [here] at found
      rcases exists_of_mem_left each (mem_of_lookup_eq_some here) with
        ⟨result, _, identifier, _, assertion⟩
      exact ⟨(entry.1, result.2), validateAssertion_eq_ok_iff.mpr
        ⟨identifier, rfl, assertionOf?_of_same assertion (Option.some.inj found)⟩⟩

theorem AssertionsReadFrom.reorder {members others : List (Text × Json)}
    {expectedRules : Option (List (Text × Assertion))}
    (read : AssertionsReadFrom (lookup (text "expected_rules") members) expectedRules)
    (formed : (Json.object others).WellFormed)
    (same : (Json.object others).Same (.object members)) :
    ∃ reordered, AssertionsReadFrom (lookup (text "expected_rules") others) reordered := by
  have found := lookup_same same (text "expected_rules")
  cases there : lookup (text "expected_rules") others with
  | none => exact ⟨none, rfl⟩
  | some value =>
      rw [there] at found
      cases expectedRules with
      | none =>
          rw [show lookup (text "expected_rules") members = none from read] at found
          cases found
      | some assertions =>
          rcases read with ⟨raw, here, validated⟩
          rw [here] at found
          have valueFormed := (Json.wellFormed_object_iff.mp formed).2 _
            (mem_of_lookup_eq_some there)
          rcases validateAssertions_reorder validated valueFormed (Option.some.inj found) with
            ⟨reordered, accepted⟩
          exact ⟨some reordered, value, rfl, accepted⟩

theorem SuiteCase.ReadFrom.reorder {version : SuiteVersion} {raw other : Json} {case : SuiteCase}
    (read : case.ReadFrom version raw) (formed : other.WellFormed) (same : other.Same raw) :
    ∃ reordered : SuiteCase, reordered.ReadFrom version other ∧
      reordered.caseId = case.caseId := by
  rcases read.object with ⟨members, rfl, required, allowed, idField, responseField, passedField,
    assertionsRead⟩
  rcases same.exists_object with ⟨others, rfl⟩
  have sameResponse := field_same same (text "response")
  rw [responseField] at sameResponse
  rcases sameResponse.exists_object with ⟨response, responseOther⟩
  have passedOther := (passedField ▸ field_same same (text "expected_passed")).eq_bool
  rcases assertionsRead.reorder formed same with ⟨expectedRules, rulesOther⟩
  exact ⟨⟨case.caseId, response, case.expectedPassed, expectedRules⟩,
    ⟨read.identifier, others, rfl,
      fun key expected => (mem_keys_same same key).mpr (required key expected),
      fun key member => allowed key ((mem_keys_same same key).mp member),
      field_string same idField, responseOther, passedOther, rulesOther⟩, rfl⟩

theorem Suite.ReadFrom.reorder {raw other : Json} {suite : Suite} (read : suite.ReadFrom raw)
    (formed : other.WellFormed) (same : other.Same raw) :
    ∃ reordered : Suite, reordered.ReadFrom other := by
  rcases read.object with ⟨members, rawCases, rfl, exactKeys, versionField, casesField, casesRead⟩
  rcases same.exists_object with ⟨others, rfl⟩
  have sameCases := field_same same (text "cases")
  rw [casesField] at sameCases
  rcases sameCases.exists_array with ⟨otherCases, otherField, each⟩
  have exactOther := hasExactKeys_same same exactKeys
  have casesFormed : ∀ case ∈ otherCases, case.WellFormed := by
    have present := lookup_of_field (exactOther.2 (text "cases") (by simp))
    rw [otherField] at present
    exact Json.wellFormed_array_iff.mp
      ((Json.wellFormed_object_iff.mp formed).2 _ (mem_of_lookup_eq_some present))
  rcases @reorder_items _ _ SuiteCase.caseId _ _ _ each casesRead
    (fun _ _ other _ same inside read => read.reorder (casesFormed other inside) same) with
    ⟨caseList, casesOther, names⟩
  have length : caseList.length = suite.cases.length := by
    have lengths := congrArg List.length names
    rwa [List.length_map, List.length_map] at lengths
  refine ⟨⟨suite.suiteVersion, caseList⟩, ?_⟩
  exact {
    fits := read.fits.of_same same
    count := length.trans_le read.count
    nonempty := by
      intro empty
      have vacant : caseList = [] := empty
      rw [vacant] at length
      exact read.nonempty (List.length_eq_zero_iff.mp length.symm)
    distinct := names ▸ read.distinct
    object := ⟨others, otherCases, rfl, exactOther, field_string same versionField, otherField,
      casesOther⟩ }

/-! ## Artifacts -/

theorem boundedArtifact_of_same {value other : Json} (bounded : boundedArtifact value = .ok ())
    (same : other.Same value) : boundedArtifact other = .ok () := by
  rcases boundedArtifact_eq_ok_iff.mp bounded with ⟨⟨nodes, depth, portable⟩, written, stable, size⟩
  have limits := same.limits
  refine boundedArtifact_eq_ok_iff.mpr ⟨⟨limits.1.trans_le nodes, limits.2.1.trans_le depth,
    limits.2.2.mpr portable⟩, written, ?_, size⟩
  rw [stableJson, dumps_congr indented same]
  exact stable

/-! ## Results -/

section Results

variable {raw other suite otherSuite : Json} (formed : raw.WellFormed)
  (suiteFormed : suite.WellFormed) (same : other.Same raw) (sameSuite : otherSuite.Same suite)

include formed suiteFormed same sameSuite

/-- Policy and suite read off reordered documents report alike, and have the same digests. -/
theorem suiteReceipt_reorder {policy : Policy} {fixtures : Suite}
    (validated : validatePolicy (.json raw) = .ok policy)
    (suiteValidated : validateSuite suite = .ok fixtures) :
    ∃ otherPolicy otherFixtures, validatePolicy (.json other) = .ok otherPolicy ∧
      validateSuite otherSuite = .ok otherFixtures ∧
      suiteReceipt otherPolicy otherFixtures = suiteReceipt policy fixtures := by
  have read := readFrom_of_validatePolicy validated
  have suiteRead := validateSuite_eq_ok_iff.mp suiteValidated
  have otherFormed := formed.of_same same
  have otherSuiteFormed := suiteFormed.of_same sameSuite
  rcases read.reorder same with ⟨otherPolicy, otherRead⟩
  rcases suiteRead.reorder otherSuiteFormed sameSuite with ⟨otherFixtures, otherSuiteRead⟩
  have samePolicy : otherPolicy.toDict.Same policy.toDict :=
    ((otherRead.same otherFormed).trans same).trans (read.same formed).symm
  have sameFixtures : otherFixtures.toJson.Same fixtures.toJson :=
    ((otherSuiteRead.same otherSuiteFormed).1.trans sameSuite).trans
      (suiteRead.same suiteFormed).1.symm
  refine ⟨otherPolicy, otherFixtures, validateRawPolicy_eq_ok_iff.mpr otherRead,
    validateSuite_eq_ok_iff.mpr otherSuiteRead, ?_⟩
  rw [suiteReceipt, suiteReceipt, Json.digest_congr samePolicy, Json.digest_congr sameFixtures,
    suiteReport_eq_of_same read.valid otherRead.valid suiteRead otherSuiteRead suiteFormed
      otherSuiteFormed samePolicy sameFixtures]

theorem createSuiteReceipt_reorder {receipt : SuiteReceipt}
    (created : createSuiteReceipt (.json raw) suite = .ok receipt) :
    createSuiteReceipt (.json other) otherSuite = .ok receipt := by
  rcases validated_of_createSuiteReceipt created with
    ⟨policy, fixtures, validated, suiteValidated⟩
  rcases suiteReceipt_reorder formed suiteFormed same sameSuite validated suiteValidated with
    ⟨otherPolicy, otherFixtures, otherValidated, otherSuiteValidated, equal⟩
  rw [createSuiteReceipt_eq_ok_iff otherValidated otherSuiteValidated, equal]
  exact (createSuiteReceipt_eq_ok_iff validated suiteValidated).mp created

theorem evaluateSuite_reorder {report : SuiteReport}
    (evaluated : evaluateSuite (.json raw) suite = .ok report) :
    evaluateSuite (.json other) otherSuite = .ok report := by
  rcases bind_eq_ok_iff.mp evaluated with ⟨policy, validated, rest⟩
  rcases bind_eq_ok_iff.mp rest with ⟨fixtures, suiteValidated, _⟩
  rcases suiteReceipt_reorder formed suiteFormed same sameSuite validated suiteValidated with
    ⟨otherPolicy, otherFixtures, otherValidated, otherSuiteValidated, equal⟩
  rw [evaluateSuite_eq validated suiteValidated] at evaluated
  rw [evaluateSuite_eq otherValidated otherSuiteValidated, ← evaluated]
  exact congrArg (fun receipt => Except.ok (SuiteReceipt.evaluation receipt)) equal

theorem verifySuiteReceipt_reorder {receipt otherReceipt : Json} {verification : Verification}
    (sameReceipt : otherReceipt.Same receipt)
    (ran : verifySuiteReceipt (.json raw) suite receipt = .ok verification) :
    verifySuiteReceipt (.json other) otherSuite otherReceipt = .ok verification := by
  rcases bind_eq_ok_iff.mp ran with ⟨_, bounded, ran⟩
  have boundedOther := boundedArtifact_of_same bounded sameReceipt
  cases receipt with
  | object members =>
      rcases sameReceipt.exists_object with ⟨others, rfl⟩
      rcases bind_eq_ok_iff.mp ran with ⟨_, shape, ran⟩
      rcases bind_eq_ok_iff.mp ran with ⟨_, digests, ran⟩
      rcases bind_eq_ok_iff.mp ran with ⟨expected, created, ran⟩
      rw [require_eq_ok_iff] at shape digests
      have shapeOther : HasExactKeys others receiptKeys ∧
          field others (text "suite_receipt_version") = .string (text "1.0") ∧
          field others (text "digest_algorithm") = .string (text "sha256-canonical-json-v1") :=
        ⟨hasExactKeys_same sameReceipt shape.1, field_string sameReceipt shape.2.1,
          field_string sameReceipt shape.2.2⟩
      have digestsOther : ∀ key ∈ [text "policy_digest", text "suite_digest"],
          isDigestField (field others key) = true := by
        intro key member
        have digest := digests key member
        cases here : field members key with
        | string content =>
            rw [field_string sameReceipt here, ← here]
            exact digest
        | _ =>
            rw [here] at digest
            cases digest
      have mismatches : receiptKeys.filter (fun key =>
            (field others key).canonicalText ≠ (field expected.members key).canonicalText) =
          receiptKeys.filter fun key =>
            (field members key).canonicalText ≠ (field expected.members key).canonicalText :=
        List.filter_congr fun key _ => by rw [canonicalText_congr (field_same sameReceipt key)]
      have createdOther := createSuiteReceipt_reorder formed suiteFormed same sameSuite created
      rw [verifySuiteReceipt, boundedOther, ok_bind]
      simp only [require_of_holds shapeOther, require_of_holds digestsOther, createdOther, ok_bind]
      rw [mismatches]
      exact ran
  | _ => cases ran

end Results

theorem replayBundle_reorder {bundle other : Json} {replay : Replay} (formed : bundle.WellFormed)
    (same : other.Same bundle) (ran : replayBundle bundle = .ok replay) :
    replayBundle other = .ok replay := by
  rcases bind_eq_ok_iff.mp ran with ⟨_, bounded, ran⟩
  have boundedOther := boundedArtifact_of_same bounded same
  cases bundle with
  | object members =>
      rcases same.exists_object with ⟨others, rfl⟩
      rcases bind_eq_ok_iff.mp ran with ⟨_, shape, ran⟩
      rcases bind_eq_ok_iff.mp ran with ⟨verification, verified, ran⟩
      rw [require_eq_ok_iff] at shape
      have fieldFormed {key : Text} (expected : key ∈ replayKeys) :
          (field members key).WellFormed :=
        (Json.wellFormed_object_iff.mp formed).2 _
          (mem_of_lookup_eq_some (lookup_of_field (shape.1.2 key expected)))
      have shapeOther : HasExactKeys others replayKeys ∧
          field others (text "replay_version") = .string (text "1.0") :=
        ⟨hasExactKeys_same same shape.1, field_string same shape.2⟩
      have verifiedOther := verifySuiteReceipt_reorder (fieldFormed (by decide))
        (fieldFormed (by decide)) (field_same same (text "policy")) (field_same same (text "suite"))
        (field_same same (text "receipt")) verified
      have claims : verification.verified = true →
          claimedMatch (field others (text "receipt")) =
            claimedMatch (field members (text "receipt")) := by
        intro passed
        rcases verifySuiteReceipt_verified verified passed with
          ⟨policy, suite, evaluation, validated, suiteValidated, found, _, sameReport⟩
        rcases verifySuiteReceipt_verified verifiedOther passed with
          ⟨otherPolicy, otherSuite, otherEvaluation, otherValidated, otherSuiteValidated,
            otherFound, _, otherReport⟩
        have reports := evaluateSuite_reorder (fieldFormed (by decide)) (fieldFormed (by decide))
          (field_same same (text "policy")) (field_same same (text "suite"))
          (evaluateSuite_eq validated suiteValidated)
        rw [evaluateSuite_eq otherValidated otherSuiteValidated, Except.ok.injEq] at reports
        rw [claimedMatch_of_same found sameReport, claimedMatch_of_same otherFound otherReport,
          reports]
      have matched : (if verification.verified then claimedMatch (field others (text "receipt"))
          else none) =
          if verification.verified then claimedMatch (field members (text "receipt"))
          else none := by
        split_ifs with passed
        · exact claims passed
        · rfl
      rw [replayBundle, boundedOther, ok_bind]
      simp only [require_of_holds shapeOther, verifiedOther, ok_bind]
      rw [matched]
      exact ran
  | _ => cases ran

/-- Documents that are equal up to member order have one report, one receipt, one verification and
one replay. -/
theorem reordering_immaterial {policy otherPolicy suite otherSuite : Json}
    (formed : policy.WellFormed) (otherFormed : otherPolicy.WellFormed)
    (suiteFormed : suite.WellFormed) (otherSuiteFormed : otherSuite.WellFormed)
    (equal : otherPolicy.Equal policy) (suiteEqual : otherSuite.Equal suite) :
    (∀ report, evaluateSuite (.json policy) suite = .ok report ↔
      evaluateSuite (.json otherPolicy) otherSuite = .ok report) ∧
    (∀ receipt, createSuiteReceipt (.json policy) suite = .ok receipt ↔
      createSuiteReceipt (.json otherPolicy) otherSuite = .ok receipt) ∧
    (∀ receipt otherReceipt verification, receipt.WellFormed → otherReceipt.WellFormed →
      otherReceipt.Equal receipt →
      (verifySuiteReceipt (.json policy) suite receipt = .ok verification ↔
        verifySuiteReceipt (.json otherPolicy) otherSuite otherReceipt = .ok verification)) ∧
    ∀ bundle otherBundle replay, bundle.WellFormed → otherBundle.WellFormed →
      otherBundle.Equal bundle →
      (replayBundle bundle = .ok replay ↔ replayBundle otherBundle = .ok replay) := by
  have same := (Json.same_iff_equal otherFormed formed).mpr equal
  have sameSuite := (Json.same_iff_equal otherSuiteFormed suiteFormed).mpr suiteEqual
  refine ⟨fun report => ⟨?_, ?_⟩, fun receipt => ⟨?_, ?_⟩, ?_, ?_⟩
  · exact evaluateSuite_reorder formed suiteFormed same sameSuite
  · exact evaluateSuite_reorder otherFormed otherSuiteFormed same.symm sameSuite.symm
  · exact createSuiteReceipt_reorder formed suiteFormed same sameSuite
  · exact createSuiteReceipt_reorder otherFormed otherSuiteFormed same.symm sameSuite.symm
  · intro receipt otherReceipt verification receiptFormed otherReceiptFormed receiptEqual
    have sameReceipt := (Json.same_iff_equal otherReceiptFormed receiptFormed).mpr receiptEqual
    exact ⟨verifySuiteReceipt_reorder formed suiteFormed same sameSuite sameReceipt,
      verifySuiteReceipt_reorder otherFormed otherSuiteFormed same.symm sameSuite.symm
        sameReceipt.symm⟩
  · intro bundle otherBundle replay bundleFormed otherBundleFormed bundleEqual
    have sameBundle := (Json.same_iff_equal otherBundleFormed bundleFormed).mpr bundleEqual
    exact ⟨replayBundle_reorder bundleFormed sameBundle,
      replayBundle_reorder otherBundleFormed sameBundle.symm⟩

def reorderedCases : Json :=
  .object [(text "cases", .array [.object [(text "expected_passed", .bool true),
      (text "response", .object [(text "level", .number (.integer 2))]),
      (text "case_id", .string (text "only"))]]),
    (text "suite_version", .string (text "1.0"))]

theorem reordering_immaterial_levels :
    evaluateSuite (.json reorderedLevels) reorderedCases =
      .ok (suiteReport boundedLevels (levelCases 2)) := by
  have formed : boundedLevels.toDict.WellFormed := by
    have outer : [text "policy_id", text "rules", text "schema_version"].Nodup := by decide
    have inner : [text "kind", text "path", text "rule_id", text "maximum"].Nodup := by decide
    exact ⟨outer, trivial, ⟨trivial, ⟨inner, trivial, trivial, trivial, trivial, trivial⟩,
      trivial⟩, trivial, trivial⟩
  have suiteFormed : (levelCases 2).toJson.WellFormed := by
    have outer : [text "suite_version", text "cases"].Nodup := by decide
    have inner : [text "case_id", text "response", text "expected_passed"].Nodup := by decide
    exact ⟨outer, trivial, ⟨trivial, ⟨inner, trivial, ⟨List.nodup_singleton _, trivial, trivial⟩,
      trivial, trivial⟩, trivial⟩, trivial⟩
  have same : reorderedLevels.Same boundedLevels.toDict := by decide +kernel
  have sameSuite : reorderedCases.Same (levelCases 2).toJson := by decide +kernel
  have evaluated : evaluateSuite (.json boundedLevels.toDict) (levelCases 2).toJson =
      .ok (suiteReport boundedLevels (levelCases 2)) := by decide +kernel
  exact (reordering_immaterial formed (formed.of_same same) suiteFormed
    (suiteFormed.of_same sameSuite) (formed.equal same) (suiteFormed.equal sameSuite)).1 _ |>.mp
      evaluated

end AgentTestbench

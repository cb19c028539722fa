import AgentTestbench.Cli.Failure
import AgentTestbench.Curation.Select
import AgentTestbench.Json.Accepted

/-! # Failures of policy validation

Whatever a policy holds, the error that refuses it can be reported: a message names only labels,
identifiers and keys that were checked before.
-/

namespace AgentTestbench

open AssociationList Fallible

/-! ## Structural checks -/

section Checks

variable {value : Json} {label : Text}

theorem decimal_encodable (value : Nat) : (decimal value).Encodable :=
  Text.encodable_of_ascii fun _ member => Text.decimal_ascii member

theorem ensureJsonValue_message (named : label.Encodable) {failure : ValueError}
    (failed : ensureJsonValue value label = .error failure) : failure.message.Encodable := by
  have joined : ∀ reason : Text, reason.Encodable → (label ++ reason).Encodable :=
    fun reason encodable => Text.encodable_append_iff.mpr ⟨named, encodable⟩
  rcases ensureLoop_failure failed with (rfl | rfl) | ⟨rfl | rfl, _⟩
  · exact joined _ (by decide)
  · exact joined _ (by decide)
  · exact joined _ (by decide)
  · exact joined _ (by decide)

theorem EncodeError.message_encodable (failure : EncodeError) : failure.message.Encodable := by
  cases failure <;> decide +kernel

theorem sizeLoop_message (named : label.Encodable) {limit total : Nat} {pieces : List Piece}
    {failure : ValueError} (failed : sizeLoop label limit total pieces = .error failure) :
    failure.message.Encodable := by
  induction pieces generalizing total with
  | nil => cases failed
  | cons piece rest induction =>
      cases piece with
      | error reason =>
          cases failed
          exact reason.message_encodable
      | ok chunk =>
          rw [sizeLoop] at failed
          split_ifs at failed with encodable long
          · cases failed
            rw [ValueError.message, Text.encodable_append_iff, Text.encodable_append_iff,
              Text.encodable_append_iff]
            exact ⟨⟨⟨named, by decide⟩, decimal_encodable limit⟩, by decide⟩
          · exact induction failed
          · cases failed
            exact (by decide : (text "surrogates not allowed").Encodable)

theorem checkJson_message (named : label.Encodable) {limit : Nat} {failure : ValueError}
    (failed : checkJson value label limit = .error failure) : failure.message.Encodable := by
  rcases bind_eq_error_iff.mp failed with structural | ⟨_, _, measured⟩
  · exact ensureJsonValue_message named structural
  · exact sizeLoop_message named measured

end Checks

/-! ## Located errors -/

/-- What an error may say of its place. -/
structure Location.Named (location : Location) : Prop where
  policyId : ∀ identifier ∈ location.policyId, identifier.Encodable
  ruleId : ∀ identifier ∈ location.ruleId, identifier.Encodable
  ruleIndex : ∀ index ∈ location.ruleIndex, index < maxPolicyRules

abbrev Reports {Value : Type} (computation : Except TestbenchError Value) : Prop :=
  FailsWith TestbenchError.Reportable computation

theorem identifier_encodable {identifier : Text} (named : isIdentifier identifier = true) :
    identifier.Encodable :=
  Text.encodable_of_ascii (isIdentifier_ascii named)

private theorem safeIdentifier_encodable {value : Option Json} :
    ∀ identifier ∈ safeIdentifier value, identifier.Encodable := by
  intro identifier safe
  unfold safeIdentifier at safe
  split at safe
  · split_ifs at safe with named
    · cases safe
      exact identifier_encodable named
    · cases Option.mem_def.mp safe
  · cases Option.mem_def.mp safe

theorem intercalate_encodable {separator : Text} {names : List Text}
    (separated : separator.Encodable) (each : ∀ name ∈ names, name.Encodable) :
    Text.Encodable (separator.intercalate names) := by
  induction names with
  | nil => exact List.forall_mem_nil _
  | cons name names induction =>
      rw [List.forall_mem_cons] at each
      cases names with
      | nil =>
          rw [List.intercalate_singleton]
          exact each.1
      | cons second others =>
          rw [List.intercalate_cons_cons, Text.encodable_append_iff, Text.encodable_append_iff]
          exact ⟨⟨each.1, separated⟩, induction each.2⟩

section Located

variable {location : Location} {label : Text}

theorem Location.Named.invalid (named : location.Named) {message : Text}
    (encodable : message.Encodable) : (location.invalid message).Reportable :=
  ⟨encodable, named.policyId, named.ruleId, named.ruleIndex⟩

/-- The usual message: a label and a fixed text. -/
theorem Location.Named.labelled (named : location.Named) (labelled : label.Encodable)
    {reason : Text} (encodable : reason.Encodable) :
    (location.invalid (label ++ reason)).Reportable :=
  named.invalid (Text.encodable_append_iff.mpr ⟨labelled, encodable⟩)

theorem checkExactKeys_reports (named : location.Named) (labelled : label.Encodable)
    {members : List (Text × Json)} {expected : List Text}
    (given : ∀ key ∈ keys members, key.Encodable) (known : ∀ key ∈ expected, key.Encodable) :
    Reports (checkExactKeys members expected label location) := by
  have joined : ∀ (prefixed : Text) (names : List Text), prefixed.Encodable →
      (∀ name ∈ names, name.Encodable) → (prefixed ++ joinComma (sortedTexts names)).Encodable := by
    intro prefixed names first each
    refine Text.encodable_append_iff.mpr ⟨first, intercalate_encodable (by decide) ?_⟩
    intro name member
    exact each name (List.mem_dedup.mp ((List.perm_insertionSort _ _).mem_iff.mp member))
  apply failsWith_require
  intro _
  apply named.invalid
  rw [Text.encodable_append_iff, Text.encodable_append_iff, Text.encodable_append_iff]
  refine ⟨⟨⟨labelled, by decide⟩, intercalate_encodable (by decide) ?_⟩, by decide⟩
  intro detail listed
  rcases List.mem_append.mp listed with missing | unknown
  · split_ifs at missing
    · cases missing
    · rw [List.mem_singleton.mp missing]
      exact joined _ _ (by decide) fun key member => known key (List.mem_filter.mp member).1
  · split_ifs at unknown
    · cases unknown
    · rw [List.mem_singleton.mp unknown]
      exact joined _ _ (by decide) fun key member => given key (List.mem_filter.mp member).1

theorem checkIdentifier_reports (named : location.Named) (labelled : label.Encodable)
    (value : Json) : Reports (checkIdentifier value label location) := by
  have invalid := named.labelled labelled
    (by decide : (text " is not a valid identifier.").Encodable)
  cases value with
  | string identifier =>
      apply failsWith_bind (failsWith_require fun _ => invalid)
      intro _ _
      exact failsWith_ok _
  | _ => exact failsWith_error invalid

private theorem checkPath_reports (named : location.Named) (labelled : label.Encodable)
    (value : Json) : Reports (checkPath value label location) := by
  have invalid := named.labelled labelled
    (by decide : (text " is not a valid object field path.").Encodable)
  have long := named.labelled labelled
    (by decide : (text " exceeds the 32-segment path limit.").Encodable)
  cases value with
  | string path =>
      apply failsWith_bind (failsWith_require fun _ => invalid)
      intro _ _
      apply failsWith_bind (failsWith_require fun _ => long)
      intro _ _
      exact failsWith_ok _
  | _ => exact failsWith_error invalid

theorem checkJsonValue_reports (named : location.Named) (labelled : label.Encodable)
    (value : Json) : Reports (checkJsonValue value label location) := by
  apply failsWith_bind
  · apply failsWith_mapError
    intro cause raised
    exact named.invalid (ensureJsonValue_message labelled raised)
  · intro _ _
    apply failsWith_mapError
    intro cause _
    exact named.invalid cause.message_encodable

private theorem checkValues_reports (named : location.Named) (labelled : label.Encodable)
    {seen : List Text} {values : List Json} :
    Reports (checkValues label location seen values) := by
  induction values generalizing seen with
  | nil => exact failsWith_ok _
  | cons value rest induction =>
      apply failsWith_bind
      · exact checkJsonValue_reports named
          (Text.encodable_append_iff.mpr ⟨labelled, by decide⟩) value
      · intro marker _
        apply failsWith_bind (failsWith_require fun _ => named.labelled labelled (by decide))
        intro _ _
        exact induction

private theorem checkTypes_reports (named : location.Named) (labelled : label.Encodable)
    (rawTypes : Json) : Reports (checkTypes rawTypes label location) := by
  have listed : (joinComma (jsonTypeNames.map Json.TypeName.name)).Encodable := by decide
  unfold checkTypes
  split
  · exact failsWith_error (named.labelled labelled (by decide))
  · exact failsWith_error (named.labelled labelled (by decide))
  · split
    · apply failsWith_error
      apply named.invalid
      rw [Text.encodable_append_iff, Text.encodable_append_iff, Text.encodable_append_iff]
      exact ⟨⟨⟨labelled, by decide⟩, listed⟩, by decide⟩
    · apply failsWith_bind (failsWith_require fun _ => named.labelled labelled (by decide))
      intro _ _
      apply failsWith_bind (failsWith_require fun _ => named.labelled labelled (by decide))
      intro _ _
      apply failsWith_bind (failsWith_require fun _ => named.labelled labelled (by decide))
      intro _ _
      exact failsWith_ok _

private theorem checkRangeBound_reports (named : location.Named) (labelled : label.Encodable)
    (members : List (Text × Json)) {field : Text} (known : field.Encodable) :
    Reports (checkRangeBound members field label location) := by
  have invalid : (location.invalid (label ++ text " " ++ field ++
      text " must be a finite JSON number.")).Reportable := by
    apply named.invalid
    rw [Text.encodable_append_iff, Text.encodable_append_iff, Text.encodable_append_iff]
    exact ⟨⟨⟨labelled, by decide⟩, known⟩, by decide⟩
  unfold checkRangeBound
  split
  · exact failsWith_ok _
  · split
    · exact failsWith_ok _
    · exact failsWith_error invalid
  · exact failsWith_error invalid

private theorem checkLengthBound_reports (named : location.Named) (labelled : label.Encodable)
    (members : List (Text × Json)) {field : Text} (known : field.Encodable) :
    Reports (checkLengthBound members field label location) := by
  have invalid : (location.invalid (label ++ text " " ++ field ++
      text " must be an integer from 0 to 1,000,000.")).Reportable := by
    apply named.invalid
    rw [Text.encodable_append_iff, Text.encodable_append_iff, Text.encodable_append_iff]
    exact ⟨⟨⟨labelled, by decide⟩, known⟩, by decide⟩
  unfold checkLengthBound
  split
  · exact failsWith_ok _
  · apply failsWith_bind (failsWith_require fun _ => invalid)
    intro _ _
    exact failsWith_ok _
  · exact failsWith_error invalid

theorem checkBounds_reports (named : location.Named) (labelled : label.Encodable) {Limit : Type}
    [DecidableEq Limit] {checkBound : Text → Except TestbenchError (Option Limit)}
    {le : Limit → Limit → Bool}
    (each : ∀ field : Text, field.Encodable → Reports (checkBound field)) :
    Reports (checkBounds checkBound le label location) := by
  apply failsWith_bind (each _ (by decide))
  intro minimum _
  apply failsWith_bind (each _ (by decide))
  intro maximum _
  apply failsWith_bind (failsWith_require fun _ => named.labelled labelled (by decide))
  intro _ _
  apply failsWith_bind (failsWith_require fun _ => named.labelled labelled (by decide))
  intro _ _
  exact failsWith_ok _

private theorem checkConstraint_reports (named : location.Named) (labelled : label.Encodable)
    (kind : RuleKind) (members : List (Text × Json)) :
    Reports (checkConstraint kind members label location) := by
  cases kind with
  | requiredField => exact failsWith_ok _
  | false => exact failsWith_ok _
  | emptyList => exact failsWith_ok _
  | equals =>
      apply failsWith_bind
      · exact checkJsonValue_reports named (Text.encodable_append_iff.mpr ⟨labelled, by decide⟩) _
      · intro _ _
        exact failsWith_ok _
  | oneOf =>
      have empty := named.labelled labelled
        (by decide : (text " values must be a non-empty JSON array.").Encodable)
      unfold checkConstraint
      simp only
      split
      · apply failsWith_bind (failsWith_require fun _ => empty)
        intro _ _
        apply failsWith_bind (failsWith_require fun _ => named.labelled labelled (by decide))
        intro _ _
        apply failsWith_bind (checkValues_reports named labelled)
        intro _ _
        exact failsWith_ok _
      · exact failsWith_error empty
  | type =>
      apply failsWith_bind (checkTypes_reports named labelled _)
      intro _ _
      exact failsWith_ok _
  | range =>
      apply failsWith_bind
      · exact checkBounds_reports named labelled fun field known =>
          checkRangeBound_reports named labelled members known
      · intro _ _
        exact failsWith_ok _
  | length =>
      apply failsWith_bind
      · exact checkBounds_reports named labelled fun field known =>
          checkLengthBound_reports named labelled members known
      · intro _ _
        exact failsWith_ok _

end Located

/-! ## Rules and policies -/

private theorem ruleLabel_encodable (index : Nat) {ruleId : Option Text}
    (named : ∀ identifier ∈ ruleId, identifier.Encodable) : (ruleLabel index ruleId).Encodable := by
  cases ruleId with
  | none => exact Text.encodable_append_iff.mpr ⟨by decide, decimal_encodable index⟩
  | some identifier =>
      rw [ruleLabel, quoted, Text.encodable_append_iff, Text.encodable_append_iff,
        Text.encodable_append_iff, Text.encodable_append_iff, Text.encodable_append_iff]
      exact ⟨⟨⟨by decide, ⟨by decide, named identifier rfl⟩, by decide⟩, by decide⟩,
        decimal_encodable index⟩

private theorem expectedKeys_encodable (kind : RuleKind) (members : List (Text × Json)) :
    ∀ key ∈ expectedKeys kind members, key.Encodable := by
  have bounds : ∀ key ∈ [text "minimum", text "maximum"].filter (· ∈ keys members),
      key.Encodable := by
    intro key member
    have named : ∀ key ∈ [text "minimum", text "maximum"], key.Encodable := by decide
    exact named key (List.mem_filter.mp member).1
  have first : ∀ key ∈ [text "rule_id", text "kind", text "path"], key.Encodable := by decide
  rw [expectedKeys, List.forall_mem_append]
  refine ⟨first, ?_⟩
  cases kind with
  | range => exact bounds
  | length => exact bounds
  | _ =>
      simp only [RuleKind.constraintKeys]
      decide

section Rules

variable {allowedKinds : List RuleKind} {policyId : Text}

/-- The keys of a rule that is refused for its keys are those of a portable policy. -/
theorem validateRule_reports (policyNamed : policyId.Encodable) {index : Nat}
    (few : index < maxPolicyRules) (seenRuleIds : List Text) {rawRule : Json}
    (portable : rawRule.Portable) :
    Reports (validateRule allowedKinds policyId index seenRuleIds rawRule) := by
  have hinted := @safeIdentifier_encodable (rawRule.member? (text "rule_id"))
  have labelled := ruleLabel_encodable index hinted
  have named : Location.Named
      ⟨some policyId, safeIdentifier (rawRule.member? (text "rule_id")), some index⟩ := by
    refine ⟨?_, hinted, ?_⟩
    · intro identifier given
      cases given
      exact policyNamed
    · intro position given
      cases given
      exact few
  cases rawRule with
  | object members =>
      unfold validateRule
      simp only
      split
      · exact failsWith_error (named.labelled labelled (by decide))
      · rename_i kind _
        have given := (Json.portable_object_iff.mp portable).1
        apply failsWith_bind
        · exact checkExactKeys_reports named labelled given (expectedKeys_encodable kind members)
        intro _ _
        apply failsWith_bind
        · exact checkIdentifier_reports named
            (Text.encodable_append_iff.mpr ⟨labelled, by decide⟩) _
        intro ruleId _
        apply failsWith_bind (failsWith_require fun _ => named.labelled labelled (by decide))
        intro _ _
        apply failsWith_bind
        · exact checkPath_reports named (Text.encodable_append_iff.mpr ⟨labelled, by decide⟩) _
        intro path _
        apply failsWith_bind (checkConstraint_reports named labelled kind members)
        intro constraint _
        exact failsWith_ok _
  | _ => exact failsWith_error (named.labelled labelled (by decide))

private theorem validateRules_reports (policyNamed : policyId.Encodable) {index : Nat}
    {seenRuleIds : List Text} {rawRules : List Json}
    (few : index + rawRules.length ≤ maxPolicyRules) (portable : ∀ raw ∈ rawRules, raw.Portable) :
    Reports (validateRules allowedKinds policyId index seenRuleIds rawRules) := by
  induction rawRules generalizing index seenRuleIds with
  | nil => exact failsWith_ok _
  | cons rawRule rest induction =>
      rw [List.length_cons] at few
      rw [List.forall_mem_cons] at portable
      apply failsWith_bind
      · exact validateRule_reports policyNamed (by omega) seenRuleIds portable.1
      intro rule _
      apply failsWith_bind (induction (by omega) portable.2)
      intro rules _
      exact failsWith_ok _

end Rules

private theorem Location.named_none : Location.Named {} := by
  constructor <;> exact fun _ given => absurd given (Option.not_mem_none _)

private theorem validateRawPolicy_reports (rawPolicy : Json) :
    Reports (validateRawPolicy rawPolicy) := by
  have unlocated := Location.named_none
  cases rawPolicy with
  | object members =>
      have keyNames : ∀ key ∈ [text "schema_version", text "policy_id", text "rules"],
          key.Encodable := by
        decide
      apply failsWith_bind
      · apply failsWith_mapError
        intro cause raised
        exact unlocated.invalid (checkJson_message (by decide) raised)
      intro size checked
      rw [mapError_eq_ok_iff, checkJson_eq_ok_iff] at checked
      have portable := Json.portable_object_iff.mp checked.1.portable
      apply failsWith_bind
      · exact checkExactKeys_reports unlocated (by decide) portable.1 keyNames
      intro _ exactKeys
      split
      · exact failsWith_error (unlocated.invalid (by decide))
      apply failsWith_bind (checkIdentifier_reports unlocated (by decide) _)
      intro policyId identified
      have encodable : policyId.Encodable :=
        identifier_encodable (checkIdentifier_eq_ok_iff.mp identified).2
      have named : Location.Named { policyId := some policyId } := by
        refine ⟨?_, unlocated.ruleId, unlocated.ruleIndex⟩
        intro identifier given
        cases given
        exact encodable
      have labelled : (text "Policy " ++ quoted policyId).Encodable := by
        rw [quoted, Text.encodable_append_iff, Text.encodable_append_iff,
          Text.encodable_append_iff]
        exact ⟨by decide, ⟨by decide, encodable⟩, by decide⟩
      have empty := named.labelled labelled
        (by decide : (text " rules must be a non-empty JSON array.").Encodable)
      simp only
      split
      · rename_i rawRules ruleList
        apply failsWith_bind (failsWith_require fun _ => empty)
        intro _ _
        apply failsWith_bind (failsWith_require fun _ => named.labelled labelled (by decide))
        intro _ few
        rw [require_eq_ok_iff] at few
        apply failsWith_bind
        · apply validateRules_reports encodable (by omega)
          have present := (checkExactKeys_eq_ok_iff.mp exactKeys (text "rules")).mpr (by decide)
          have member := mem_of_lookup_eq_some (lookup_of_field present)
          rw [ruleList] at member
          exact Json.portable_array_iff.mp (portable.2 _ member)
        intro _ _
        exact failsWith_ok _
      · exact failsWith_error empty
  | _ => exact failsWith_error (unlocated.invalid (by decide))

theorem validatePolicy_reports (raw : Json) : Reports (validatePolicy (.json raw)) :=
  validateRawPolicy_reports raw

end AgentTestbench

import AgentTestbench.Policy.Valid

/-! # Valid policies

The relation between an accepted value and the policy read off it. It holds between
a valid policy and its own dictionary, so that validating again changes nothing.
-/

namespace AgentTestbench

open AssociationList Fallible

/-! ## Constraints -/

def Constraint.Valid : Constraint → Prop
  | .equals value => value.Checked
  | .oneOf values =>
      values ≠ [] ∧ values.length ≤ maxOneOfValues ∧ (∀ value ∈ values, value.Checked) ∧
        values.Pairwise fun left right => ¬left.Same right
  | .type types => TypesValid types
  | .range minimum maximum =>
      ¬(minimum = none ∧ maximum = none) ∧
        Ordered (fun lower upper => lower.toNumber.le upper.toNumber) minimum maximum
  | .length minimum maximum =>
      ¬(minimum = none ∧ maximum = none) ∧
        Ordered (fun lower upper => lower ≤ upper) minimum maximum ∧
        (∀ limit ∈ minimum, limit ≤ maxLengthBound) ∧ ∀ limit ∈ maximum, limit ≤ maxLengthBound
  | _ => True

/-- The members a constraint was read from. -/
def Constraint.ReadFrom (members : List (Text × Json)) : Constraint → Prop
  | .equals value => field members (text "value") = value
  | .oneOf values => field members (text "values") = .array values
  | .type types => field members (text "types") = typesJson types
  | .range minimum maximum =>
      (lookup (text "minimum") members = minimum.map fun limit => Json.number limit.toNumber) ∧
        lookup (text "maximum") members = maximum.map fun limit => Json.number limit.toNumber
  | .length minimum maximum =>
      (lookup (text "minimum") members = minimum.map fun limit : Nat => Json.number (.integer limit)) ∧
        lookup (text "maximum") members = maximum.map fun limit : Nat => Json.number (.integer limit)
  | _ => True

private theorem checkConstraint_eq_ok_iff {kind : RuleKind} {members : List (Text × Json)}
    {label : Text} {location : Location} {constraint : Constraint} :
    checkConstraint kind members label location = .ok constraint ↔
      constraint.kind = kind ∧ constraint.Valid ∧ constraint.ReadFrom members := by
  cases kind with
  | requiredField =>
      cases constraint <;>
        simp [checkConstraint, Constraint.kind, Constraint.Valid, Constraint.ReadFrom]
  | false =>
      cases constraint <;>
        simp [checkConstraint, Constraint.kind, Constraint.Valid, Constraint.ReadFrom]
  | emptyList =>
      cases constraint <;>
        simp [checkConstraint, Constraint.kind, Constraint.Valid, Constraint.ReadFrom]
  | equals =>
      simp only [checkConstraint, bind_eq_ok_iff, checkJsonValue_eq_ok_iff, Except.ok.injEq]
      cases constraint with
      | equals value =>
          simp only [Constraint.equals.injEq, Constraint.kind, Constraint.Valid,
            Constraint.ReadFrom, true_and]
          constructor
          · intro accepted
            rcases accepted with ⟨_, ⟨checked, _⟩, rfl⟩
            exact ⟨checked, rfl⟩
          · intro valid
            rcases valid with ⟨checked, rfl⟩
            exact ⟨_, ⟨checked, rfl⟩, rfl⟩
      | _ => simp [Constraint.kind]
  | oneOf =>
      rw [checkConstraint]
      split
      · rename_i values found
        simp only [bind_eq_ok_iff, require_eq_ok_iff, checkValues_eq_ok_iff, Except.ok.injEq,
          List.not_mem_nil, not_false_eq_true, and_true]
        cases constraint with
        | oneOf others =>
            simp only [Constraint.oneOf.injEq, Constraint.kind, Constraint.Valid,
              Constraint.ReadFrom, true_and, found, Json.array.injEq]
            constructor
            · intro accepted
              rcases accepted with ⟨_, nonempty, _, short, _, ⟨checked, distinct⟩, rfl⟩
              exact ⟨⟨nonempty, short, checked, distinct⟩, rfl⟩
            · intro valid
              rcases valid with ⟨⟨nonempty, short, checked, distinct⟩, rfl⟩
              exact ⟨(), nonempty, (), short, (), ⟨checked, distinct⟩, rfl⟩
        | _ => simp [Constraint.kind]
      · rename_i notArray
        cases constraint with
        | oneOf others =>
            simp only [reduceCtorEq, Constraint.ReadFrom, false_iff, not_and]
            intro _ _ found
            exact notArray _ found
        | _ => simp [Constraint.kind]
  | type =>
      simp only [checkConstraint, bind_eq_ok_iff, checkTypes_eq_ok_iff, Except.ok.injEq]
      cases constraint with
      | type types =>
          simp only [Constraint.type.injEq, Constraint.kind, Constraint.Valid,
            Constraint.ReadFrom, true_and]
          constructor
          · intro accepted
            rcases accepted with ⟨_, ⟨found, valid⟩, rfl⟩
            exact ⟨valid, found⟩
          · intro accepted
            exact ⟨types, ⟨accepted.2, accepted.1⟩, rfl⟩
      | _ => simp [Constraint.kind]
  | range =>
      simp only [checkConstraint, bind_eq_ok_iff, Except.ok.injEq, Prod.exists,
        checkBounds_eq_ok_iff, checkRangeBound_eq_ok_iff]
      cases constraint with
      | range minimum maximum =>
          simp only [Constraint.range.injEq, Constraint.kind, Constraint.Valid,
            Constraint.ReadFrom, true_and]
          constructor
          · intro accepted
            rcases accepted with ⟨_, _, ⟨lower, upper, declared, ordered⟩, rfl, rfl⟩
            exact ⟨⟨declared, ordered⟩, lower, upper⟩
          · intro accepted
            rcases accepted with ⟨⟨declared, ordered⟩, lower, upper⟩
            exact ⟨minimum, maximum, ⟨lower, upper, declared, ordered⟩, rfl, rfl⟩
      | _ => simp [Constraint.kind]
  | length =>
      simp only [checkConstraint, bind_eq_ok_iff, Except.ok.injEq, Prod.exists,
        checkBounds_eq_ok_iff, checkLengthBound_eq_ok_iff]
      cases constraint with
      | length minimum maximum =>
          simp only [Constraint.length.injEq, Constraint.kind, Constraint.Valid,
            Constraint.ReadFrom, true_and]
          constructor
          · intro accepted
            rcases accepted with
              ⟨_, _, ⟨⟨lower, lowest⟩, ⟨upper, highest⟩, declared, ordered⟩, rfl, rfl⟩
            exact ⟨⟨declared, ordered, lowest, highest⟩, lower, upper⟩
          · intro accepted
            rcases accepted with ⟨⟨declared, ordered, lowest, highest⟩, lower, upper⟩
            exact ⟨minimum, maximum, ⟨⟨lower, lowest⟩, ⟨upper, highest⟩, declared, ordered⟩,
              rfl, rfl⟩
      | _ => simp [Constraint.kind]

/-! ## Rules -/

structure Rule.Valid (rule : Rule) : Prop where
  identifier : isIdentifier rule.ruleId = true
  path : isPath rule.path = true
  segments : rule.path.splitStops.length ≤ maxJsonNesting
  constraint : rule.constraint.Valid

/-- The JSON object a rule was read from. -/
structure Rule.ReadFrom (allowedKinds : List RuleKind) (raw : Json) (rule : Rule) : Prop where
  valid : rule.Valid
  allowed : rule.kind ∈ allowedKinds
  object : ∃ members, raw = .object members ∧
    lookup (text "kind") members = some (.string rule.kind.name) ∧
    (∀ key, key ∈ keys members ↔ key ∈ expectedKeys rule.kind members) ∧
    field members (text "rule_id") = .string rule.ruleId ∧
    field members (text "path") = .string rule.path ∧ rule.constraint.ReadFrom members

theorem kindOf?_eq_some_iff {allowedKinds : List RuleKind} {members : List (Text × Json)}
    {kind : RuleKind} :
    kindOf? allowedKinds members = some kind ↔
      kind ∈ allowedKinds ∧ lookup (text "kind") members = some (.string kind.name) := by
  rw [kindOf?]
  split
  · rename_i name found
    rw [find?_name_eq_some_iff RuleKind.name_injective, found, Option.some.injEq,
      Json.string.injEq]
    exact and_congr_right fun _ => ⟨Eq.symm, Eq.symm⟩
  · rename_i notText
    simp only [reduceCtorEq, false_iff, not_and]
    intro _ found
    exact notText _ found

private theorem validateRule_eq_ok_iff {allowedKinds : List RuleKind} {policyId : Text}
    {index : Nat} {seen : List Text} {raw : Json} {rule : Rule} :
    validateRule allowedKinds policyId index seen raw = .ok rule ↔
      rule.ReadFrom allowedKinds raw ∧ rule.ruleId ∉ seen := by
  cases raw with
  | object members =>
      simp only [validateRule]
      cases found : kindOf? allowedKinds members with
      | none =>
          simp only [reduceCtorEq, false_iff, not_and]
          intro read
          rcases read.object with ⟨_, equal, named, _⟩
          cases equal
          have known := kindOf?_eq_some_iff.mpr ⟨read.allowed, named⟩
          cases found.symm.trans known
      | some kind =>
          have named := kindOf?_eq_some_iff.mp found
          simp only [bind_eq_ok_iff, checkExactKeys_eq_ok_iff, checkIdentifier_eq_ok_iff,
            require_eq_ok_iff, checkPath_eq_ok_iff, checkConstraint_eq_ok_iff, Except.ok.injEq]
          constructor
          · intro accepted
            rcases accepted with ⟨_, exactKeys, ruleId, ⟨idField, identifier⟩, _, fresh, path,
              ⟨pathField, wellFormed, segments⟩, constraint, ⟨rfl, valid, read⟩, rfl⟩
            exact ⟨⟨⟨identifier, wellFormed, segments, valid⟩, named.1, members, rfl, named.2,
              exactKeys, idField, pathField, read⟩, fresh⟩
          · intro accepted
            rcases accepted with ⟨⟨valid, allowed, others, equal, kindField, exactKeys, idField,
              pathField, read⟩, fresh⟩
            cases equal
            have sameKind := Option.some.inj
              (found.symm.trans (kindOf?_eq_some_iff.mpr ⟨allowed, kindField⟩))
            subst sameKind
            exact ⟨(), exactKeys, rule.ruleId, ⟨idField, valid.identifier⟩, (), fresh, rule.path,
              ⟨pathField, valid.path, valid.segments⟩, rule.constraint,
              ⟨rfl, valid.constraint, read⟩, rfl⟩
  | _ =>
      simp only [validateRule, reduceCtorEq, false_iff, not_and]
      intro read
      rcases read.object with ⟨_, equal, _⟩
      cases equal

/-- The loop over the rules: each is read off its own object, and identifiers are new. -/
theorem validateRules_eq_ok_iff {allowedKinds : List RuleKind} {policyId : Text} {index : Nat}
    {seen : List Text} {raws : List Json} {rules : List Rule} :
    validateRules allowedKinds policyId index seen raws = .ok rules ↔
      List.Forall₂ (Rule.ReadFrom allowedKinds) raws rules ∧
        (rules.map Rule.ruleId).Nodup ∧ ∀ rule ∈ rules, rule.ruleId ∉ seen := by
  induction raws generalizing index seen rules with
  | nil => cases rules <;> simp [validateRules]
  | cons raw raws induction =>
      cases rules with
      | nil => simp [validateRules, bind_eq_ok_iff]
      | cons rule rules =>
          rw [List.forall₂_cons, List.map_cons, List.nodup_cons, List.forall_mem_cons]
          simp only [validateRules, bind_eq_ok_iff, validateRule_eq_ok_iff, induction,
            Except.ok.injEq, List.cons.injEq, List.mem_cons, not_or, forall_and]
          constructor
          · intro accepted
            rcases accepted with ⟨_, ⟨read, fresh⟩, _, ⟨rest, distinct, apart, old⟩, rfl, rfl⟩
            refine ⟨⟨read, rest⟩, ⟨fun repeated => ?_, distinct⟩, fresh, old⟩
            rcases List.mem_map.mp repeated with ⟨other, member, equal⟩
            exact apart other member equal
          · intro accepted
            rcases accepted with ⟨⟨read, rest⟩, ⟨new, distinct⟩, fresh, old⟩
            refine ⟨rule, ⟨read, fresh⟩, rules, ⟨rest, distinct, fun other member equal => ?_, old⟩,
              rfl, rfl⟩
            exact new (equal ▸ List.mem_map_of_mem member)

/-! ## Policies -/

/-- What `validate_policy` establishes about the policy it returns. No condition
depends on the order of the rules. -/
structure Policy.Valid (policy : Policy) : Prop where
  identifier : isIdentifier policy.policyId = true
  nonempty : policy.rules ≠ []
  count : policy.rules.length ≤ maxPolicyRules
  distinct : (policy.rules.map Rule.ruleId).Nodup
  rules : ∀ rule ∈ policy.rules, rule.Valid
  allowed : ∀ rule ∈ policy.rules, rule.kind ∈ policy.schemaVersion.ruleKinds
  fits : policy.toDict.FitsLimits maxJsonInputBytes

/-- The JSON object a policy was read from. -/
structure Policy.ReadFrom (raw : Json) (policy : Policy) : Prop where
  fits : raw.FitsLimits maxJsonInputBytes
  identifier : isIdentifier policy.policyId = true
  nonempty : policy.rules ≠ []
  count : policy.rules.length ≤ maxPolicyRules
  distinct : (policy.rules.map Rule.ruleId).Nodup
  object : ∃ members rawRules, raw = .object members ∧
    (∀ key, key ∈ keys members ↔
      key ∈ [text "schema_version", text "policy_id", text "rules"]) ∧
    field members (text "schema_version") = .string policy.schemaVersion.name ∧
    field members (text "policy_id") = .string policy.policyId ∧
    field members (text "rules") = .array rawRules ∧
    List.Forall₂ (Rule.ReadFrom policy.schemaVersion.ruleKinds) rawRules policy.rules

theorem SchemaVersion.name_injective : Function.Injective SchemaVersion.name := by
  intro left right equal
  cases left <;> cases right <;> first | rfl | exact absurd equal (by decide)

theorem supported_find?_eq_some_iff {value : Json} {version : SchemaVersion} :
    SchemaVersion.supported.find? (fun known => Json.string known.name = value) = some version ↔
      value = .string version.name := by
  have injective : Function.Injective fun known : SchemaVersion => Json.string known.name := by
    intro left right equal
    exact SchemaVersion.name_injective (Json.string.inj equal)
  have listed : version ∈ SchemaVersion.supported := by cases version <;> decide
  rw [find?_name_eq_some_iff injective, and_iff_right listed]
  exact ⟨Eq.symm, Eq.symm⟩

theorem validateRawPolicy_eq_ok_iff {raw : Json} {policy : Policy} :
    validateRawPolicy raw = .ok policy ↔ policy.ReadFrom raw := by
  cases raw with
  | object members =>
      simp only [validateRawPolicy, bind_eq_ok_iff, mapError_eq_ok_iff, checkJson_eq_ok_iff,
        checkExactKeys_eq_ok_iff]
      constructor
      · intro accepted
        rcases accepted with ⟨_, ⟨fits, _⟩, _, exactKeys, accepted⟩
        split at accepted
        · cases accepted
        · rename_i version supported
          simp only [bind_eq_ok_iff, checkIdentifier_eq_ok_iff] at accepted
          rcases accepted with ⟨policyId, ⟨idField, identifier⟩, accepted⟩
          split at accepted
          · rename_i rawRules rulesField
            simp only [bind_eq_ok_iff, require_eq_ok_iff, validateRules_eq_ok_iff,
              Except.ok.injEq] at accepted
            rcases accepted with ⟨_, nonempty, _, count, rules, ⟨read, distinct, _⟩, rfl⟩
            refine ⟨fits, identifier, ?_, read.length_eq ▸ count, distinct, members, rawRules, rfl,
              exactKeys, supported_find?_eq_some_iff.mp supported, idField, rulesField, read⟩
            intro empty
            cases empty
            cases read
            exact nonempty rfl
          · cases accepted
      · intro read
        rcases read.object with ⟨_, rawRules, equal, exactKeys, versionField, idField, rulesField,
          rulesRead⟩
        cases equal
        have rawNonempty : rawRules ≠ [] := by
          intro empty
          cases empty
          exact read.nonempty (List.forall₂_nil_left_iff.mp rulesRead)
        refine ⟨_, ⟨read.fits, rfl⟩, (), exactKeys, ?_⟩
        rw [supported_find?_eq_some_iff.mpr versionField]
        simp only [bind_eq_ok_iff, checkIdentifier_eq_ok_iff]
        refine ⟨policy.policyId, ⟨idField, read.identifier⟩, ?_⟩
        rw [rulesField]
        simp only [bind_eq_ok_iff, require_eq_ok_iff, validateRules_eq_ok_iff, Except.ok.injEq]
        exact ⟨(), rawNonempty, (), rulesRead.length_eq ▸ read.count, policy.rules,
          ⟨rulesRead, read.distinct, fun _ _ => List.not_mem_nil⟩, rfl⟩
  | _ =>
      simp only [validateRawPolicy, reduceCtorEq, false_iff]
      intro read
      rcases read.object with ⟨_, _, equal, _⟩
      cases equal

/-! ## Export -/

theorem lookup_of_field {members : List (Text × Json)} {key : Text}
    (present : key ∈ keys members) : lookup key members = some (field members key) := by
  rcases Option.isSome_iff_exists.mp (lookup_isSome_iff_mem_keys.mpr present) with ⟨value, found⟩
  rw [field, found]
  rfl

theorem boundMember_found {members : List (Text × Json)} {key : Text} {bound : Option Number}
    (found : lookup key members = bound.map Json.number) :
    ∀ member ∈ boundMember key bound, lookup member.1 members = some member.2 := by
  cases bound with
  | none => exact nofun
  | some number =>
      intro member inMembers
      cases List.mem_singleton.mp inMembers
      exact found

/-- Exported constraint members are found where the constraint was read. -/
theorem Constraint.ReadFrom.found {members : List (Text × Json)} {constraint : Constraint}
    (read : constraint.ReadFrom members)
    (present : ∀ key ∈ expectedKeys constraint.kind members, key ∈ keys members) :
    ∀ member ∈ constraint.members, lookup member.1 members = some member.2 := by
  have single : ∀ key value, key ∈ expectedKeys constraint.kind members →
      field members key = value → ∀ member ∈ [(key, value)],
        lookup member.1 members = some member.2 := by
    intro key value expected equal member inMembers
    cases List.mem_singleton.mp inMembers
    exact equal ▸ lookup_of_field (present key expected)
  cases constraint with
  | equals value => exact single _ _ (by simp [expectedKeys, Constraint.kind, RuleKind.constraintKeys]) read
  | oneOf values => exact single _ _ (by simp [expectedKeys, Constraint.kind, RuleKind.constraintKeys]) read
  | type types => exact single _ _ (by simp [expectedKeys, Constraint.kind, RuleKind.constraintKeys]) read
  | range minimum maximum =>
      rw [Constraint.members, List.forall_mem_append]
      exact ⟨boundMember_found (by rw [read.1, Option.map_map]; rfl),
        boundMember_found (by rw [read.2, Option.map_map]; rfl)⟩
  | length minimum maximum =>
      rw [Constraint.members, List.forall_mem_append]
      exact ⟨boundMember_found (by rw [read.1, Option.map_map]; rfl),
        boundMember_found (by rw [read.2, Option.map_map]; rfl)⟩
  | _ =>
      intro member inMembers
      cases inMembers

theorem keys_boundMember_sublist (key : Text) (bound : Option Number) :
    (keys (boundMember key bound)).Sublist [key] := by
  cases bound with
  | none => exact List.nil_sublist _
  | some number => exact List.Sublist.refl _

private theorem Constraint.keys_members_sublist (constraint : Constraint) :
    (keys constraint.members).Sublist
      [text "value", text "values", text "types", text "minimum", text "maximum"] := by
  have bounds : [text "minimum", text "maximum"].Sublist
      [text "value", text "values", text "types", text "minimum", text "maximum"] := by
    decide
  cases constraint with
  | equals value => exact List.singleton_sublist.mpr (by simp)
  | oneOf values => exact List.singleton_sublist.mpr (by simp)
  | type types => exact List.singleton_sublist.mpr (by simp)
  | range minimum maximum =>
      rw [Constraint.members, keys, List.map_append]
      exact ((keys_boundMember_sublist _ _).append (keys_boundMember_sublist _ _)).trans bounds
  | length minimum maximum =>
      rw [Constraint.members, keys, List.map_append]
      exact ((keys_boundMember_sublist _ _).append (keys_boundMember_sublist _ _)).trans bounds
  | _ => exact List.nil_sublist _

theorem Rule.keys_members_nodup (rule : Rule) : (keys rule.members).Nodup := by
  have distinct : [text "kind", text "path", text "rule_id", text "value", text "values",
      text "types", text "minimum", text "maximum"].Nodup := by
    decide
  exact distinct.sublist
    (((rule.constraint.keys_members_sublist.cons_cons _).cons_cons _).cons_cons _)

/-- Exported members are found where the rule was read. -/
theorem Rule.ReadFrom.found {allowedKinds : List RuleKind} {members : List (Text × Json)}
    {rule : Rule} (read : rule.ReadFrom allowedKinds (.object members)) :
    ∀ member ∈ rule.members, lookup member.1 members = some member.2 := by
  rcases read.object with ⟨_, equal, kindField, exactKeys, idField, pathField, constraintRead⟩
  cases equal
  have present := fun key => (exactKeys key).mpr
  have named : ∀ key content, key ∈ expectedKeys rule.kind members →
      field members key = .string content → lookup key members = some (.string content) := by
    intro key content expected equal
    exact equal ▸ lookup_of_field (present key expected)
  rw [Rule.members, List.forall_mem_cons, List.forall_mem_cons, List.forall_mem_cons]
  refine ⟨kindField, named _ _ ?_ pathField, named _ _ ?_ idField, constraintRead.found present⟩
  · simp [expectedKeys]
  · simp [expectedKeys]

theorem Rule.ReadFrom.within {allowedKinds : List RuleKind} {raw : Json} {rule : Rule}
    (read : rule.ReadFrom allowedKinds raw) : (Json.object rule.members).Within raw := by
  rcases read.object with ⟨members, rfl, _⟩
  apply Json.within_object rule.keys_members_nodup
  intro member inMembers
  exact ⟨_, read.found member inMembers, Json.Within.refl _⟩

theorem Policy.ReadFrom.within {raw : Json} {policy : Policy} (read : policy.ReadFrom raw) :
    policy.toDict.Within raw := by
  rcases read.object with
    ⟨members, rawRules, rfl, exactKeys, versionField, idField, rulesField, rulesRead⟩
  have present : ∀ key ∈ [text "schema_version", text "policy_id", text "rules"],
      lookup key members = some (field members key) :=
    fun key expected => lookup_of_field ((exactKeys key).mpr expected)
  have rules : (Json.array (policy.rules.map fun rule => Json.object rule.members)).Within
      (.array rawRules) := by
    apply Json.within_array
    rw [List.forall₂_map_left_iff]
    exact rulesRead.flip.imp fun _ _ => Rule.ReadFrom.within
  rw [Policy.toDict_eq]
  apply Json.within_object
  · change [text "policy_id", text "rules", text "schema_version"].Nodup
    decide
  · rw [List.forall_mem_cons, List.forall_mem_cons, List.forall_mem_singleton]
    refine ⟨⟨_, present _ (by simp), ?_⟩, ⟨_, present _ (by simp), ?_⟩, _,
      present _ (by simp), ?_⟩
    · exact idField ▸ Json.Within.refl _
    · exact rulesField ▸ rules
    · exact versionField ▸ Json.Within.refl _

theorem Policy.ReadFrom.valid {raw : Json} {policy : Policy} (read : policy.ReadFrom raw) :
    policy.Valid := by
  rcases read.object with ⟨_, rawRules, _, _, _, _, _, rulesRead⟩
  have each : ∀ rule ∈ policy.rules, ∃ rawRule, rule.ReadFrom policy.schemaVersion.ruleKinds
      rawRule := by
    intro rule member
    rcases exists_of_mem_right rulesRead member with ⟨rawRule, _, ruleRead⟩
    exact ⟨rawRule, ruleRead⟩
  exact {
    identifier := read.identifier
    nonempty := read.nonempty
    count := read.count
    distinct := read.distinct
    rules := fun rule member => (each rule member).elim fun _ ruleRead => ruleRead.valid
    allowed := fun rule member => (each rule member).elim fun _ ruleRead => ruleRead.allowed
    fits := read.within.fitsLimits read.fits }

/-! ## Validating again -/

theorem lookup_bounds (minimum maximum : Option Number) :
    lookup (text "minimum") (boundMember (text "minimum") minimum ++
        boundMember (text "maximum") maximum) = minimum.map Json.number ∧
      lookup (text "maximum") (boundMember (text "minimum") minimum ++
        boundMember (text "maximum") maximum) = maximum.map Json.number := by
  cases minimum <;> cases maximum <;> exact ⟨rfl, rfl⟩

theorem mem_keys_bounds_iff (minimum maximum : Option Number) (key : Text) :
    key ∈ keys (boundMember (text "minimum") minimum ++ boundMember (text "maximum") maximum) ↔
      (key = text "minimum" ∨ key = text "maximum") ∧
        key ∈ text "kind" :: text "path" :: text "rule_id" ::
          keys (boundMember (text "minimum") minimum ++
            boundMember (text "maximum") maximum) := by
  constructor
  · intro present
    refine ⟨?_, List.mem_cons_of_mem _ (List.mem_cons_of_mem _ (List.mem_cons_of_mem _ present))⟩
    rw [keys, List.map_append, List.mem_append] at present
    refine present.imp (fun lower => ?_) fun upper => ?_
    · exact List.mem_singleton.mp ((keys_boundMember_sublist _ _).subset lower)
    · exact List.mem_singleton.mp ((keys_boundMember_sublist _ _).subset upper)
  · intro member
    have other : ∀ fixed ∈ [text "kind", text "path", text "rule_id"], key ≠ fixed := by
      rcases member.1 with rfl | rfl <;> decide
    simp only [List.forall_mem_cons] at other
    simpa [other] using member.2

/-- A valid rule is read off its own object. -/
theorem Rule.readFrom_members {rule : Rule} {allowedKinds : List RuleKind} (valid : rule.Valid)
    (allowed : rule.kind ∈ allowedKinds) :
    rule.ReadFrom allowedKinds (.object rule.members) := by
  refine ⟨valid, allowed, rule.members, rfl, rfl, fun key => ?_, rfl, rfl, ?_⟩
  · have constraintKeys : key ∈ keys rule.constraint.members ↔
        key ∈ rule.kind.constraintKeys rule.members := by
      rcases rule with ⟨ruleId, path, constraint⟩
      cases constraint with
      | range minimum maximum =>
          rw [RuleKind.constraintKeys.eq_def]
          simp only [Rule.kind, Constraint.kind, List.mem_filter, List.mem_cons,
            List.not_mem_nil, or_false, decide_eq_true_eq]
          exact mem_keys_bounds_iff _ _ key
      | length minimum maximum =>
          rw [RuleKind.constraintKeys.eq_def]
          simp only [Rule.kind, Constraint.kind, List.mem_filter, List.mem_cons,
            List.not_mem_nil, or_false, decide_eq_true_eq]
          exact mem_keys_bounds_iff _ _ key
      | _ => exact Iff.rfl
    rw [expectedKeys, List.mem_append, ← constraintKeys, Rule.members, keys, List.map_cons,
      List.map_cons, List.map_cons]
    simp only [List.mem_cons, List.not_mem_nil, or_false]
    tauto
  · rcases rule with ⟨ruleId, path, constraint⟩
    cases constraint with
    | range minimum maximum =>
        have found := lookup_bounds (minimum.map Bound.toNumber) (maximum.map Bound.toNumber)
        rw [Option.map_map, Option.map_map] at found
        exact found
    | length minimum maximum =>
        have found := lookup_bounds (minimum.map fun limit : Nat => Number.integer limit)
          (maximum.map fun limit : Nat => Number.integer limit)
        rw [Option.map_map, Option.map_map] at found
        exact found
    | _ => first | rfl | trivial

theorem Policy.Valid.readFrom {policy : Policy} (valid : policy.Valid) :
    policy.ReadFrom policy.toDict := by
  refine ⟨valid.fits, valid.identifier, valid.nonempty, valid.count, valid.distinct, _, _,
    policy.toDict_eq, fun key => ?_, rfl, rfl, rfl, ?_⟩
  · simp only [keys, List.map_cons, List.map_nil, List.mem_cons, List.not_mem_nil, or_false]
    tauto
  · rw [List.forall₂_map_left_iff, List.forall₂_same]
    intro rule member
    exact Rule.readFrom_members (valid.rules rule member) (valid.allowed rule member)

private theorem Rule.toObject_relevant (rule : Rule) : ¬rule.toObject.HasIrrelevantFields := by
  rcases rule with ⟨ruleId, path, constraint⟩
  cases constraint <;>
    simp [RuleObject.HasIrrelevantFields, Rule.toObject, Rule.kind, Constraint.kind,
      RuleKind.name_injective.eq_iff]

private theorem checkIrrelevantFields_eq_ok_iff {policyId : Text} {index : Nat}
    {rules : List RuleObject} {done : Unit} :
    checkIrrelevantFields policyId index rules = .ok done ↔
      ∀ rule ∈ rules, ¬rule.HasIrrelevantFields := by
  induction rules generalizing index with
  | nil => simp [checkIrrelevantFields]
  | cons rule rules induction =>
      rw [List.forall_mem_cons]
      simp only [checkIrrelevantFields, bind_eq_ok_iff, require_eq_ok_iff, induction,
        exists_const]

/-- The JSON value whose checks decide about an input. -/
def PolicyInput.raw : PolicyInput → Json
  | .json raw => raw
  | .object policy => policyToDict policy

theorem readFrom_of_validatePolicy {input : PolicyInput} {policy : Policy}
    (validated : validatePolicy input = .ok policy) : policy.ReadFrom input.raw := by
  cases input with
  | json raw => exact validateRawPolicy_eq_ok_iff.mp validated
  | object object =>
      rcases bind_eq_ok_iff.mp validated with ⟨_, _, accepted⟩
      exact validateRawPolicy_eq_ok_iff.mp accepted

theorem valid_of_validatePolicy {input : PolicyInput} {policy : Policy}
    (validated : validatePolicy input = .ok policy) : policy.Valid :=
  (readFrom_of_validatePolicy validated).valid

/-- Validating the exported dictionary of a valid policy returns the policy. -/
theorem Policy.Valid.validate_toDict {policy : Policy} (valid : policy.Valid) :
    validatePolicy (.json policy.toDict) = .ok policy :=
  validateRawPolicy_eq_ok_iff.mpr valid.readFrom

/-- Validating a valid policy object returns the policy. -/
theorem Policy.Valid.validate_toObject {policy : Policy} (valid : policy.Valid) :
    validatePolicy (.object policy.toObject) = .ok policy := by
  refine bind_eq_ok_iff.mpr ⟨(), ?_, validateRawPolicy_eq_ok_iff.mpr valid.readFrom⟩
  rw [checkIrrelevantFields_eq_ok_iff]
  intro object member
  rcases List.mem_map.mp member with ⟨rule, _, rfl⟩
  exact rule.toObject_relevant

theorem Policy.Valid.rule_members_encodable {policy : Policy} (valid : policy.Valid) {rule : Rule}
    (member : rule ∈ policy.rules) : (Json.object rule.members).Encodable := by
  have encodable := valid.fits.encodable
  rw [Policy.toDict_eq, Json.encodable_object_iff] at encodable
  have rules := (List.forall_mem_cons.mp (List.forall_mem_cons.mp encodable).2).1
  exact Json.encodable_array_iff.mp rules _ (List.mem_map_of_mem member)

/-! ## Rules by identifier -/

section ById

variable {policy : Policy}

theorem Policy.Valid.rule_eq (valid : policy.Valid) {left right : Rule}
    (leftMember : left ∈ policy.rules) (rightMember : right ∈ policy.rules)
    (named : left.ruleId = right.ruleId) : left = right :=
  List.inj_on_of_nodup_map valid.distinct leftMember rightMember named

theorem mem_keys_rules {identifier : Text} :
    identifier ∈ keys (policy.rules.map fun rule => (rule.ruleId, rule)) ↔
      ∃ rule ∈ policy.rules, rule.ruleId = identifier := by
  simp [keys]

theorem mem_of_lookup_rules {identifier : Text} {rule : Rule}
    (found : lookup identifier (policy.rules.map fun rule => (rule.ruleId, rule)) = some rule) :
    rule ∈ policy.rules ∧ rule.ruleId = identifier := by
  rcases List.mem_map.mp (mem_of_lookup_eq_some found) with ⟨other, member, equal⟩
  rcases Prod.mk.inj equal with ⟨named, rfl⟩
  exact ⟨member, named⟩

end ById

/-! ## Reordering and removal -/

/-- The same policy with its rules in another order. -/
def Policy.withRules (policy : Policy) (rules : List Rule) : Policy :=
  { policy with rules := rules }

private theorem Policy.toDict_withRules_within {policy : Policy} {rules : List Rule}
    (fewer : rules.Subperm policy.rules) :
    (policy.withRules rules).toDict.Within policy.toDict := by
  rw [Policy.toDict_eq, Policy.toDict_eq]
  apply Json.within_object
  · change [text "policy_id", text "rules", text "schema_version"].Nodup
    decide
  · rw [List.forall_mem_cons, List.forall_mem_cons, List.forall_mem_singleton]
    refine ⟨⟨_, rfl, Json.Within.refl _⟩, ⟨_, rfl, ?_⟩, _, rfl, Json.Within.refl _⟩
    rcases fewer with ⟨reordered, perm, sublist⟩
    exact Json.within_array_of_subperm ⟨_, perm.map _, sublist.map _⟩

/-- Rules can be taken out of a valid policy and reordered, as long as one is left. -/
theorem Policy.Valid.of_subperm {policy : Policy} {rules : List Rule} (valid : policy.Valid)
    (fewer : rules.Subperm policy.rules) (nonempty : rules ≠ []) :
    (policy.withRules rules).Valid where
  identifier := valid.identifier
  nonempty := nonempty
  count := fewer.length_le.trans valid.count
  distinct := by
    rcases fewer with ⟨reordered, perm, sublist⟩
    exact (perm.map Rule.ruleId).nodup_iff.mp (valid.distinct.sublist (sublist.map _))
  rules := fun rule member => valid.rules rule (fewer.subset member)
  allowed := fun rule member => valid.allowed rule (fewer.subset member)
  fits := (toDict_withRules_within fewer).fitsLimits valid.fits

/-- Validity does not depend on the order of the rules. -/
theorem Policy.Valid.withRules {policy : Policy} {rules : List Rule} (valid : policy.Valid)
    (perm : rules.Perm policy.rules) : (policy.withRules rules).Valid := by
  apply valid.of_subperm perm.subperm
  intro empty
  apply valid.nonempty
  exact List.nil_perm.mp (empty ▸ perm)

end AgentTestbench

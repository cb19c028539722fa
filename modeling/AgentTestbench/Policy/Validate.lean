import AgentTestbench.Error
import AgentTestbench.Policy.Rules

/-! # Policy validation

`validate_policy` in the order of its checks, with its messages and the location each
error carries.
-/

namespace AgentTestbench

open AssociationList Fallible

/-! ## Names -/

namespace CodePoint

def isAlphanumeric (point : CodePoint) : Bool :=
  point.isLetter || point.isDigit

/-- `[A-Za-z0-9._-]`. -/
def isIdentifierRest (point : CodePoint) : Bool :=
  point.isAlphanumeric || point == fullStop || point == underscore || point == hyphen

/-- `[A-Za-z_]`. -/
def isSegmentStart (point : CodePoint) : Bool :=
  point.isLetter || point == underscore

/-- `[A-Za-z0-9_-]`. -/
def isSegmentRest (point : CodePoint) : Bool :=
  point.isAlphanumeric || point == underscore || point == hyphen

end CodePoint

/-- `_IDENTIFIER_PATTERN`. -/
def isIdentifier : Text → Bool
  | [] => false
  | first :: rest =>
      first.isAlphanumeric && rest.length ≤ 127 && rest.all CodePoint.isIdentifierRest

def isSegment : Text → Bool
  | [] => false
  | first :: rest => first.isSegmentStart && rest.all CodePoint.isSegmentRest

/-- `_PATH_PATTERN`: its segments, between full stops, are all well formed. -/
def isPath (path : Text) : Bool :=
  path.splitStops.all isSegment

/-- `repr` of an identifier. -/
def quoted (identifier : Text) : Text :=
  text "'" ++ identifier ++ text "'"

/-- `_safe_identifier`. -/
def safeIdentifier (value : Option Json) : Option Text :=
  match value with
  | some (.string identifier) => if isIdentifier identifier then some identifier else none
  | _ => none

/-- `_rule_label`. -/
def ruleLabel (index : Nat) (ruleId : Option Text) : Text :=
  match ruleId with
  | none => text "Rule at index " ++ decimal index
  | some ruleId => text "Rule " ++ quoted ruleId ++ text " at index " ++ decimal index

/-! ## Errors and their location -/

/-- The keyword arguments that locate an error. -/
structure Location where
  policyId : Option Text := none
  ruleId : Option Text := none
  ruleIndex : Option Nat := none

/-- `_invalid`. -/
def Location.invalid (location : Location) (message : Text) : TestbenchError :=
  .policyValidation message location.policyId location.ruleId location.ruleIndex

/-! ## Field checks -/

/-- `sorted` on a set of strings. -/
def sortedTexts (names : List Text) : List Text :=
  names.dedup.insertionSort (· ≤ ·)

/-- `sorted` on a list of identifiers. -/
def sortedIds (identifiers : List Text) : List Text :=
  identifiers.insertionSort (· ≤ ·)

theorem sortedIds_eq_of_perm {left right : List Text} (perm : left.Perm right) :
    sortedIds left = sortedIds right := by
  have sorted := ((List.perm_insertionSort (· ≤ ·) left).trans perm).trans
    (List.perm_insertionSort (· ≤ ·) right).symm
  exact sorted.eq_of_sortedLE List.sortedLE_insertionSort List.sortedLE_insertionSort

/-- `", ".join`. -/
def joinComma (names : List Text) : Text :=
  (text ", ").intercalate names

/-- `_check_exact_keys`. -/
def checkExactKeys (members : List (Text × Json)) (expected : List Text) (label : Text)
    (location : Location) : Except TestbenchError Unit :=
  let missing := sortedTexts (expected.filter (· ∉ keys members))
  let unknown := sortedTexts ((keys members).filter (· ∉ expected))
  let details :=
    (if missing = [] then [] else [text "missing " ++ joinComma missing]) ++
      (if unknown = [] then [] else [text "unknown " ++ joinComma unknown])
  require (missing = [] ∧ unknown = [])
    (location.invalid (label ++ text " has invalid fields: " ++ (text "; ").intercalate details ++
      text "."))

/-- `_check_identifier`. -/
def checkIdentifier (value : Json) (label : Text) (location : Location) :
    Except TestbenchError Text :=
  match value with
  | .string identifier => do
      require (isIdentifier identifier)
        (location.invalid (label ++ text " is not a valid identifier."))
      .ok identifier
  | _ => .error (location.invalid (label ++ text " is not a valid identifier."))

/-- `_check_path`. -/
def checkPath (value : Json) (label : Text) (location : Location) : Except TestbenchError Text :=
  match value with
  | .string path => do
      require (isPath path) (location.invalid (label ++ text " is not a valid object field path."))
      require (path.splitStops.length ≤ maxJsonNesting)
        (location.invalid (label ++ text " exceeds the 32-segment path limit."))
      .ok path
  | _ => .error (location.invalid (label ++ text " is not a valid object field path."))

/-- `_check_json_value`, with the canonical text it computes. -/
def checkJsonValue (value : Json) (label : Text) (location : Location) :
    Except TestbenchError Text := do
  (ensureJsonValue value label).mapError fun failure => location.invalid failure.message
  (canonicalJson value).mapError fun failure => location.invalid failure.message

/-- The loop over `values`; `canonicalValues` are the markers seen so far. -/
def checkValues (label : Text) (location : Location) :
    List Text → List Json → Except TestbenchError Unit
  | _, [] => .ok ()
  | canonicalValues, value :: rest => do
      let marker ← checkJsonValue value (label ++ text " values") location
      require (marker ∉ canonicalValues)
        (location.invalid (label ++ text " values must not contain duplicates."))
      checkValues label location (marker :: canonicalValues) rest

def Json.stringValue? : Json → Option Text
  | .string content => some content
  | _ => none

/-- A JSON array of strings. -/
def textItems? (value : Json) : Option (List Text) :=
  match value with
  | .array items => items.mapM Json.stringValue?
  | _ => none

def Json.TypeName.ofName? (name : Text) : Option Json.TypeName :=
  jsonTypeNames.find? fun known => known.name = name

/-- `_check_types`. -/
def checkTypes (rawTypes : Json) (label : Text) (location : Location) :
    Except TestbenchError (List Json.TypeName) :=
  match textItems? rawTypes with
  | none | some [] =>
      .error (location.invalid
        (label ++ text " types must be a non-empty JSON array of type names."))
  | some names =>
      match names.mapM Json.TypeName.ofName? with
      | none =>
          .error (location.invalid (label ++ text " types must name only " ++
            joinComma (jsonTypeNames.map Json.TypeName.name) ++ text "."))
      | some types => do
          require types.Nodup (location.invalid (label ++ text " types must not contain duplicates."))
          require (¬(.integer ∈ types ∧ .number ∈ types))
            (location.invalid (label ++ text
              " types must not list integer beside number, which already admits every integer."))
          require (¬allValueTypes ⊆ types)
            (location.invalid (label ++ text
              " types admit every JSON value; use required_field to require only presence."))
          .ok types

/-- One bound of a `range` rule. -/
def checkRangeBound (members : List (Text × Json)) (field : Text) (label : Text)
    (location : Location) : Except TestbenchError (Option Bound) :=
  let failure := location.invalid (label ++ text " " ++ field ++ text " must be a finite JSON number.")
  match lookup field members with
  | none => .ok none
  | some (.number number) =>
      match Bound.ofNumber? number with
      | some bound => .ok (some bound)
      | none => .error failure
  | some _ => .error failure

/-- One bound of a `length` rule. -/
def checkLengthBound (members : List (Text × Json)) (field : Text) (label : Text)
    (location : Location) : Except TestbenchError (Option Nat) :=
  let failure := location.invalid
    (label ++ text " " ++ field ++ text " must be an integer from 0 to 1,000,000.")
  match lookup field members with
  | none => .ok none
  | some (.number (.integer bound)) => do
      require (0 ≤ bound ∧ bound ≤ maxLengthBound) failure
      .ok (some bound.toNat)
  | some _ => .error failure

/-- `minimum > maximum` does not hold. -/
def Ordered (le : Limit → Limit → Bool) (minimum maximum : Option Limit) : Prop :=
  ∀ lower ∈ minimum, ∀ upper ∈ maximum, le lower upper = true

instance (le : Limit → Limit → Bool) (minimum maximum : Option Limit) :
    Decidable (Ordered le minimum maximum) :=
  match minimum, maximum with
  | none, _ => .isTrue nofun
  | some _, none => .isTrue nofun
  | some lower, some upper =>
      decidable_of_iff (le lower upper = true) (by simp [Ordered])

/-- `_check_bounds`, for either kind of bound. -/
def checkBounds (checkBound : Text → Except TestbenchError (Option Limit))
    (le : Limit → Limit → Bool) (label : Text) (location : Location) :
    Except TestbenchError (Option Limit × Option Limit) := do
  let minimum ← checkBound (text "minimum")
  let maximum ← checkBound (text "maximum")
  require (¬(minimum = none ∧ maximum = none))
    (location.invalid (label ++ text " must declare minimum, maximum or both."))
  require (Ordered le minimum maximum)
    (location.invalid (label ++ text " minimum must not exceed maximum."))
  .ok (minimum, maximum)

/-! ## Rules -/

/-- The value of a key that is known to be present. -/
def field (members : List (Text × Json)) (key : Text) : Json :=
  (lookup key members).getD .null

/-- `set(value) == {...}`. -/
def HasExactKeys (members : List (Text × Json)) (expected : List Text) : Prop :=
  (∀ key ∈ keys members, key ∈ expected) ∧ ∀ key ∈ expected, key ∈ keys members

instance (members : List (Text × Json)) (expected : List Text) :
    Decidable (HasExactKeys members expected) :=
  inferInstanceAs (Decidable (_ ∧ _))

/-- The keys beyond `rule_id`, `kind` and `path`. -/
def RuleKind.constraintKeys (kind : RuleKind) (members : List (Text × Json)) : List Text :=
  match kind with
  | .equals => [text "value"]
  | .oneOf => [text "values"]
  | .type => [text "types"]
  | .range => [text "minimum", text "maximum"].filter (· ∈ keys members)
  | .length => [text "minimum", text "maximum"].filter (· ∈ keys members)
  | _ => []

def expectedKeys (kind : RuleKind) (members : List (Text × Json)) : List Text :=
  [text "rule_id", text "kind", text "path"] ++ kind.constraintKeys members

/-- `raw_rule.get("kind")`, when it names an allowed kind. -/
def kindOf? (allowedKinds : List RuleKind) (members : List (Text × Json)) : Option RuleKind :=
  match lookup (text "kind") members with
  | some (.string name) => allowedKinds.find? fun kind => kind.name = name
  | _ => none

def checkConstraint (kind : RuleKind) (members : List (Text × Json)) (label : Text)
    (location : Location) : Except TestbenchError Constraint :=
  match kind with
  | .requiredField => .ok .requiredField
  | .false => .ok .false
  | .emptyList => .ok .emptyList
  | .equals => do
      let _ ← checkJsonValue (field members (text "value")) (label ++ text " value") location
      .ok (.equals (field members (text "value")))
  | .oneOf =>
      match field members (text "values") with
      | .array values => do
          require (values ≠ [])
            (location.invalid (label ++ text " values must be a non-empty JSON array."))
          require (values.length ≤ maxOneOfValues)
            (location.invalid (label ++ text " values must not contain more than 256 items."))
          checkValues label location [] values
          .ok (.oneOf values)
      | _ => .error (location.invalid (label ++ text " values must be a non-empty JSON array."))
  | .type => do
      let types ← checkTypes (field members (text "types")) label location
      .ok (.type types)
  | .range => do
      let bounds ← checkBounds (fun key => checkRangeBound members key label location)
        (fun lower upper => lower.toNumber.le upper.toNumber) label location
      .ok (.range bounds.1 bounds.2)
  | .length => do
      let bounds ← checkBounds (fun key => checkLengthBound members key label location)
        (fun lower upper => lower ≤ upper) label location
      .ok (.length bounds.1 bounds.2)

/-- One round of the loop over `raw_rules`. -/
def validateRule (allowedKinds : List RuleKind) (policyId : Text) (index : Nat)
    (seenRuleIds : List Text) (rawRule : Json) : Except TestbenchError Rule :=
  let hint := safeIdentifier (rawRule.member? (text "rule_id"))
  let label := ruleLabel index hint
  let location : Location := ⟨some policyId, hint, some index⟩
  match rawRule with
  | .object members =>
      match kindOf? allowedKinds members with
      | none => .error (location.invalid (label ++ text " has an unknown rule kind."))
      | some kind => do
          checkExactKeys members (expectedKeys kind members) label location
          let ruleId ← checkIdentifier (field members (text "rule_id"))
            (label ++ text " rule_id") location
          require (ruleId ∉ seenRuleIds)
            (location.invalid (label ++ text " repeats a rule_id."))
          let path ← checkPath (field members (text "path")) (label ++ text " path") location
          let constraint ← checkConstraint kind members label location
          .ok ⟨ruleId, path, constraint⟩
  | _ => .error (location.invalid (label ++ text " must be a JSON object."))

def validateRules (allowedKinds : List RuleKind) (policyId : Text) :
    Nat → List Text → List Json → Except TestbenchError (List Rule)
  | _, _, [] => .ok []
  | index, seenRuleIds, rawRule :: rest => do
      let rule ← validateRule allowedKinds policyId index seenRuleIds rawRule
      let rules ← validateRules allowedKinds policyId (index + 1) (rule.ruleId :: seenRuleIds) rest
      .ok (rule :: rules)

/-! ## Policies -/

/-- The argument of `validate_policy`: a JSON value, or a policy object. -/
inductive PolicyInput where
  | json (raw : Json)
  | object (policy : PolicyObject)

/-- A field set on a rule whose kind does not use it. -/
def RuleObject.HasIrrelevantFields (rule : RuleObject) : Prop :=
  (rule.kind ≠ RuleKind.equals.name ∧ rule.value ≠ .null) ∨
    (rule.kind ≠ RuleKind.oneOf.name ∧ rule.values ≠ []) ∨
    (rule.kind ≠ RuleKind.type.name ∧ rule.types ≠ []) ∨
    ((rule.kind ≠ RuleKind.range.name ∧ rule.kind ≠ RuleKind.length.name) ∧
      (rule.minimum ≠ none ∨ rule.maximum ≠ none))

instance (rule : RuleObject) : Decidable rule.HasIrrelevantFields :=
  inferInstanceAs (Decidable (_ ∨ _))

/-- The loop that rejects irrelevant fields of a policy object. -/
def checkIrrelevantFields (policyId : Text) :
    Nat → List RuleObject → Except TestbenchError Unit
  | _, [] => .ok ()
  | index, rule :: rest => do
      let ruleId := safeIdentifier (some (.string rule.ruleId))
      require (¬rule.HasIrrelevantFields)
        (Location.invalid ⟨safeIdentifier (some (.string policyId)), ruleId, some index⟩
          (ruleLabel index ruleId ++ text " contains fields not supported by its rule kind."))
      checkIrrelevantFields policyId (index + 1) rest

/-- The checks on the JSON form of a policy. -/
def validateRawPolicy (rawPolicy : Json) : Except TestbenchError Policy :=
  let unlocated : Location := {}
  match rawPolicy with
  | .object members => do
      let _ ← (checkJson rawPolicy (text "Policy") maxJsonInputBytes).mapError fun failure =>
        unlocated.invalid failure.message
      checkExactKeys members [text "schema_version", text "policy_id", text "rules"]
        (text "Policy") unlocated
      match SchemaVersion.supported.find? fun version =>
          Json.string version.name = field members (text "schema_version") with
      | none => .error (unlocated.invalid (text "Policy schema_version must be 1.0 or 1.1."))
      | some schemaVersion => do
          let policyId ← checkIdentifier (field members (text "policy_id")) (text "policy_id")
            unlocated
          let location : Location := { policyId := some policyId }
          let label := text "Policy " ++ quoted policyId
          match field members (text "rules") with
          | .array rawRules => do
              require (rawRules ≠ [])
                (location.invalid (label ++ text " rules must be a non-empty JSON array."))
              require (rawRules.length ≤ maxPolicyRules)
                (location.invalid (label ++ text " rules must not contain more than 256 items."))
              let rules ← validateRules schemaVersion.ruleKinds policyId 0 [] rawRules
              .ok ⟨policyId, rules, schemaVersion⟩
          | _ =>
              .error (location.invalid (label ++ text " rules must be a non-empty JSON array."))
  | _ => .error (unlocated.invalid (text "Policy must be a JSON object."))

def validatePolicy (input : PolicyInput) : Except TestbenchError Policy :=
  match input with
  | .json raw => validateRawPolicy raw
  | .object policy => do
      checkIrrelevantFields policy.policyId 0 policy.rules
      validateRawPolicy (policyToDict policy)

end AgentTestbench

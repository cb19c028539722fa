import AgentTestbench.Json.Path
import AgentTestbench.Json.Within

/-! # Policies

A validated policy holds rules whose constraint carries exactly the fields of its kind.
The Python dataclasses, whose optional fields can be set on any kind, are the
`RuleObject` and `PolicyObject` below; `policy_to_dict` reads those.
-/

namespace AgentTestbench

open AssociationList

def maxPolicyRules : Nat := 256
def maxOneOfValues : Nat := 256
def maxLengthBound : Nat := maxJsonInputBytes

inductive SchemaVersion where
  | version1_0
  | version1_1
  deriving DecidableEq

/-- `SUPPORTED_RULE_KINDS`. -/
inductive RuleKind where
  | requiredField
  | equals
  | oneOf
  | false
  | emptyList
  | type
  | range
  | length
  deriving DecidableEq

def SchemaVersion.name : SchemaVersion → Text
  | .version1_0 => text "1.0"
  | .version1_1 => text "1.1"

def SchemaVersion.supported : List SchemaVersion := [.version1_0, .version1_1]

namespace RuleKind

def name : RuleKind → Text
  | .requiredField => text "required_field"
  | .equals => text "equals"
  | .oneOf => text "one_of"
  | .false => text "false"
  | .emptyList => text "empty_list"
  | .type => text "type"
  | .range => text "range"
  | .length => text "length"

/-- `SCHEMA_1_0_RULE_KINDS`. -/
def schema1_0 : List RuleKind := [.requiredField, .equals, .oneOf, .false, .emptyList]

/-- `SCHEMA_1_1_RULE_KINDS`. -/
def schema1_1 : List RuleKind := schema1_0 ++ [.type, .range, .length]

end RuleKind

/-- `RULE_KINDS_BY_SCHEMA_VERSION`. -/
def SchemaVersion.ruleKinds : SchemaVersion → List RuleKind
  | .version1_0 => RuleKind.schema1_0
  | .version1_1 => RuleKind.schema1_1

def Json.TypeName.name : Json.TypeName → Text
  | .array => text "array"
  | .boolean => text "boolean"
  | .integer => text "integer"
  | .null => text "null"
  | .number => text "number"
  | .object => text "object"
  | .string => text "string"

/-- `JSON_TYPE_NAMES`. -/
def jsonTypeNames : List Json.TypeName :=
  [.array, .boolean, .integer, .null, .number, .object, .string]

/-- `_ALL_VALUE_TYPES`. -/
def allValueTypes : List Json.TypeName :=
  [.array, .boolean, .null, .number, .object, .string]

/-- What a rule demands of the value at its path. -/
inductive Constraint where
  | requiredField
  | equals (value : Json)
  | oneOf (values : List Json)
  | false
  | emptyList
  | type (types : List Json.TypeName)
  | range (minimum maximum : Option Bound)
  | length (minimum maximum : Option Nat)
  deriving DecidableEq

def Constraint.kind : Constraint → RuleKind
  | .requiredField => .requiredField
  | .equals _ => .equals
  | .oneOf _ => .oneOf
  | .false => .false
  | .emptyList => .emptyList
  | .type _ => .type
  | .range _ _ => .range
  | .length _ _ => .length

structure Rule where
  ruleId : Text
  path : Text
  constraint : Constraint
  deriving DecidableEq

def Rule.kind (rule : Rule) : RuleKind := rule.constraint.kind

structure Policy where
  policyId : Text
  rules : List Rule
  schemaVersion : SchemaVersion
  deriving DecidableEq

/-! ## The dataclasses -/

/-- The dataclass `Rule`, before anything is checked about it. -/
structure RuleObject where
  ruleId : Text
  kind : Text
  path : Text
  value : Json := .null
  values : List Json := []
  types : List Text := []
  minimum : Option Number := none
  maximum : Option Number := none

/-- The dataclass `Policy`. -/
structure PolicyObject where
  policyId : Text
  rules : List RuleObject
  schemaVersion : Text

/-- The fields a validated rule is built with. -/
def Rule.toObject (rule : Rule) : RuleObject :=
  let shared : RuleObject :=
    { ruleId := rule.ruleId, kind := rule.kind.name, path := rule.path }
  match rule.constraint with
  | .equals value => { shared with value := value }
  | .oneOf values => { shared with values := values }
  | .type types => { shared with types := types.map Json.TypeName.name }
  | .range minimum maximum =>
      { shared with minimum := minimum.map Bound.toNumber, maximum := maximum.map Bound.toNumber }
  | .length minimum maximum =>
      { shared with
        minimum := minimum.map fun bound : Nat => Number.integer bound
        maximum := maximum.map fun bound : Nat => Number.integer bound }
  | _ => shared

def Policy.toObject (policy : Policy) : PolicyObject where
  policyId := policy.policyId
  rules := policy.rules.map Rule.toObject
  schemaVersion := policy.schemaVersion.name

/-- One declared bound; an undeclared one is not emitted. -/
def boundMember (field : Text) (bound : Option Number) : List (Text × Json) :=
  match bound with
  | none => []
  | some number => [(field, .number number)]

/-- The members after `kind`, `path` and `rule_id`. -/
def RuleObject.constraintMembers (rule : RuleObject) : List (Text × Json) :=
  if rule.kind = RuleKind.equals.name then [(text "value", rule.value)]
  else if rule.kind = RuleKind.oneOf.name then [(text "values", .array rule.values)]
  else if rule.kind = RuleKind.type.name then
    [(text "types", .array (rule.types.map Json.string))]
  else if rule.kind = RuleKind.range.name ∨ rule.kind = RuleKind.length.name then
    boundMember (text "minimum") rule.minimum ++ boundMember (text "maximum") rule.maximum
  else []

/-- One rule of `policy_to_dict`. -/
def RuleObject.toDict (rule : RuleObject) : Json :=
  .object ((text "kind", .string rule.kind) :: (text "path", .string rule.path) ::
    (text "rule_id", .string rule.ruleId) :: rule.constraintMembers)

def policyToDict (policy : PolicyObject) : Json :=
  .object [(text "policy_id", .string policy.policyId),
    (text "rules", .array (policy.rules.map RuleObject.toDict)),
    (text "schema_version", .string policy.schemaVersion)]

/-! ## The dictionary of a validated policy -/

/-- The members in which rules of different kinds differ. -/
def Constraint.members : Constraint → List (Text × Json)
  | .equals value => [(text "value", value)]
  | .oneOf values => [(text "values", .array values)]
  | .type types => [(text "types", .array (types.map fun name => Json.string name.name))]
  | .range minimum maximum =>
      boundMember (text "minimum") (minimum.map Bound.toNumber) ++
        boundMember (text "maximum") (maximum.map Bound.toNumber)
  | .length minimum maximum =>
      boundMember (text "minimum") (minimum.map fun bound : Nat => Number.integer bound) ++
        boundMember (text "maximum") (maximum.map fun bound : Nat => Number.integer bound)
  | _ => []

def Rule.members (rule : Rule) : List (Text × Json) :=
  (text "kind", .string rule.kind.name) :: (text "path", .string rule.path) ::
    (text "rule_id", .string rule.ruleId) :: rule.constraint.members

private theorem RuleKind.mem_schema1_1 (kind : RuleKind) : kind ∈ schema1_1 := by
  cases kind <;> decide

theorem RuleKind.name_injective : Function.Injective RuleKind.name :=
  injective_of_listed mem_schema1_1 (by decide)

private theorem Rule.toDict_toObject (rule : Rule) :
    rule.toObject.toDict = .object rule.members := by
  rcases rule with ⟨ruleId, path, constraint⟩
  cases constraint with
  | type types =>
      simp only [RuleObject.toDict, RuleObject.constraintMembers, Rule.toObject, Rule.members,
        Rule.kind, Constraint.kind, Constraint.members, RuleKind.name_injective.eq_iff, reduceCtorEq, if_true, if_false,
        List.map_map]
      rfl
  | _ =>
      simp only [RuleObject.toDict, RuleObject.constraintMembers, Rule.toObject, Rule.members,
        Rule.kind, Constraint.kind, Constraint.members, RuleKind.name_injective.eq_iff, reduceCtorEq, if_true, if_false,
        or_false, or_true]

def Policy.toDict (policy : Policy) : Json :=
  policyToDict policy.toObject

theorem Policy.toDict_eq (policy : Policy) :
    policy.toDict = .object [(text "policy_id", .string policy.policyId),
      (text "rules", .array (policy.rules.map fun rule => Json.object rule.members)),
      (text "schema_version", .string policy.schemaVersion.name)] := by
  rw [Policy.toDict, policyToDict, Policy.toObject, List.map_map]
  congr 5
  apply List.map_congr_left
  intro rule _
  exact rule.toDict_toObject

end AgentTestbench

import AgentTestbench.Authoring

/-! # Synthetic cases

`generate_synthetic_cases` builds one response from the deepest paths upwards, taking
the first candidate that keeps the rules below it satisfied, and deletes one field of
it for the failing case.
-/

namespace AgentTestbench

open AssociationList Fallible

def maxCompatibilityWork : Nat := maxPolicyRules * maxOneOfValues

def conflictMessage : Text :=
  text "Policy has conflicting constraints and no synthetic pass can be verified."

def nestedPathsMessage : Text :=
  text "Policy has incompatible nested paths and no synthetic pass can be verified."

def structuralLimitMessage : Text :=
  text "Synthetic response exceeds JSON structural limits."

def workLimitMessage : Text :=
  text "Synthetic compatibility work exceeds the bounded limit."

def unverifiedPassMessage : Text :=
  text "Policy constraints could not produce a verified synthetic passing case."

def unverifiedFailureMessage : Text :=
  text "A verified synthetic failing case could not be constructed."

/-- `_verify`. -/
def verify (policyId : Text) (compiled : List CompiledRule) (response : Json) :
    Except TestbenchError EvaluationResult :=
  (evaluateCompiled policyId compiled response).mapError fun _ =>
    .syntheticGeneration structuralLimitMessage

/-! ## Candidates -/

/-- `_compatibility_cost`. -/
def compatibilityCost (rule : Option Rule) : Nat :=
  match rule with
  | some rule => comparisonCount rule
  | none => 1

def Constraint.fixedValue? : Constraint → Option Json
  | .equals value => some value
  | .false => some (.bool Bool.false)
  | .emptyList => some (.array [])
  | _ => none

def Constraint.allowedGroup? : Constraint → Option (List Json)
  | .oneOf values => some values
  | _ => none

/-- `_finite_candidates`. -/
def finiteCandidates (rules : List Rule) : Except TestbenchError (List Json) :=
  let conflict := TestbenchError.syntheticGeneration conflictMessage
  match rules.filterMap fun rule => rule.constraint.fixedValue?,
      rules.filterMap fun rule => rule.constraint.allowedGroup? with
  | selected :: fixedValues, allowedGroups => do
      let marker := selected.canonicalText
      require (fixedValues.all fun value => value.canonicalText = marker) conflict
      require (allowedGroups.all fun allowed =>
        allowed.any fun value => value.canonicalText = marker) conflict
      .ok [selected]
  | [], [] => .ok [.null]
  | [], [allowed] => .ok allowed
  | [], allowed :: others => do
      let candidates := allowed.filter fun candidate =>
        others.all fun group => candidate.canonicalText ∈ group.map Json.canonicalText
      require (candidates ≠ []) conflict
      .ok candidates

/-- The values a `range` rule adds to the menu. -/
def rangeMenu (minimum maximum : Option Bound) : List Json :=
  (minimum.toList.map fun bound => Json.number (.integer bound.ceil)) ++
    (maximum.toList.map fun bound => Json.number (.integer bound.floor)) ++
    (minimum.toList ++ maximum.toList).map fun bound => Json.number bound.toNumber

/-- The positive minimum of a `length` rule. -/
def positiveMinimum? (constraint : Constraint) : Option Nat :=
  match constraint with
  | .length (some minimum) _ => if minimum = 0 then none else some minimum
  | _ => none

/-- `"s" * length`. -/
def repeatedLetter (length : Nat) : Json :=
  Json.string (List.replicate length 0x73)

/-- `[None] * length`. -/
def repeatedNull (length : Nat) : Json :=
  Json.array (List.replicate length Json.null)

/-- `_filter_menu`. -/
def filterMenu (filters : List Rule) : List Json :=
  let ranges := filters.flatMap fun rule =>
    match rule.constraint with
    | .range minimum maximum => rangeMenu minimum maximum
    | _ => []
  let lengths := filters.filterMap fun rule => positiveMinimum? rule.constraint
  let arrays := lengths.filter fun length => length < maxJsonNodes
  [Json.null, Json.bool Bool.false, Json.number (.integer 0)] ++ ranges ++
    Json.string [] :: lengths.map repeatedLetter ++
    Json.array [] :: arrays.map repeatedNull ++ [Json.object []]

/-- `_candidate_values`. -/
def candidateValues (rules : List Rule) : Except TestbenchError (List Json) := do
  let filters := rules.filter fun rule => rule.kind.isFilter
  let finite := rules.filter fun rule => !rule.kind.isFilter
  let candidates ← finiteCandidates finite
  if filters = [] then .ok candidates
  else do
    let offered :=
      if finite.all fun rule => rule.kind = .requiredField then filterMenu filters
      else candidates
    let kept := offered.filter fun candidate => filters.all fun rule =>
      (evaluateRule rule (candidateView rule.path candidate)).passed
    require (kept ≠ []) (.syntheticGeneration conflictMessage)
    .ok kept

/-! ## Construction -/

/-- `_assign_path` on the members of the document. -/
def assignPath (document : List (Text × Json)) (path : Text) (value : Json) :
    Except TestbenchError (List (Text × Json)) :=
  (assignSegments value path.splitStops document).mapError fun _ =>
    .syntheticGeneration nestedPathsMessage

/-- `_delete_path` on the members of the document; `none` where it returns `False`. -/
def deletePath (document : List (Text × Json)) (path : Text) : Option (List (Text × Json)) :=
  deleteSegments path.splitStops document

/-- The loop over `descendant_rules or (None,)` for one candidate, with the work done. -/
def checkCompatible (candidateView : Json) :
    Nat → List (Option Rule) → Except TestbenchError (Nat × Bool)
  | work, [] => .ok (work, true)
  | work, rule :: rest => do
      let charged := work + compatibilityCost rule
      require (charged ≤ maxCompatibilityWork) (.syntheticGeneration workLimitMessage)
      if rule.all fun rule => (evaluateRule rule candidateView).passed then
        checkCompatible candidateView charged rest
      else .ok (charged, false)

/-- The loop over the candidates of a path. -/
def selectCandidate (path : Text) (descendantRules : List (Option Rule)) :
    Nat → List Json → Except TestbenchError (Nat × Option Json)
  | work, [] => .ok (work, none)
  | work, candidate :: rest => do
      let checked ← checkCompatible (candidateView path candidate) work descendantRules
      if checked.2 then .ok (checked.1, some candidate)
      else selectCandidate path descendantRules checked.1 rest

structure SyntheticState where
  passingResponse : List (Text × Json) := []
  constructedRules : List Rule := []
  compatibilityWork : Nat := 0

/-- One round of the loop over the ordered paths. -/
def buildPath (state : SyntheticState) (entry : Text × List Rule) :
    Except TestbenchError SyntheticState :=
  let constructedRules := state.constructedRules ++ entry.2
  if entry.2.all fun rule => (evaluateRule rule (.object state.passingResponse)).passed then
    .ok { state with constructedRules := constructedRules }
  else do
    let descendantRules := state.constructedRules.filter fun rule => extendsPath entry.1 rule.path
    let candidates ← candidateValues entry.2
    let (work, selected) ← selectCandidate entry.1
      (if descendantRules = [] then [none] else descendantRules.map some)
      state.compatibilityWork candidates
    match selected with
    | none => .error (.syntheticGeneration unverifiedPassMessage)
    | some value => do
        let passingResponse ← assignPath state.passingResponse entry.1 value
        .ok ⟨passingResponse, constructedRules, work⟩

/-- `(-path.count("."), path)`. -/
def pathKey (path : Text) : Int ×ₗ Text :=
  toLex (-(path.count fullStop : Int), path)

/-- The groups in the order of `sorted(by_path, key=...)`. -/
def orderedPaths (groups : List (Text × List Rule)) : List (Text × List Rule) :=
  groups.insertionSort fun left right => pathKey left.1 ≤ pathKey right.1

structure SyntheticCase where
  evaluation : EvaluationResult
  response : List (Text × Json)
  deriving DecidableEq

structure SyntheticCaseBundle where
  failingCase : SyntheticCase
  passingCase : SyntheticCase
  policyId : Text
  deriving DecidableEq

def generateSyntheticCases (policy : PolicyInput) : Except TestbenchError SyntheticCaseBundle := do
  let validatedPolicy ← validatePolicy policy
  let state ← (orderedPaths (group Rule.path validatedPolicy.rules)).foldlM buildPath {}
  let compiled := compile validatedPolicy
  let passingEvaluation ←
    verify validatedPolicy.policyId compiled (.object state.passingResponse)
  require (passingEvaluation.passed = true) (.syntheticGeneration unverifiedPassMessage)
  let firstPath := (validatedPolicy.rules.head?.map Rule.path).getD []
  match deletePath state.passingResponse firstPath with
  | none => .error (.syntheticGeneration unverifiedFailureMessage)
  | some deleted => do
      let failingEvaluation ← verify validatedPolicy.policyId compiled (.object deleted)
      require (¬failingEvaluation.passed = true) (.syntheticGeneration unverifiedFailureMessage)
      .ok ⟨⟨failingEvaluation, deleted⟩, ⟨passingEvaluation, state.passingResponse⟩,
        validatedPolicy.policyId⟩

end AgentTestbench

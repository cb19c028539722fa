import AgentTestbench.Foundation.FirstSeen
import AgentTestbench.Foundation.Orders
import AgentTestbench.Precedence.Evaluation

/-! # Order variance

Projections of evaluator results, the comparisons between orders, and the witnesses of
the differences.
-/

namespace AgentTestbench

open AssociationList FirstSeen Orders

/-- An order of the rule identifiers. -/
abbrev IdOrder := List Text

/-! ## Projections -/

/-- `Counter(items)`. -/
def counter (items : List Text) : List (Text × Nat) :=
  items.foldl (fun counts item =>
    AssociationList.insert item ((lookup item counts).getD 0 + 1) counts) []

/-- `_counter_projection`, as identifiers with their counts. -/
def counterProjection (items : List Text) : List (Text × Nat) :=
  sortByKey (counter items)

/-- `(kind, path, reason_code)`. -/
abbrev Evidence := Text × Text × Text

/-- A dictionary comprehension over the rule results. -/
def byRule {Value : Type} (value : ReportedRule → Value) (results : List ReportedRule) :
    List (Text × Value) :=
  results.foldl (fun values item => AssociationList.insert item.ruleId (value item) values) []

structure Projections where
  overallPass : Bool
  rulePasses : List (Text × Bool)
  reasonByRule : List (Text × Evidence)
  participation : List (Text × Nat)
  participationComplete : Bool
  presentation : List Text
  presentationFollowsRequestedOrder : Bool

/-- `_projections`. -/
def projections (result : ReportedEvaluation) (requestedOrder : IdOrder) : Projections :=
  let presentation := result.ruleIds
  let followsRequestedOrder :=
    presentation.Nodup ∧ (∀ ruleId ∈ presentation, ruleId ∈ requestedOrder) ∧
      presentation = presentation.insertionSort fun left right =>
        requestedOrder.idxOf left ≤ requestedOrder.idxOf right
  { overallPass := result.passed
    rulePasses := byRule ReportedRule.passed result.ruleResults
    reasonByRule := byRule (fun item => (item.kind, item.path, item.reasonCode))
      result.ruleResults
    participation := counterProjection presentation
    participationComplete := counterProjection presentation = counterProjection requestedOrder
    presentation := presentation
    presentationFollowsRequestedOrder := followsRequestedOrder }

/-! ## Dimensions -/

inductive Dimension where
  | outcome
  | reasonEvidence
  | participation
  | presentation
  deriving DecidableEq

def Dimension.name : Dimension → Text
  | .outcome => text "outcome"
  | .reasonEvidence => text "reason_evidence"
  | .participation => text "participation"
  | .presentation => text "presentation"

def dimensions : List Dimension :=
  [.outcome, .reasonEvidence, .participation, .presentation]

def textsJson (items : List Text) : Json :=
  .array (items.map Json.string)

def participationJson (rows : List (Text × Nat)) : Json :=
  .array (rows.map fun row => Json.object [(text "rule_id", .string row.1),
    (text "count", countJson row.2)])

def evidenceJson (evidence : Evidence) : Json :=
  .array [.string evidence.1, .string evidence.2.1, .string evidence.2.2]

/-- `_different`. -/
def different (left right : Json) : Bool :=
  left.canonicalText ≠ right.canonicalText

/-- `sorted(set(left) & set(right))`. -/
def sharedKeys {Value : Type} (left right : List (Text × Value)) : List Text :=
  sortedIds ((keys left).filter (· ∈ keys right))

/-- The values of the shared keys, in order. -/
def restrict {Value : Type} (encode : Value → Json) (shared : List Text)
    (values : List (Text × Value)) : Json :=
  .object (shared.filterMap fun key =>
    (lookup key values).map fun value => (key, encode value))

/-- `_dimension_projection_pair`. -/
def dimensionProjectionPair (dimension : Dimension) (left right : Projections) : Json × Json :=
  match dimension with
  | .outcome =>
      let shared := sharedKeys left.rulePasses right.rulePasses
      let project (side : Projections) : Json :=
        .object ((text "shared_rule_passes", restrict Json.bool shared side.rulePasses) ::
          if different (participationJson left.participation)
              (participationJson right.participation) then []
          else [(text "overall_pass", .bool side.overallPass)])
      (project left, project right)
  | .reasonEvidence =>
      let shared := sharedKeys left.reasonByRule right.reasonByRule
      let project (side : Projections) : Json :=
        .object [(text "shared_rule_evidence", restrict evidenceJson shared side.reasonByRule)]
      (project left, project right)
  | .participation =>
      (participationJson left.participation, participationJson right.participation)
  | .presentation =>
      (.object [(text "rule_ids", textsJson left.presentation)],
        .object [(text "rule_ids", textsJson right.presentation)])

/-! ## Witnesses -/

inductive OrderWitness where
  | adjacentSwap (dimension : Dimension) (leftOrder : IdOrder) (leftProjection : Json)
      (rightOrder : IdOrder) (rightProjection : Json) (swapIndex : Nat)
      (swappedRuleIds : List Text)
  | endpointPath (dimension : Dimension) (reason : Text) (leftOrder : IdOrder)
      (leftProjection : Json) (rightOrder : IdOrder) (rightProjection : Json)
      (adjacentSwapPath : List IdOrder)
  | ruleCoverage (order : IdOrder) (missingRuleIds : List Text)
  | evaluatorResult (order : IdOrder) (leftFingerprint : Text) (leftRepeat : Nat)
      (rightFingerprint : Text) (rightRepeat : Nat)
  deriving DecidableEq

def OrderWitness.toJson : OrderWitness → Json
  | .adjacentSwap dimension leftOrder leftProjection rightOrder rightProjection swapIndex
      swappedRuleIds =>
      .object [(text "comparison", .string (text "adjacent_swap")),
        (text "dimension", .string dimension.name), (text "left_order", textsJson leftOrder),
        (text "left_projection", leftProjection), (text "right_order", textsJson rightOrder),
        (text "right_projection", rightProjection), (text "swap_index", countJson swapIndex),
        (text "swapped_rule_ids", textsJson swappedRuleIds)]
  | .endpointPath dimension reason leftOrder leftProjection rightOrder rightProjection path =>
      .object [(text "adjacent_swap_path", .array (path.map textsJson)),
        (text "comparison", .string (text "endpoint_path")),
        (text "dimension", .string dimension.name), (text "left_order", textsJson leftOrder),
        (text "left_projection", leftProjection), (text "reason", .string reason),
        (text "right_order", textsJson rightOrder), (text "right_projection", rightProjection)]
  | .ruleCoverage order missingRuleIds =>
      .object [(text "dimension", .string (text "rule_coverage")),
        (text "order", textsJson order), (text "missing_rule_ids", textsJson missingRuleIds)]
  | .evaluatorResult order leftFingerprint leftRepeat rightFingerprint rightRepeat =>
      .object [(text "dimension", .string (text "evaluator_result")),
        (text "left_fingerprint", .string leftFingerprint),
        (text "left_repeat", countJson leftRepeat), (text "order", textsJson order),
        (text "right_fingerprint", .string rightFingerprint),
        (text "right_repeat", countJson rightRepeat)]

/-- The projections of every order completed, in order. -/
abbrev Observations := List (IdOrder × Projections)

/-- The comparison of an order with its swap at one index. -/
def swapWitness (dimension : Dimension) (observations : Observations) (leftOrder : IdOrder)
    (index : Nat) : Option OrderWitness :=
  let rightOrder := swapAt index leftOrder
  match lookup leftOrder observations, lookup rightOrder observations with
  | some left, some right =>
      let pair := dimensionProjectionPair dimension left right
      if different pair.1 pair.2 then
        some (.adjacentSwap dimension leftOrder pair.1 rightOrder pair.2 index
          ((leftOrder.drop index).take 2))
      else none
  | _, _ => none

/-- `_adjacent_witness`. -/
def adjacentWitness (dimension : Dimension) (orders : List IdOrder)
    (observations : Observations) : Option OrderWitness :=
  orders.findSome? fun leftOrder =>
    (List.range (leftOrder.length - 1)).findSome? fun index =>
      swapWitness dimension observations leftOrder index

/-- The inner loop of `_adjacent_swap_path`: move the item at `index` down to `target`. -/
def moveDown (target : Nat) : Nat → IdOrder × List IdOrder → IdOrder × List IdOrder
  | 0, state => state
  | index + 1, (current, path) =>
      if target < index + 1 then
        let next := swapAt index current
        moveDown target index (next, path ++ [next])
      else (current, path)

/-- `_adjacent_swap_path`. -/
def adjacentSwapPath (leftOrder rightOrder : IdOrder) : List IdOrder :=
  (rightOrder.zipIdx.foldl (fun state entry =>
    moveDown entry.2 (state.1.idxOf entry.1) state) (leftOrder, [leftOrder])).2

/-- `_endpoint_path_witness`. -/
def endpointPathWitness (dimension : Dimension) (reason : String) (leftOrder : IdOrder)
    (leftProjection : Json) (rightOrder : IdOrder) (rightProjection : Json) : OrderWitness :=
  .endpointPath dimension (text reason) leftOrder leftProjection rightOrder rightProjection
    (adjacentSwapPath leftOrder rightOrder)

/-- `sorted(projections[...].items())` of every order, with the order it was seen under. -/
def ruleEntries {Value : Type} (values : Projections → List (Text × Value))
    (observations : Observations) : List (Text × Value × IdOrder) :=
  observations.flatMap fun observation =>
    (sortByKey (values observation.2)).map fun entry => (entry.1, entry.2, observation.1)

def passJson (ruleId : Text) (passed : Bool) : Json :=
  .object [(text "passed", .bool passed), (text "rule_id", .string ruleId)]

def overallJson (passed : Bool) (participation : List (Text × Nat)) : Json :=
  .object [(text "overall_pass", .bool passed),
    (text "participation", participationJson participation)]

def evidenceRowJson (ruleId : Text) (evidence : Evidence) : Json :=
  .object [(text "kind", .string evidence.1), (text "path", .string evidence.2.1),
    (text "reason_code", .string evidence.2.2), (text "rule_id", .string ruleId)]

/-- The verdicts by canonical participation, with the order and the participation. -/
def overallEntries (observations : Observations) :
    List (Text × Bool × IdOrder × List (Text × Nat)) :=
  observations.map fun observation =>
    ((participationJson observation.2.participation).canonicalText, observation.2.overallPass,
      observation.1, observation.2.participation)

/-- `_global_identity_witness` for the outcome. -/
def outcomeWitness (observations : Observations) : Option OrderWitness :=
  match firstConflict (ruleEntries Projections.rulePasses observations) with
  | some conflict => some (endpointPathWitness .outcome "shared_rule_pass"
      conflict.priorPlace (passJson conflict.key conflict.prior)
      conflict.place (passJson conflict.key conflict.value))
  | none =>
      (firstConflict (overallEntries observations)).map fun conflict =>
        endpointPathWitness .outcome "aggregate_with_equal_participation"
          conflict.priorPlace.1 (overallJson conflict.prior conflict.priorPlace.2)
          conflict.place.1 (overallJson conflict.value conflict.place.2)

/-- `_global_identity_witness` for the reason evidence. -/
def reasonEvidenceWitness (observations : Observations) : Option OrderWitness :=
  (firstConflict (ruleEntries Projections.reasonByRule observations)).map fun conflict =>
    endpointPathWitness .reasonEvidence "shared_rule_evidence"
      conflict.priorPlace (evidenceRowJson conflict.key conflict.prior)
      conflict.place (evidenceRowJson conflict.key conflict.value)

/-- `global_identity_witnesses.get(dimension)`. -/
def globalIdentityWitness (observations : Observations) : Dimension → Option OrderWitness
  | .outcome => outcomeWitness observations
  | .reasonEvidence => reasonEvidenceWitness observations
  | _ => none

/-! ## The analysis -/

structure Variance where
  outcome : Bool
  reasonEvidence : Bool
  participation : Bool
  presentation : Bool
  deriving DecidableEq

def Variance.flag (variance : Variance) : Dimension → Bool
  | .outcome => variance.outcome
  | .reasonEvidence => variance.reasonEvidence
  | .participation => variance.participation
  | .presentation => variance.presentation

inductive OrderStatus where
  | compoundOrderDrift
  | participationOrderDrift
  | semanticOrderDrift
  | evidenceOrderDrift
  | incompleteRuleCoverage
  | presentationOnlyDrift
  | noVarianceObserved
  | inconclusiveNondeterministic
  deriving DecidableEq

def OrderStatus.name : OrderStatus → Text
  | .compoundOrderDrift => text "COMPOUND_ORDER_DRIFT"
  | .participationOrderDrift => text "PARTICIPATION_ORDER_DRIFT"
  | .semanticOrderDrift => text "SEMANTIC_ORDER_DRIFT"
  | .evidenceOrderDrift => text "EVIDENCE_ORDER_DRIFT"
  | .incompleteRuleCoverage => text "INCOMPLETE_RULE_COVERAGE"
  | .presentationOnlyDrift => text "PRESENTATION_ONLY_DRIFT"
  | .noVarianceObserved => text "NO_VARIANCE_OBSERVED"
  | .inconclusiveNondeterministic => text "INCONCLUSIVE_NONDETERMINISTIC"

/-- `variance`: two flags from the first-seen tables, two from adjacent swaps. -/
def varianceOf (orders : List IdOrder) (observations : Observations) : Variance :=
  { outcome := (globalIdentityWitness observations .outcome).isSome
    reasonEvidence := (globalIdentityWitness observations .reasonEvidence).isSome
    participation := (adjacentWitness .participation orders observations).isSome
    presentation := (adjacentWitness .presentation orders observations).isSome }

/-- `dimension_witnesses[dimension]`. -/
def dimensionWitness (orders : List IdOrder) (observations : Observations)
    (dimension : Dimension) : Option OrderWitness :=
  (adjacentWitness dimension orders observations).or
    (globalIdentityWitness observations dimension)

def incompleteOrders (observations : Observations) : Observations :=
  observations.filter fun observation => !observation.2.participationComplete

/-- `semantic_variance_count`. -/
def Variance.semanticCount (variance : Variance) : Nat :=
  ([variance.outcome, variance.reasonEvidence, variance.participation].filter id).length

def statusOf (variance : Variance) (incompleteParticipation : Bool) : OrderStatus :=
  if 1 < variance.semanticCount then .compoundOrderDrift
  else if variance.participation then .participationOrderDrift
  else if variance.outcome then .semanticOrderDrift
  else if variance.reasonEvidence then .evidenceOrderDrift
  else if incompleteParticipation then .incompleteRuleCoverage
  else if variance.presentation then .presentationOnlyDrift
  else .noVarianceObserved

/-- The witness for the first incomplete order. -/
def coverageWitness (observation : IdOrder × Projections) : OrderWitness :=
  .ruleCoverage observation.1
    (observation.1.filter fun ruleId => ruleId ∉ keys observation.2.rulePasses)

def witnessesOf (orders : List IdOrder) (observations : Observations) : List OrderWitness :=
  dimensions.filterMap (dimensionWitness orders observations) ++
    ((incompleteOrders observations).head?.map coverageWitness).toList

end AgentTestbench

import AgentTestbench.Precedence.Check
import AgentTestbench.Precedence.Difference

/-! # Runs of the order check

The calls a check makes, whatever the evaluator answers, and what its counters say of them.
-/

namespace AgentTestbench

open AssociationList Fallible Orders

/-! ## Before the first call -/

/-- What the checks before the first call establish. -/
structure Prepared (policy : PolicyInput) (response : Json) (evaluator : Evaluator)
    (check : OrderCheck) (estimatedWorkBytes : Nat) : Prop where
  validated : validatePolicy policy = .ok check.policy
  atLeast : minExhaustiveRules ≤ check.policy.rules.length
  atMost : check.policy.rules.length ≤ maxExhaustiveRules
  sameResponse : check.response = response
  accepted : Accepted response
  sameEvaluator : check.evaluator = evaluator
  serialized : check.serializedInputBytes =
    check.policy.toDict.canonicalSize + response.canonicalSize
  estimated : estimatedWorkBytes =
    check.serializedInputBytes * (check.policy.rules.length.factorial * orderRepeats)

theorem Prepared.valid {policy : PolicyInput} {response : Json} {evaluator : Evaluator}
    {check : OrderCheck} {estimatedWorkBytes : Nat}
    (prepared : Prepared policy response evaluator check estimatedWorkBytes) :
    check.policy.Valid :=
  valid_of_validatePolicy prepared.validated

theorem prepareOrderCheck_eq_ok {policy : PolicyInput} {response : Json}
    {evaluator : Evaluator} {check : OrderCheck} {estimatedWorkBytes : Nat}
    (ran : prepareOrderCheck policy response evaluator = .ok (check, estimatedWorkBytes)) :
    Prepared policy response evaluator check estimatedWorkBytes := by
  rcases bind_eq_ok_iff.mp ran with ⟨validated, read, ran⟩
  rw [mapError_eq_ok_iff] at read
  rcases bind_eq_ok_iff.mp ran with ⟨_, atLeast, ran⟩
  rcases bind_eq_ok_iff.mp ran with ⟨_, atMost, ran⟩
  cases response with
  | object members =>
      simp only [bind_eq_ok_iff, mapError_eq_ok_iff, checkJson_eq_ok_iff, require_eq_ok_iff,
        Except.ok.injEq, Prod.mk.injEq] at ran
      rcases ran with ⟨_, ⟨fits, rfl⟩, _, measured, _, _, rfl, rfl⟩
      have portable := (valid_of_validatePolicy read).fits.portable
      have sized := ((boundedCanonicalJsonSize_eq_ok_iff portable).mp measured).2.1
      exact ⟨read, require_eq_ok_iff.mp atLeast, require_eq_ok_iff.mp atMost, rfl,
        ⟨⟨members, rfl⟩, fits⟩, rfl, by rw [sized], rfl⟩
  | _ => cases ran

/-! ## Calls -/

theorem runEvaluator_eq_ok_iff {respond : Policy → Json → CallOutcome} {policy : Policy}
    {response : Json} {checked : CheckedResult} :
    runEvaluator respond policy response = .ok checked ↔
      respond policy response = .returned checked.result ∧
        validateEvaluation checked.result policy = .ok (checked.evaluation, checked.bytes) ∧
        checked.evaluation.policyId = policy.policyId := by
  rw [runEvaluator]
  cases respond policy response with
  | returned result =>
      simp only [bind_eq_ok_iff, require_eq_ok_iff, Except.ok.injEq, CallOutcome.returned.injEq]
      constructor
      · intro accepted
        rcases accepted with ⟨_, validated, _, named, rfl⟩
        exact ⟨rfl, validated, named⟩
      · intro accepted
        rcases accepted with ⟨rfl, validated, named⟩
        exact ⟨_, validated, (), named, rfl⟩
  | raised failure => simp
  | failed => simp

/-- A value an evaluator returned for an order, within the contract. -/
structure CheckedResult.Contract (policy : Policy) (order : List Rule)
    (checked : CheckedResult) : Prop where
  validated : validateEvaluation checked.result (policy.withRules order) =
    .ok (checked.evaluation, checked.bytes)
  named : checked.evaluation.policyId = policy.policyId

section Contract

variable {policy : Policy} {order : List Rule} {checked : CheckedResult}

theorem CheckedResult.Contract.encodable (contract : checked.Contract policy order) :
    checked.result.Encodable :=
  (validateEvaluation_eq_ok contract.validated).2.1

theorem CheckedResult.Contract.bytes (contract : checked.Contract policy order) :
    checked.bytes = checked.result.canonicalSize :=
  (validateEvaluation_eq_ok contract.validated).2.2.1

theorem CheckedResult.Contract.meets (contract : checked.Contract policy order)
    (perm : order.Perm policy.rules) : checked.evaluation.Meets policy :=
  (validateEvaluation_eq_ok contract.validated).1.withRules perm

end Contract

/-! ## Steps -/

variable {check : OrderCheck}

/-- What the state of a run says about the calls it made. -/
structure RunState.Accounts (check : OrderCheck) (state : RunState) : Prop where
  answered : ∀ before call after, state.calls = before ++ call :: after →
    check.call before call.order = .ok call.checked
  runs : state.evaluatorRuns = state.calls.length
  observed : state.observedResultBytes =
    (state.calls.map fun call => call.checked.bytes).sum
  charged : state.chargedWorkBytes =
    state.evaluatorRuns * check.serializedInputBytes + state.observedResultBytes
  within : state.chargedWorkBytes ≤ maxExhaustiveWorkBytes

private theorem RunState.accounts_initial (check : OrderCheck) : RunState.Accounts check {} where
  answered := by
    intro before call after split
    cases before <;> cases split
  runs := rfl
  observed := rfl
  charged := (Nat.zero_mul _).symm
  within := Nat.zero_le _

theorem runRepeat_accounts {state next : RunState} {order : List Rule}
    {checked : CheckedResult} (accounts : state.Accounts check)
    (ran : check.runRepeat state order = .ok (next, checked)) :
    next.Accounts check ∧ next.calls = state.calls ++ [⟨order, checked⟩] ∧
      next.observations = state.observations := by
  rcases bind_eq_ok_iff.mp ran with ⟨result, called, ran⟩
  rcases bind_eq_ok_iff.mp ran with ⟨_, affordable, ran⟩
  simp only [Except.ok.injEq, Prod.mk.injEq] at ran
  rcases ran with ⟨rfl, rfl⟩
  refine ⟨⟨?_, ?_, ?_, rfl, require_eq_ok_iff.mp affordable⟩, rfl, rfl⟩
  · intro before call after split
    rcases List.eq_nil_or_concat after with rfl | ⟨others, last, rfl⟩
    · rcases List.append_inj' split rfl with ⟨rfl, equal⟩
      cases equal
      exact called
    · -- The call lies before the last one.
      have earlier : state.calls ++ [⟨order, result⟩] =
          (before ++ call :: others) ++ [last] := by
        simpa using split
      exact accounts.answered before call others (List.append_inj' earlier rfl).1
  · rw [accounts.runs, List.length_append, List.length_singleton]
  · rw [accounts.observed, List.map_append, List.sum_append, List.map_singleton,
      List.sum_singleton]

private theorem runRepeats_accounts {state final : RunState} {order : List Rule} {count : Nat}
    {results : List CheckedResult} (accounts : state.Accounts check)
    (ran : check.runRepeats order count state = .ok (final, results)) :
    final.Accounts check ∧ results.length = count ∧
      final.calls = state.calls ++ results.map (Call.mk order) ∧
      final.observations = state.observations := by
  induction count generalizing state results with
  | zero =>
      cases ran
      exact ⟨accounts, rfl, (List.append_nil _).symm, rfl⟩
  | succ count induction =>
      rcases bind_eq_ok_iff.mp ran with ⟨⟨next, first⟩, stepped, ran⟩
      rcases bind_eq_ok_iff.mp ran with ⟨⟨last, rest⟩, repeated, ran⟩
      simp only [Except.ok.injEq, Prod.mk.injEq] at ran
      rcases ran with ⟨rfl, rfl⟩
      rcases runRepeat_accounts accounts stepped with ⟨between, extended, kept⟩
      rcases induction between repeated with ⟨done, counted, called, unchanged⟩
      refine ⟨done, congrArg Nat.succ counted, ?_, unchanged.trans kept⟩
      rw [called, extended, List.append_assoc]
      rfl

/-! ## The repeats of one order -/

namespace Repeats

variable (repeats : Repeats)

def results : List CheckedResult :=
  repeats.first :: repeats.others

def calls : List Call :=
  repeats.results.map (Call.mk repeats.order)

def observation : IdOrder × Projections :=
  (idsOf repeats.order, projections repeats.first.evaluation (idsOf repeats.order))

/-- All results of the order are equal. -/
def Agree : Prop :=
  ∀ left ∈ repeats.results, ∀ right ∈ repeats.results, left.result.Same right.result

variable {repeats}

private theorem differ_eq_true_iff
    (encodable : ∀ checked ∈ repeats.results, checked.result.Encodable) :
    repeats.differ = true ↔ ¬repeats.Agree := by
  rw [results, List.forall_mem_cons] at encodable
  have apart : ∀ other ∈ repeats.others,
      (different repeats.first.result other.result = true ↔
        ¬repeats.first.result.Same other.result) :=
    fun other member => different_eq_true_iff encodable.1 (encodable.2 other member)
  rw [differ, List.any_eq_true]
  constructor
  · intro found agree
    rcases found with ⟨other, member, differs⟩
    exact (apart other member).mp differs
      (agree _ List.mem_cons_self other (List.mem_cons_of_mem _ member))
  · intro disagree
    by_contra alike
    have same : ∀ checked ∈ repeats.results, repeats.first.result.Same checked.result := by
      rw [results, List.forall_mem_cons]
      refine ⟨Json.Same.refl _, fun other member => ?_⟩
      by_contra notSame
      exact alike ⟨other, member, (apart other member).mpr notSame⟩
    apply disagree
    intro left leftMember right rightMember
    exact (same left leftMember).symm.trans (same right rightMember)

/-- The repeat that the report sets against the first one differs from it. -/
theorem differingPair_spec (differs : repeats.differ = true) :
    repeats.results[repeats.differingPair.1]? = some repeats.differingPair.2 ∧
      different repeats.first.result repeats.differingPair.2.result = true := by
  rw [differ, List.any_eq_true] at differs
  rcases differs with ⟨other, member, apart⟩
  rcases List.mem_iff_getElem?.mp member with ⟨index, found⟩
  let indexed := repeats.others.zipIdx.map fun entry => (entry.2 + 1, entry.1)
  have listed : (index + 1, other) ∈ indexed :=
    List.mem_map.mpr ⟨(other, index), List.mem_zipIdx_iff_getElem?.mpr found, rfl⟩
  cases searched : indexed.find? fun entry =>
      different repeats.first.result entry.2.result with
  | none => exact absurd apart (List.find?_eq_none.mp searched _ listed)
  | some pair =>
      have chosen : repeats.differingPair = pair := by
        change (indexed.find? _).getD _ = _
        rw [searched]
        rfl
      have apartFromFirst := List.find?_some searched
      rw [chosen]
      refine ⟨?_, apartFromFirst⟩
      rcases List.mem_map.mp (List.mem_of_find?_eq_some searched) with
        ⟨⟨checked, position⟩, inOthers, rfl⟩
      exact List.mem_zipIdx_iff_getElem?.mp inOthers

end Repeats

private theorem runOrder_accounts {state final : RunState} {order : List Rule} {repeats : Repeats}
    (accounts : state.Accounts check)
    (ran : check.runOrder state order = .ok (final, repeats)) :
    final.Accounts check ∧ repeats.order = order ∧ repeats.results.length = orderRepeats ∧
      final.calls = state.calls ++ repeats.calls ∧ final.observations = state.observations := by
  rcases bind_eq_ok_iff.mp ran with ⟨⟨next, first⟩, stepped, ran⟩
  rcases bind_eq_ok_iff.mp ran with ⟨⟨last, others⟩, repeated, ran⟩
  simp only [Except.ok.injEq, Prod.mk.injEq] at ran
  rcases ran with ⟨rfl, rfl⟩
  rcases runRepeat_accounts accounts stepped with ⟨between, extended, kept⟩
  rcases runRepeats_accounts between repeated with ⟨done, counted, called, unchanged⟩
  refine ⟨done, rfl, congrArg Nat.succ counted, ?_, unchanged.trans kept⟩
  rw [called, extended, List.append_assoc]
  rfl

/-! ## All orders -/

/-- The orders a run went through: those whose repeats agreed, and the one it stopped at. -/
structure Screened (check : OrderCheck) (orders : List (List Rule)) (start final : RunState)
    (agreed : List Repeats) (stopped : Option Repeats) : Prop where
  accounts : final.Accounts check
  calls : final.calls = start.calls ++ (agreed ++ stopped.toList).flatMap Repeats.calls
  three : ∀ repeats ∈ agreed ++ stopped.toList, repeats.results.length = orderRepeats
  alike : ∀ repeats ∈ agreed, repeats.differ = false
  unlike : ∀ repeats ∈ stopped, repeats.differ = true
  observations : final.observations =
    agreed.foldl (fun table repeats =>
      AssociationList.insert (idsOf repeats.order) repeats.observation.2 table)
      start.observations
  inOrder : (agreed ++ stopped.toList).map Repeats.order <+: orders
  complete : stopped = none → agreed.map Repeats.order = orders

private theorem runOrders_screened {state final : RunState} {orders : List (List Rule)}
    {stopped : Option Repeats} (accounts : state.Accounts check)
    (ran : check.runOrders orders state = .ok (final, stopped)) :
    ∃ agreed, Screened check orders state final agreed stopped := by
  induction orders generalizing state with
  | nil =>
      cases ran
      exact ⟨[], accounts, (List.append_nil _).symm, List.forall_mem_nil _,
        List.forall_mem_nil _, by simp, rfl, List.nil_prefix, fun _ => rfl⟩
  | cons order orders induction =>
      rcases bind_eq_ok_iff.mp ran with ⟨⟨next, repeats⟩, ordered, ran⟩
      rcases runOrder_accounts accounts ordered with ⟨between, rfl, three, called, kept⟩
      by_cases differs : repeats.differ = true
      · simp only [if_pos differs, Except.ok.injEq, Prod.mk.injEq] at ran
        rcases ran with ⟨rfl, rfl⟩
        refine ⟨[], between, ?_, ?_, List.forall_mem_nil _, ?_, kept, ?_, ?_⟩
        · rw [called, List.nil_append, Option.toList_some, List.flatMap_singleton]
        · rw [List.nil_append, Option.toList_some, List.forall_mem_singleton]
          exact three
        · intro other equal
          cases equal
          exact differs
        · exact List.cons_prefix_cons.mpr ⟨rfl, List.nil_prefix⟩
        · intro impossible
          cases impossible
      · simp only [if_neg differs] at ran
        have carried : RunState.Accounts check
            { next with
              observations := AssociationList.insert (idsOf repeats.order)
                (projections repeats.first.evaluation (idsOf repeats.order))
                next.observations } :=
          ⟨between.answered, between.runs, between.observed, between.charged, between.within⟩
        rcases induction carried ran with ⟨agreed, rest⟩
        refine ⟨repeats :: agreed, rest.accounts, ?_, ?_, ?_, rest.unlike, ?_, ?_, ?_⟩
        · rw [rest.calls, called, List.append_assoc]
          rfl
        · exact List.forall_mem_cons.mpr ⟨three, rest.three⟩
        · exact List.forall_mem_cons.mpr ⟨Bool.eq_false_iff.mpr differs, rest.alike⟩
        · rw [rest.observations, kept]
          rfl
        · exact List.cons_prefix_cons.mpr ⟨rfl, rest.inOrder⟩
        · intro completed
          rw [List.map_cons, rest.complete completed]

namespace Screened

variable {start final : RunState} {agreed : List Repeats} {stopped : Option Repeats}

/-- The orders completed and then the one that stopped the run, in permutation order. -/
theorem orders_eq_take {orders : List (List Rule)}
    (screened : Screened check orders start final agreed stopped) :
    (agreed ++ stopped.toList).map Repeats.order =
      orders.take (agreed ++ stopped.toList).length := by
  have taken := List.prefix_iff_eq_take.mp screened.inOrder
  rwa [List.length_map] at taken

theorem perm (screened : Screened check (permutations check.policy.rules) start final agreed
      stopped) {repeats : Repeats} (member : repeats ∈ agreed ++ stopped.toList) :
    repeats.order.Perm check.policy.rules :=
  mem_permutations_iff.mp (screened.inOrder.subset (List.mem_map_of_mem member))

theorem length_calls (screened : Screened check (permutations check.policy.rules) {} final
      agreed stopped) :
    final.calls.length = orderRepeats * (agreed ++ stopped.toList).length := by
  have each : (agreed ++ stopped.toList).map (fun repeats => repeats.calls.length) =
      List.replicate (agreed ++ stopped.toList).length orderRepeats := by
    rw [List.eq_replicate_iff, List.length_map]
    refine ⟨rfl, fun count member => ?_⟩
    rcases List.mem_map.mp member with ⟨repeats, inRun, rfl⟩
    rw [Repeats.calls, List.length_map, screened.three repeats inRun]
  rw [screened.calls, List.nil_append, List.length_flatMap, each, List.sum_replicate,
    smul_eq_mul, Nat.mul_comm]

/-- One observation for each order completed. -/
theorem observations_eq (valid : check.policy.Valid)
    (screened : Screened check (permutations check.policy.rules) {} final agreed stopped) :
    final.observations = agreed.map Repeats.observation := by
  have distinctOrders : (agreed.map fun repeats => idsOf repeats.order).Nodup := by
    have ids : ((permutations check.policy.rules).map idsOf).Nodup := by
      have mapped := nodup_permutations valid.distinct
      rw [permutations_map] at mapped
      exact mapped
    have inRun : agreed.map Repeats.order <+: permutations check.policy.rules := by
      have all := screened.inOrder
      rw [List.map_append] at all
      exact (List.prefix_append _ _).trans all
    have shortened := (inRun.map idsOf).sublist.nodup ids
    rwa [List.map_map] at shortened
  have fresh : (keys ([] ++ agreed.map Repeats.observation)).Nodup := by
    rw [List.nil_append, keys, List.map_map]
    exact distinctOrders
  have entries := foldl_insert_of_nodup fresh
  rw [List.foldl_map, List.nil_append] at entries
  exact screened.observations.trans entries

end Screened

/-! ## Reports -/

theorem boundedReport_eq_ok {report bounded : OrderReport}
    (ran : boundedReport report = .ok bounded) : bounded = report := by
  rcases bind_eq_ok_iff.mp ran with ⟨_, _, equal⟩
  cases equal
  rfl

/-- A check that returned, from its preparation to its report. -/
structure Completed (policy : PolicyInput) (response : Json) (evaluator : Evaluator)
    (check : OrderCheck) (estimatedWorkBytes : Nat) (final : RunState) (agreed : List Repeats)
    (stopped : Option Repeats) (report : OrderReport) : Prop where
  prepared : Prepared policy response evaluator check estimatedWorkBytes
  screened : Screened check (permutations check.policy.rules) {} final agreed stopped
  reported : (∃ repeats, stopped = some repeats ∧
      report = check.nondeterministicReport estimatedWorkBytes final repeats) ∨
    stopped = none ∧ report = check.exhaustiveReport estimatedWorkBytes
      ((permutations check.policy.rules).map idsOf) final

theorem runOrderCheck_completed {policy : PolicyInput} {response : Json}
    {evaluator : Evaluator} {calls : List Call} {report : OrderReport}
    (ran : runOrderCheck policy response evaluator = .ok (calls, report)) :
    ∃ check estimatedWorkBytes final agreed stopped,
      Completed policy response evaluator check estimatedWorkBytes final agreed stopped
        report ∧ calls = final.calls := by
  rcases bind_eq_ok_iff.mp ran with ⟨⟨check, estimatedWorkBytes⟩, prepared, ran⟩
  rcases bind_eq_ok_iff.mp ran with ⟨⟨final, stopped⟩, ordered, ran⟩
  rcases bind_eq_ok_iff.mp ran with ⟨bounded, reported, ran⟩
  simp only [Except.ok.injEq, Prod.mk.injEq] at ran
  rcases ran with ⟨rfl, rfl⟩
  rcases runOrders_screened (RunState.accounts_initial check) ordered with ⟨agreed, screened⟩
  refine ⟨check, estimatedWorkBytes, final, agreed, stopped,
    ⟨prepareOrderCheck_eq_ok prepared, screened, ?_⟩, rfl⟩
  cases stopped with
  | some repeats => exact .inl ⟨repeats, rfl, boundedReport_eq_ok reported⟩
  | none => exact .inr ⟨rfl, boundedReport_eq_ok reported⟩

private theorem statusOf_ne_inconclusive (variance : Variance) (incompleteParticipation : Bool) :
    statusOf variance incompleteParticipation ≠ .inconclusiveNondeterministic := by
  unfold statusOf
  split_ifs <;> simp

/-! ## Custom evaluators -/

section Custom

variable {policy : PolicyInput} {response : Json}
  {respond : List Call → Policy → Json → CallOutcome} {estimatedWorkBytes : Nat}

/-- What was asked and answered in a call. -/
theorem answered_call (prepared : Prepared policy response (.custom respond) check
      estimatedWorkBytes) {before : List Call} {call : Call}
    (called : check.call before call.order = .ok call.checked) :
    respond before (check.policy.withRules call.order) response =
        .returned call.checked.result ∧
      call.checked.Contract check.policy call.order := by
  have evaluated : runEvaluator (respond before) (check.policy.withRules call.order) response =
      .ok call.checked := by
    rw [OrderCheck.call, prepared.sameEvaluator, prepared.sameResponse] at called
    exact called
  rcases runEvaluator_eq_ok_iff.mp evaluated with ⟨answered, validated, named⟩
  exact ⟨answered, validated, named⟩

variable {final : RunState} {agreed : List Repeats} {stopped : Option Repeats}

theorem answered_of_mem (prepared : Prepared policy response (.custom respond) check
      estimatedWorkBytes)
    (screened : Screened check (permutations check.policy.rules) {} final agreed stopped)
    {repeats : Repeats} (inRun : repeats ∈ agreed ++ stopped.toList)
    {checked : CheckedResult} (member : checked ∈ repeats.results) :
    ∃ before, respond before (check.policy.withRules repeats.order) response =
        .returned checked.result ∧
      checked.Contract check.policy repeats.order := by
  have made : Call.mk repeats.order checked ∈ final.calls := by
    rw [screened.calls, List.nil_append]
    exact List.mem_flatMap.mpr ⟨repeats, inRun, List.mem_map_of_mem member⟩
  rcases List.append_of_mem made with ⟨before, after, split⟩
  exact ⟨before, answered_call prepared
    (screened.accounts.answered before ⟨repeats.order, checked⟩ after split)⟩

theorem contract_of_mem (prepared : Prepared policy response (.custom respond) check
      estimatedWorkBytes)
    (screened : Screened check (permutations check.policy.rules) {} final agreed stopped)
    {repeats : Repeats} (inRun : repeats ∈ agreed ++ stopped.toList)
    {checked : CheckedResult} (member : checked ∈ repeats.results) :
    checked.Contract check.policy repeats.order := by
  rcases answered_of_mem prepared screened inRun member with ⟨_, _, contract⟩
  exact contract

theorem agree_iff (prepared : Prepared policy response (.custom respond) check
      estimatedWorkBytes)
    (screened : Screened check (permutations check.policy.rules) {} final agreed stopped)
    {repeats : Repeats} (inRun : repeats ∈ agreed ++ stopped.toList) :
    repeats.differ = true ↔ ¬repeats.Agree :=
  Repeats.differ_eq_true_iff fun _ member =>
    (contract_of_mem prepared screened inRun member).encodable

end Custom

/-! ## The screen -/

/-- What the counters of a report say of the calls made. -/
structure OrderCoverage.Counts (coverage : OrderCoverage) (policy : Policy) (response : Json)
    (calls : List Call) (attempted completed : Nat) : Prop where
  runs : coverage.evaluatorRuns = calls.length
  evaluated : coverage.ordersEvaluated = attempted
  attempts : coverage.ordersAttempted = attempted
  completions : coverage.ordersCompleted = completed
  observed : coverage.observedResultBytes =
    (calls.map fun call => call.checked.result.canonicalSize).sum
  charged : coverage.chargedWorkBytes =
    calls.length * (policy.toDict.canonicalSize + response.canonicalSize) +
      (calls.map fun call => call.checked.result.canonicalSize).sum
  within : coverage.chargedWorkBytes ≤ maxExhaustiveWorkBytes

/-- The work charged for a run is what its calls used. -/
theorem work_of_calls {policy : PolicyInput} {response : Json}
    {respond : List Call → Policy → Json → CallOutcome} {estimatedWorkBytes : Nat}
    {final : RunState} (prepared : Prepared policy response (.custom respond) check
      estimatedWorkBytes) (accounts : final.Accounts check) :
    final.observedResultBytes =
        (final.calls.map fun call => call.checked.result.canonicalSize).sum ∧
      final.chargedWorkBytes =
        final.calls.length * (check.policy.toDict.canonicalSize + response.canonicalSize) +
          (final.calls.map fun call => call.checked.result.canonicalSize).sum := by
  have bytes : ∀ call ∈ final.calls, call.checked.bytes = call.checked.result.canonicalSize := by
    intro call member
    rcases List.append_of_mem member with ⟨before, after, split⟩
    exact (answered_call prepared (accounts.answered before call after split)).2.bytes
  have observed := accounts.observed
  rw [List.map_congr_left bytes] at observed
  refine ⟨observed, ?_⟩
  rw [accounts.charged, accounts.runs, prepared.serialized, observed]

/-- A check that returns has called the evaluator three times for each order it attempted
and no more. It is inconclusive exactly when the last three results are not all equal. -/
theorem checkOrderConformance_screens {input : PolicyInput} {policy : Policy}
    {response : Json} {respond : List Call → Policy → Json → CallOutcome}
    {report : OrderReport} (validated : validatePolicy input = .ok policy)
    (ran : checkOrderConformance input response (.custom respond) = .ok report) :
    ∃ calls triples, runOrderCheck input response (.custom respond) = .ok (calls, report) ∧
      calls = triples.flatMap Repeats.calls ∧
      (∀ triple ∈ triples, triple.results.length = 3) ∧
      triples.map Repeats.order = (permutations policy.rules).take triples.length ∧
      (∀ before call after, calls = before ++ call :: after →
        respond before (policy.withRules call.order) response =
            .returned call.checked.result ∧
          call.checked.Contract policy call.order) ∧
      ((report.status = .inconclusiveNondeterministic ∧ report.coverage.mode = .incomplete ∧
          ∃ agreed last, triples = agreed ++ [last] ∧ (∀ triple ∈ agreed, triple.Agree) ∧
            ¬last.Agree ∧
            (∃ position other, last.results[position]? = some other ∧
              ¬last.first.result.Same other.result ∧
              report.witnesses = [.evaluatorResult (idsOf last.order)
                last.first.result.digest 1 other.result.digest (position + 1)]) ∧
            report.coverage.Counts policy response calls triples.length agreed.length) ∨
        (report.status ≠ .inconclusiveNondeterministic ∧
          report.coverage.mode = .exhaustive ∧
          triples.map Repeats.order = permutations policy.rules ∧
          calls.length = 3 * policy.rules.length.factorial ∧
          (∀ triple ∈ triples, triple.Agree) ∧
          report.coverage.Counts policy response calls triples.length triples.length)) := by
  rcases map_eq_ok_iff.mp ran with ⟨⟨calls, _⟩, returned, rfl⟩
  rcases runOrderCheck_completed returned with
    ⟨check, estimatedWorkBytes, final, agreed, stopped, ⟨prepared, screened, reported⟩, rfl⟩
  have same : check.policy = policy := Except.ok.inj (prepared.validated.symm.trans validated)
  subst same
  have accounts := screened.accounts
  have work := work_of_calls prepared accounts
  have observations := screened.observations_eq prepared.valid
  have alike : ∀ triple ∈ agreed, triple.Agree := by
    intro triple member
    by_contra disagree
    have differs := (agree_iff prepared screened (List.mem_append_left _ member)).mpr disagree
    rw [screened.alike triple member] at differs
    cases differs
  refine ⟨final.calls, agreed ++ stopped.toList, returned, ?_, screened.three,
    screened.orders_eq_take, ?_, ?_⟩
  · rw [screened.calls, List.nil_append]
  · intro before call after split
    exact answered_call prepared (accounts.answered before call after split)
  · rcases reported with ⟨last, rfl, equal⟩ | ⟨rfl, equal⟩
    · subst equal
      refine .inl ⟨rfl, rfl, agreed, last, rfl, alike, ?_, ?_, ?_⟩
      · have inRun : last ∈ agreed ++ (some last).toList :=
          List.mem_append_right _ (List.mem_singleton_self _)
        exact (agree_iff prepared screened inRun).mp (screened.unlike last rfl)
      · have inRun : last ∈ agreed ++ (some last).toList :=
          List.mem_append_right _ (List.mem_singleton_self _)
        rcases Repeats.differingPair_spec (screened.unlike last rfl) with ⟨found, apart⟩
        have encodable : ∀ checked ∈ last.results, checked.result.Encodable :=
          fun _ member => (contract_of_mem prepared screened inRun member).encodable
        refine ⟨last.differingPair.1, last.differingPair.2, found, ?_, rfl⟩
        exact (different_eq_true_iff (encodable _ List.mem_cons_self)
          (encodable _ (List.mem_of_getElem? found))).mp apart
      · have attempted : final.observations.length + 1 = (agreed ++ [last]).length := by
          rw [observations, List.length_map, List.length_append, List.length_singleton]
        have completed : final.observations.length + 1 - 1 = agreed.length := by
          rw [observations, List.length_map, Nat.add_sub_cancel]
        exact ⟨accounts.runs, attempted, attempted, completed, work.1, work.2,
          accounts.within⟩
    · subst equal
      have orders := screened.complete rfl
      have completed : final.observations.length = agreed.length := by
        rw [observations, List.length_map]
      rw [Option.toList_none, List.append_nil]
      refine .inr ⟨statusOf_ne_inconclusive _ _, rfl, orders, ?_, alike, accounts.runs,
        completed, completed, completed, work.1, work.2, accounts.within⟩
      rw [screened.length_calls, Option.toList_none, List.append_nil,
        ← List.length_map Repeats.order, orders, length_permutations]
      rfl

def pairPolicy : Policy :=
  ⟨text "pair", [⟨text "first", text "a", .requiredField⟩,
    ⟨text "second", text "b", .requiredField⟩], .version1_0⟩

theorem validatePolicy_pairPolicy :
    validatePolicy (.object pairPolicy.toObject) = .ok pairPolicy := by
  decide +kernel

/-- Reports no rule, except on its fifth call. -/
def forgetful (calls : List Call) (policy : Policy) (_ : Json) : CallOutcome :=
  let row : RuleResult := ⟨.requiredField, false, text "a", .missing, text "first"⟩
  let result : EvaluationResult :=
    ⟨false, policy.policyId, if calls.length = 4 then [row] else []⟩
  .returned result.toJson

theorem checkOrderConformance_screens_forgetful :
    ∃ report, checkOrderConformance (.object pairPolicy.toObject) (.object [])
        (.custom forgetful) = .ok report ∧
      ∃ (calls : List Call) (triples : List Repeats),
        runOrderCheck (.object pairPolicy.toObject) (.object [])
          (.custom forgetful) = .ok (calls, report) ∧
        calls = triples.flatMap Repeats.calls ∧
        (∀ triple ∈ triples, triple.results.length = 3) ∧
        triples.map Repeats.order = (permutations pairPolicy.rules).take triples.length := by
  have returned : (checkOrderConformance (.object pairPolicy.toObject) (.object [])
      (.custom forgetful)).isOk = true := by
    decide +kernel
  rcases exists_of_isOk returned with ⟨report, ran⟩
  rcases checkOrderConformance_screens validatePolicy_pairPolicy ran with
    ⟨calls, triples, traced, made, three, orders, _⟩
  exact ⟨report, ran, calls, triples, traced, made, three, orders⟩

end AgentTestbench

import AgentTestbench.Foundation.Fallible

/-! # What a computation fails with

A property of every failure a computation can end in: one rule for each way of combining
computations.
-/

namespace Fallible

variable {Failure Other Value Result State : Type} {property : Failure → Prop}

/-- Every failure of the computation has the property. -/
def FailsWith (property : Failure → Prop) (computation : Except Failure Value) : Prop :=
  ∀ failure, computation = .error failure → property failure

theorem failsWith_ok (value : Value) : FailsWith property (.ok value) := by
  intro failure failed
  cases failed

theorem failsWith_error {failure : Failure} (holds : property failure) :
    FailsWith property (.error failure : Except Failure Value) := by
  intro other failed
  cases failed
  exact holds

theorem failsWith_require {condition : Prop} [Decidable condition] {failure : Failure}
    (holds : ¬condition → property failure) : FailsWith property (require condition failure) := by
  intro other failed
  rcases require_eq_error_iff.mp failed with ⟨refused, rfl⟩
  exact holds refused

theorem failsWith_ite {condition : Prop} [Decidable condition]
    {first second : Except Failure Value} (holds : condition → FailsWith property first)
    (fails : ¬condition → FailsWith property second) :
    FailsWith property (if condition then first else second) := by
  by_cases decided : condition
  · rw [if_pos decided]
    exact holds decided
  · rw [if_neg decided]
    exact fails decided

theorem failsWith_bind {computation : Except Failure Value}
    {next : Value → Except Failure Result} (first : FailsWith property computation)
    (rest : ∀ value, computation = .ok value → FailsWith property (next value)) :
    FailsWith property (computation >>= next) := by
  intro failure failed
  rcases bind_eq_error_iff.mp failed with failed | ⟨value, returned, failed⟩
  · exact first failure failed
  · exact rest value returned failure failed

theorem failsWith_map {computation : Except Failure Value} {transform : Value → Result}
    (first : FailsWith property computation) : FailsWith property (computation.map transform) := by
  intro failure failed
  cases computation with
  | ok value => cases failed
  | error cause =>
      cases failed
      exact first _ rfl

theorem failsWith_mapError {computation : Except Other Value} {transform : Other → Failure}
    (each : ∀ cause, computation = .error cause → property (transform cause)) :
    FailsWith property (computation.mapError transform) := by
  intro failure failed
  rcases mapError_eq_error_iff.mp failed with ⟨cause, raised, rfl⟩
  exact each cause raised

theorem failsWith_forEach {step : Value → Except Failure Result} {items : List Value}
    (each : ∀ item ∈ items, FailsWith property (step item)) :
    FailsWith property (forEach step items) := by
  induction items with
  | nil => exact failsWith_ok _
  | cons item items induction =>
      rw [List.forall_mem_cons] at each
      apply failsWith_bind each.1
      intro first _
      apply failsWith_bind (induction each.2)
      intro rest _
      exact failsWith_ok _

theorem failsWith_foldlM {step : State → Value → Except Failure State} {items : List Value}
    (each : ∀ state, ∀ item ∈ items, FailsWith property (step state item)) (start : State) :
    FailsWith property (items.foldlM step start) := by
  induction items generalizing start with
  | nil => exact failsWith_ok _
  | cons item items induction =>
      rw [List.foldlM_cons]
      apply failsWith_bind (each start item List.mem_cons_self)
      intro next _
      refine induction (fun state other member => ?_) next
      exact each state other (List.mem_cons_of_mem _ member)

end Fallible

import Mathlib

/-! # Fallible computations

When an `Except` computation returns, and when it fails: one rule for each way of
combining computations.
-/

namespace Fallible

variable {Failure Other Value Result : Type}

/-- Raise a failure unless a condition holds. -/
def require (condition : Prop) [Decidable condition] (failure : Failure) :
    Except Failure Unit :=
  if condition then .ok () else .error failure

theorem ok_bind (value : Value) (next : Value → Except Failure Result) :
    (Except.ok value >>= next) = next value := rfl

theorem bind_eq_ok_iff {computation : Except Failure Value}
    {next : Value → Except Failure Result} {result : Result} :
    (computation >>= next) = .ok result ↔
      ∃ value, computation = .ok value ∧ next value = .ok result := by
  cases computation with
  | error failure => exact ⟨nofun, nofun⟩
  | ok value =>
      constructor
      · intro returned
        exact ⟨value, rfl, returned⟩
      · intro holds
        rcases holds with ⟨_, equal, returned⟩
        cases equal
        exact returned

theorem bind_eq_error_iff {computation : Except Failure Value}
    {next : Value → Except Failure Result} {failure : Failure} :
    (computation >>= next) = .error failure ↔
      computation = .error failure ∨
        ∃ value, computation = .ok value ∧ next value = .error failure := by
  cases computation with
  | error other =>
      constructor
      · intro failed
        cases failed
        exact .inl rfl
      · intro failed
        rcases failed with failed | ⟨_, equal, _⟩
        · cases failed
          rfl
        · cases equal
  | ok value =>
      constructor
      · intro failed
        exact .inr ⟨value, rfl, failed⟩
      · intro failed
        rcases failed with failed | ⟨_, equal, failed⟩
        · cases failed
        · cases equal
          exact failed

theorem exists_of_isOk {computation : Except Failure Value}
    (returned : computation.isOk = true) : ∃ value, computation = .ok value := by
  cases computation with
  | error failure => cases returned
  | ok value => exact ⟨value, rfl⟩

theorem map_eq_ok_iff {computation : Except Failure Value} {transform : Value → Result}
    {result : Result} :
    computation.map transform = .ok result ↔
      ∃ value, computation = .ok value ∧ transform value = result := by
  cases computation <;> simp [Except.map]

theorem map_bind (computation : Except Failure Value) (next : Value → Except Failure Other)
    (transform : Other → Result) :
    (computation >>= next).map transform =
      computation >>= fun value => (next value).map transform := by
  cases computation <;> rfl

theorem mapError_eq_ok_iff {computation : Except Failure Value} {transform : Failure → Other}
    {value : Value} :
    computation.mapError transform = .ok value ↔ computation = .ok value := by
  cases computation <;> simp [Except.mapError]

theorem mapError_eq_error_iff {computation : Except Failure Value}
    {transform : Failure → Other} {failure : Other} :
    computation.mapError transform = .error failure ↔
      ∃ cause, computation = .error cause ∧ transform cause = failure := by
  cases computation <;> simp [Except.mapError]

section Require

variable {condition : Prop} [Decidable condition] {failure : Failure}

theorem require_eq_ok_iff {done : Unit} :
    require condition failure = .ok done ↔ condition := by
  by_cases holds : condition <;> simp [require, holds]

theorem require_eq_error_iff {other : Failure} :
    require condition failure = .error other ↔ ¬condition ∧ failure = other := by
  by_cases holds : condition <;> simp [require, holds]

theorem require_of_holds (holds : condition) :
    require condition failure = .ok () := if_pos holds

end Require

/-! ## Lists -/

/-- Run a computation on every item in order. -/
def forEach (step : Value → Except Failure Result) : List Value → Except Failure (List Result)
  | [] => .ok []
  | item :: items => do
      let first ← step item
      let rest ← forEach step items
      .ok (first :: rest)

theorem forEach_eq_ok_iff {step : Value → Except Failure Result} {items : List Value}
    {results : List Result} :
    forEach step items = .ok results ↔
      List.Forall₂ (fun item result => step item = .ok result) items results := by
  induction items generalizing results with
  | nil => simp [forEach, eq_comm]
  | cons item items induction =>
      simp only [forEach, bind_eq_ok_iff, induction, Except.ok.injEq, List.forall₂_cons_left_iff]
      constructor
      · intro holds
        rcases holds with ⟨first, returned, rest, each, equal⟩
        exact ⟨first, rest, returned, each, equal.symm⟩
      · intro holds
        rcases holds with ⟨first, rest, returned, each, equal⟩
        exact ⟨first, returned, rest, each, equal.symm⟩

theorem forEach_eq_map {step : Value → Except Failure Result} {result : Value → Result}
    {items : List Value} (each : ∀ item ∈ items, step item = .ok (result item)) :
    forEach step items = .ok (items.map result) := by
  rw [forEach_eq_ok_iff, List.forall₂_map_right_iff, List.forall₂_same]
  exact each

/-- A property that every step preserves holds of the state a run ends in. -/
theorem foldlM_preserves {State : Type} {step : State → Value → Except Failure State}
    {property : State → Prop} {items : List Value} {initial final : State}
    (each : ∀ item ∈ items, ∀ state next, property state → step state item = .ok next →
      property next)
    (start : property initial) (ran : items.foldlM step initial = .ok final) :
    property final := by
  induction items generalizing initial with
  | nil =>
      cases ran
      exact start
  | cons item items induction =>
      rw [List.forall_mem_cons] at each
      rw [List.foldlM_cons, bind_eq_ok_iff] at ran
      rcases ran with ⟨next, stepped, rest⟩
      exact induction each.2 (each.1 initial next start stepped) rest

/-- A run collects what its steps collect, in order. -/
theorem foldlM_collects {State Entry : Type} {step : State → Value → Except Failure State}
    {collected : State → List Entry} {entries : Value → List Entry} {items : List Value}
    {initial final : State}
    (each : ∀ item ∈ items, ∀ state next, step state item = .ok next →
      collected next = collected state ++ entries item)
    (ran : items.foldlM step initial = .ok final) :
    collected final = collected initial ++ items.flatMap entries := by
  induction items generalizing initial with
  | nil =>
      cases ran
      exact (List.append_nil _).symm
  | cons item items induction =>
      rw [List.forall_mem_cons] at each
      rw [List.foldlM_cons, bind_eq_ok_iff] at ran
      rcases ran with ⟨next, stepped, rest⟩
      rw [induction each.2 rest, each.1 initial next stepped, List.flatMap_cons,
        List.append_assoc]

theorem exists_of_mem_right {relation : Value → Result → Prop} {items : List Value}
    {results : List Result} {result : Result} (related : List.Forall₂ relation items results)
    (member : result ∈ results) : ∃ item ∈ items, relation item result := by
  induction related with
  | nil => cases member
  | cons first rest induction =>
      rcases List.mem_cons.mp member with rfl | later
      · exact ⟨_, List.mem_cons_self, first⟩
      · rcases induction later with ⟨item, inItems, found⟩
        exact ⟨item, List.mem_cons_of_mem _ inItems, found⟩

theorem exists_of_mem_left {relation : Value → Result → Prop} {items : List Value}
    {results : List Result} {item : Value} (related : List.Forall₂ relation items results)
    (member : item ∈ items) : ∃ result ∈ results, relation item result := by
  have flipped : List.Forall₂ (flip relation) results items := related.flip
  exact exists_of_mem_right flipped member

/-- Decoding every item inverts encoding every item. -/
theorem mapM_eq_some_iff {decode : Value → Option Result} {encode : Result → Value}
    (inverse : ∀ value result, decode value = some result ↔ value = encode result)
    {items : List Value} {results : List Result} :
    items.mapM decode = some results ↔ items = results.map encode := by
  induction items generalizing results with
  | nil => cases results <;> simp
  | cons item items induction =>
      rw [List.mapM_cons]
      cases results with
      | nil => cases decode item <;> cases items.mapM decode <;> simp
      | cons result results =>
          rw [List.map_cons, List.cons.injEq, ← inverse, ← induction]
          cases decode item <;> cases items.mapM decode <;> simp

end Fallible

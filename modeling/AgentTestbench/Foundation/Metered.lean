import AgentTestbench.Foundation.Fallible

/-! # Metered steps

A step of a fallible loop that spends a fixed amount of a limited budget and adds fixed
entries. A sequence of such steps fails exactly when its total does not fit.
-/

namespace Metered

open Fallible

variable {State Entry Failure Value : Type}

/-- What a loop state has spent, and the entries it has collected. -/
structure Meter (State Entry : Type) where
  spent : State → Nat
  shown : State → List Entry

/-- From any state within the limit, the step spends the amount and adds the entries,
or fails when the amount does not fit. -/
def Charges (meter : Meter State Entry) (limit : Nat) (failure : Failure)
    (step : State → Except Failure State) (amount : Nat) (entries : List Entry) : Prop :=
  ∀ state, meter.spent state ≤ limit →
    (meter.spent state + amount ≤ limit → ∃ next, step state = .ok next ∧
      meter.spent next = meter.spent state + amount ∧
      meter.shown next = meter.shown state ++ entries) ∧
    (limit < meter.spent state + amount → step state = .error failure)

variable {meter : Meter State Entry} {limit : Nat} {failure : Failure}

/-- A step that never fails spends nothing. -/
theorem charges_of_free {transform : State → State} {entries : List Entry}
    (spent : ∀ state, meter.spent (transform state) = meter.spent state)
    (shown : ∀ state, meter.shown (transform state) = meter.shown state ++ entries) :
    Charges meter limit failure (fun state => .ok (transform state)) 0 entries := by
  intro state inside
  constructor
  · intro _
    exact ⟨transform state, rfl, spent state, shown state⟩
  · intro beyond
    omega

theorem Charges.bind {first second : State → Except Failure State} {amount more : Nat}
    {entries others : List Entry} (charges : Charges meter limit failure first amount entries)
    (continued : Charges meter limit failure second more others) :
    Charges meter limit failure (fun state => first state >>= second) (amount + more)
      (entries ++ others) := by
  intro state inside
  simp only
  by_cases fits : meter.spent state + amount ≤ limit
  · rcases (charges state inside).1 fits with ⟨next, ran, spent, shown⟩
    have after := continued next (spent ▸ fits)
    rw [spent, shown] at after
    rw [ran, ok_bind, ← Nat.add_assoc, ← List.append_assoc]
    exact after
  · have beyond : limit < meter.spent state + amount := Nat.lt_of_not_le fits
    constructor
    · intro total
      omega
    · intro _
      rw [(charges state inside).2 beyond]
      rfl

/-- A loop spends what its rounds spend together. -/
theorem charges_foldlM {step : State → Value → Except Failure State} {amount : Value → Nat}
    {entries : Value → List Entry} {items : List Value}
    (each : ∀ item ∈ items,
      Charges meter limit failure (fun state => step state item) (amount item) (entries item)) :
    Charges meter limit failure (fun state => items.foldlM step state) (items.map amount).sum
      (items.flatMap entries) := by
  induction items with
  | nil =>
      have unchanged : Charges meter limit failure (fun state => .ok (id state)) 0 [] :=
        charges_of_free (fun _ => rfl) fun _ => (List.append_nil _).symm
      exact unchanged
  | cons item items induction =>
      rw [List.forall_mem_cons] at each
      simp only [List.foldlM_cons, List.map_cons, List.sum_cons, List.flatMap_cons]
      exact each.1.bind (induction each.2)

end Metered

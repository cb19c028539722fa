import Mathlib

/-! # Programs that raise

Programs over a state that return a value or raise, keeping the state they reach either
way. A triple says what holds of the state in both endings; there is one rule for each
way of putting programs together.
-/

namespace Raising

variable {State Failure Value Result : Type}

/-- From a state with `before`, the program returns with `returned` or raises with
`raised`. -/
def Triple (before : State → Prop) (program : EStateM Failure State Value)
    (returned : Value → State → Prop) (raised : Failure → State → Prop) : Prop :=
  ∀ state, before state → match program state with
    | .ok value next => returned value next
    | .error failure next => raised failure next

variable {before : State → Prop} {raised : Failure → State → Prop}

theorem triple_pure {returned : Value → State → Prop} (value : Value)
    (holds : ∀ state, before state → returned value state) :
    Triple before (pure value) returned raised :=
  holds

theorem triple_throw {returned : Value → State → Prop} (failure : Failure)
    (holds : ∀ state, before state → raised failure state) :
    Triple before (throw failure) returned raised :=
  holds

theorem triple_get {returned : State → State → Prop}
    (holds : ∀ state, before state → returned state state) :
    Triple before get returned raised :=
  holds

theorem triple_modify {returned : PUnit → State → Prop} (change : State → State)
    (holds : ∀ state, before state → returned ⟨⟩ (change state)) :
    Triple before (modify change) returned raised :=
  holds

theorem triple_bind (middle : Value → State → Prop) {program : EStateM Failure State Value}
    {next : Value → EStateM Failure State Result} {returned : Result → State → Prop}
    (first : Triple before program middle raised)
    (rest : ∀ value, Triple (middle value) (next value) returned raised) :
    Triple before (program >>= next) returned raised := by
  intro state holds
  have reached := first state holds
  change match EStateM.bind program next state with
    | .ok value after => returned value after
    | .error failure after => raised failure after
  rw [EStateM.bind]
  cases ran : program state with
  | ok value after =>
      rw [ran] at reached
      exact rest value after reached
  | error failure after =>
      rw [ran] at reached
      exact reached

/-- A fact that does not mention the state. -/
theorem triple_given {fact : Prop} {program : EStateM Failure State Value}
    {returned : Value → State → Prop} (triple : fact → Triple before program returned raised) :
    Triple (fun state => before state ∧ fact) program returned raised :=
  fun state holds => triple holds.2 state holds.1

theorem triple_consequence {stronger : State → Prop} {program : EStateM Failure State Value}
    {narrow wide : Value → State → Prop} {narrowRaised : Failure → State → Prop}
    (triple : Triple before program narrow narrowRaised)
    (weaken : ∀ state, stronger state → before state)
    (widen : ∀ value state, narrow value state → wide value state)
    (widenRaised : ∀ failure state, narrowRaised failure state → raised failure state) :
    Triple stronger program wide raised := by
  intro state holds
  have reached := triple state (weaken state holds)
  cases ran : program state with
  | ok value after =>
      rw [ran] at reached
      exact widen value after reached
  | error failure after =>
      rw [ran] at reached
      exact widenRaised failure after reached

theorem triple_ite {condition : Prop} [Decidable condition]
    {first second : EStateM Failure State Value} {returned : Value → State → Prop}
    (holds : condition → Triple before first returned raised)
    (fails : ¬condition → Triple before second returned raised) :
    Triple before (if condition then first else second) returned raised := by
  by_cases decided : condition
  · rw [if_pos decided]
    exact holds decided
  · rw [if_neg decided]
    exact fails decided

/-- `try: … except: …`. -/
theorem triple_tryCatch (caught : Failure → State → Prop)
    {program : EStateM Failure State Value} {handler : Failure → EStateM Failure State Value}
    {returned : Value → State → Prop} (body : Triple before program returned caught)
    (handled : ∀ failure, Triple (caught failure) (handler failure) returned raised) :
    Triple before (tryCatch program handler) returned raised := by
  intro state holds
  have reached := body state holds
  change match EStateM.tryCatch program handler state with
    | .ok value after => returned value after
    | .error failure after => raised failure after
  rw [EStateM.tryCatch]
  cases ran : program state with
  | ok value after =>
      rw [ran] at reached
      exact reached
  | error failure after =>
      rw [ran] at reached
      exact handled failure after reached

/-- `try: … finally: …`; an exception of the last block replaces the pending one. -/
theorem triple_tryFinally (middle : Value → State → Prop) (pending : Failure → State → Prop)
    {program : EStateM Failure State Value} {cleanup : EStateM Failure State Result}
    {returned : Value → State → Prop} (body : Triple before program middle pending)
    (afterReturn : ∀ value, Triple (middle value) cleanup (fun _ => returned value) raised)
    (afterRaise : ∀ failure, Triple (pending failure) cleanup (fun _ => raised failure) raised) :
    Triple before (tryFinally program cleanup) returned raised := by
  intro state holds
  have reached := body state holds
  cases ran : program state with
  | ok value after =>
      rw [ran] at reached
      have cleaned := afterReturn value after reached
      cases cleanedUp : cleanup after <;> rw [cleanedUp] at cleaned <;>
        simpa only [tryFinally, tryFinally', Functor.map, EStateM.map, ran, cleanedUp] using cleaned
  | error failure after =>
      rw [ran] at reached
      have cleaned := afterRaise failure after reached
      cases cleanedUp : cleanup after <;> rw [cleanedUp] at cleaned <;>
        simpa only [tryFinally, tryFinally', Functor.map, EStateM.map, ran, cleanedUp] using cleaned

/-! ## Runs from one state -/

section Runs

variable {program : EStateM Failure State Value} {next : Value → EStateM Failure State Result}
  {state after : State}

theorem bind_of_ok {value : Value} (ran : program state = .ok value after) :
    (program >>= next) state = next value after := by
  change EStateM.bind program next state = _
  rw [EStateM.bind, ran]

theorem bind_of_error {failure : Failure} (ran : program state = .error failure after) :
    (program >>= next) state = .error failure after := by
  change EStateM.bind program next state = _
  rw [EStateM.bind, ran]

theorem bind_get (next : State → EStateM Failure State Result) (state : State) :
    (get >>= next) state = next state state := rfl

end Runs

/-! ## Parts of the state -/

variable {Part : Type}

/-- Run a program on a part of the state. The part it leaves is put back, whether it
returns or raises. -/
def onPart (part : Part) (put : Part → State → State) (program : EStateM Failure Part Value) :
    EStateM Failure State Value := fun state =>
  match program part with
  | .ok value left => .ok value (put left state)
  | .error failure left => .error failure (put left state)

theorem onPart_of_ok {part left : Part} {put : Part → State → State}
    {program : EStateM Failure Part Value} {value : Value}
    (ran : program part = .ok value left) (state : State) :
    onPart part put program state = .ok value (put left state) := by
  rw [onPart, ran]

/-- A part that is left as it was is put back as it was. -/
theorem onPart_of_error {part : Part} {put : Part → State → State}
    {program : EStateM Failure Part Value} {failure : Failure} {state : State}
    (ran : program part = .error failure part) (unchanged : put part state = state) :
    onPart part put program state = .error failure state := by
  rw [onPart, ran]
  exact congrArg _ unchanged

end Raising

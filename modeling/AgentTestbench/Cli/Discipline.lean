import AgentTestbench.Cli.Loading

/-! # Exit statuses and streams

Every run of `main` ends with 0, 1 or 2. A result is one document on standard output, an error is
one document on standard error, and no run raises.
-/

namespace AgentTestbench

open AssociationList Fallible Raising Json

/-! ## What the streams receive -/

private theorem Sink.written_offer_of_whole {sink : Sink} (content : Text)
    (whole : sink.intake = .whole) :
    (sink.offer content).written = sink.written ++ content.utf8 := by
  rw [offer, whole]

theorem Json.Writable.streamText {value : Json} (writable : value.Writable) :
    streamText value = some value.document := by
  rcases writable.stableJson with ⟨stable, encodable⟩
  rw [AgentTestbench.streamText, stable]
  exact if_pos encodable

private theorem writable_acknowledgement {command : Command} {result display : Json}
    (writable : result.Writable) (shown : acknowledgement command result = some display) :
    display.Writable := by
  rw [acknowledgement] at shown
  split_ifs at shown
  · rcases Option.map_eq_some_iff.mp shown with ⟨policyId, present, rfl⟩
    refine writable_member _ (writable_bool _) ?_
    exact writable_member _ (writable.of_member? present) writable_empty
  · cases shown
    exact writable_member _ (writable_bool _) writable_empty

private theorem Command.apply_writable {command : Command} {inputs : Field → Json} {result : Json}
    (applied : command.apply inputs = .ok result) : result.Writable := by
  cases direct : command.isTable with
  | true =>
      rcases Command.exists_of_isTable direct with ⟨operation, rfl⟩
      exact operation.function_writable applied
  | false =>
      rw [Command.apply_of_direct direct] at applied
      rcases bind_eq_ok_iff.mp applied with ⟨policy, validated, returned⟩
      exact command.function_writable (valid_of_validatePolicy validated) returned

private theorem Command.apply_exits {arguments : Arguments} {inputs : Field → Json} {result : Json}
    (applied : arguments.command.apply inputs = .ok result) :
    ∃ status ≤ 1, exitStatus arguments result = some status ∧
      (status = 1 → arguments.strictExit = true ∨ arguments.strictReasons = true) := by
  cases direct : arguments.command.isTable with
  | true =>
      rcases Command.exists_of_isTable direct with ⟨operation, named⟩
      have returned : arguments.command.function presencePolicy inputs = .ok result := by
        rw [named] at applied ⊢
        exact applied
      exact exitStatus_exits returned
  | false =>
      rw [Command.apply_of_direct direct] at applied
      rcases bind_eq_ok_iff.mp applied with ⟨policy, _, returned⟩
      exact exitStatus_exits returned

/-- What is displayed is always there, and can be written. -/
theorem displayed_writable {arguments : Arguments} {inputs : Field → Json} {result : Json}
    (applied : arguments.command.apply inputs = .ok result) :
    ∃ display, displayed arguments result = some display ∧ display.Writable := by
  have writable := Command.apply_writable applied
  rw [displayed]
  cases arguments.output with
  | none => exact ⟨result, rfl, writable⟩
  | some output =>
      have shown : ∃ display, acknowledgement arguments.command result = some display := by
        rw [acknowledgement]
        split_ifs with synthetic
        · rw [synthetic] at applied
          rcases bind_eq_ok_iff.mp applied with ⟨policy, _, returned⟩
          rcases map_eq_ok returned with ⟨bundle, _, rfl⟩
          exact ⟨_, rfl⟩
        · exact ⟨_, rfl⟩
      rcases shown with ⟨display, shown⟩
      exact ⟨display, shown, writable_acknowledgement writable shown⟩

/-! ## The two endings -/

section Endings

variable {State : Type} (host : Host) (read : Reader State)

/-- The document of an error on standard error. -/
def errorDocument (error : Json) : Text :=
  Json.document (.object [(text "error", error)])

/-- The disk after the export of a result, if any. -/
def exportedDisk (disk : Disk) (arguments : Arguments) (result : Json) : Disk :=
  match arguments.output with
  | none => disk
  | some output => (writeJsonTo host disk output result).2

/-- The run has a result: the command was applied to what its arguments stood for, the export
was made, and one document was written to standard output, whole unless the stream takes
parts. -/
structure Completes (arguments : Arguments) (process final : Process State)
    (inputs : Field → Json) (result : Json) : Prop where
  guarded : guardOutput host process.disk arguments = .ok ()
  ran : Ran host read process arguments inputs result
  exported : ∀ output ∈ arguments.output, (writeJsonTo host process.disk output result).1 = .ok ()
  disk : final.disk = exportedDisk host process.disk arguments result
  accepted : process.stdout.accepts = true
  shown : ∃ display, displayed arguments result = some display ∧
    final.stdout = process.stdout.offer display.document ∧
    (process.stdout.intake = .whole →
      final.stdout.written = process.stdout.written ++ display.document.utf8)
  silent : final.stderr = process.stderr

/-- The run stops with a controlled error, or with invalid data where an input cannot be
located. -/
def Reported (arguments : Arguments) (error : Json) : Prop :=
  (∃ failure : CommandFailure, failure.Reportable ∧ error = failure.publicError) ∨
    (error = invalidDataError ∧
      ∃ field ∈ arguments.command.fields, Unlocated host (arguments.path field))

/-- What a run that stops has changed: nothing but the position of standard input, unless its
result was already there. -/
def Unchanged (arguments : Arguments) (error : Json) (process final : Process State) : Prop :=
  (final.disk = process.disk ∧ final.stdout = process.stdout) ∨
    ∃ inputs result, Ran host read process arguments inputs result ∧
      final.disk = exportedDisk host process.disk arguments result ∧
      ((error = outputFailure.publicError ∧ final.stdout = process.stdout) ∨
        (error = standardOutputFailure.publicError ∧ process.stdout.accepts = false ∧
          ∃ display, displayed arguments result = some display ∧
            final.stdout = process.stdout.offer display.document))

end Endings

/-! ## The try block -/

section Performing

variable {State : Type} {host : Host} {read : Reader State} {arguments : Arguments}
  {process : Process State}

private theorem guardField_reportable {disk : Disk} {output raw : Text} {failure : CommandFailure}
    (refused : guardField host disk output raw = .error failure) : failure.Reportable := by
  rw [guardField] at refused
  split_ifs at refused
  split at refused
  · rw [← (require_eq_error_iff.mp refused).2]
    exact text_encodable _
  · cases refused
    exact text_encodable _

private theorem guardOutput_reportable {disk : Disk} {failure : CommandFailure}
    (refused : guardOutput host disk arguments = .error failure) : failure.Reportable := by
  have reports : FailsWith CommandFailure.Reportable (guardOutput host disk arguments) := by
    rw [guardOutput]
    split
    · exact failsWith_ok _
    · refine failsWith_bind (failsWith_require fun _ => text_encodable _) fun _ _ => ?_
      refine failsWith_bind (failsWith_require fun _ => text_encodable _) fun _ _ => ?_
      refine failsWith_bind (failsWith_forEach fun field _ => ?_) fun _ _ => failsWith_ok _
      exact fun failure refused => guardField_reportable refused
  exact reports failure refused

private theorem writeJsonTo_failure {disk : Disk} {output : Text} {value : Json}
    {failure : CommandFailure} (failed : (writeJsonTo host disk output value).1 = .error failure) :
    failure = outputFailure := by
  rw [writeJsonTo] at failed
  split at failed
  · exact (Except.error.inj failed).symm
  · simp only at failed
    split at failed
    · cases failed
    · exact (Except.error.inj failed).symm

theorem exportStep_returns {middle : Process State} {result : Json}
    (reads : process.Reads middle)
    (exported : ∀ output ∈ arguments.output,
      (writeJsonTo host process.disk output result).1 = .ok ()) :
    exportStep host arguments result middle =
      .ok () { middle with disk := exportedDisk host process.disk arguments result } := by
  rw [exportStep, exportedDisk]
  cases given : arguments.output with
  | none =>
      rw [← reads.disk]
      rfl
  | some output =>
      have written := exported output given
      rcases whole : writeJsonTo host process.disk output result with ⟨_, disk⟩
      rw [whole] at written
      cases written
      simp only
      rw [exportResult, bind_get, reads.disk, whole]
      rfl

private theorem exportStep_fails {middle : Process State} {output : Text} {result : Json}
    (reads : process.Reads middle) (given : arguments.output = some output)
    (failed : (writeJsonTo host process.disk output result).1 ≠ .ok ()) :
    exportStep host arguments result middle = .error (.controlled outputFailure)
      { middle with disk := exportedDisk host process.disk arguments result } := by
  rcases whole : writeJsonTo host process.disk output result with ⟨written, disk⟩
  rw [exportStep, exportedDisk, given]
  simp only
  rw [exportResult, bind_get, reads.disk, whole]
  cases written with
  | ok done => exact absurd (by rw [whole]) failed
  | error failure =>
      have cause : failure = outputFailure := writeJsonTo_failure (by rw [whole])
      rw [cause]
      rfl

private theorem exportStep_triple {middle : Process State} {inputs : Field → Json} {result : Json}
    (reads : process.Reads middle) (ran : Ran host read process arguments inputs result) :
    Triple (· = middle) (exportStep host arguments result)
      (fun _ after =>
        after = { middle with disk := exportedDisk host process.disk arguments result } ∧
        ∀ output ∈ arguments.output, (writeJsonTo host process.disk output result).1 = .ok ())
      fun interrupt after => Reported host arguments interrupt.error ∧
        Unchanged host read arguments interrupt.error process after ∧
        after.stderr = process.stderr := by
  intro state holds
  subst holds
  by_cases exported : ∀ output ∈ arguments.output,
      (writeJsonTo host process.disk output result).1 = .ok ()
  · rw [exportStep_returns reads exported]
    exact ⟨rfl, exported⟩
  · push Not at exported
    rcases exported with ⟨output, given, failed⟩
    rw [exportStep_fails reads given failed]
    exact ⟨.inl ⟨outputFailure, text_encodable _, rfl⟩,
      .inr ⟨inputs, result, ran, rfl, .inl ⟨rfl, reads.stdout⟩⟩, reads.stderr⟩

theorem displayStep_eq {inputs : Field → Json} {result : Json} {state : Process State}
    (applied : arguments.command.apply inputs = .ok result)
    (same : state.stdout = process.stdout) :
    ∃ display, displayed arguments result = some display ∧
      displayStep arguments result state =
        if process.stdout.accepts then
          .ok (some result) { state with stdout := process.stdout.offer display.document }
        else .error (.controlled standardOutputFailure)
          { state with stdout := process.stdout.offer display.document } := by
  rcases displayed_writable applied with ⟨display, shown, writable⟩
  refine ⟨display, shown, ?_⟩
  have wrote : writeStandardOutput display state =
      if process.stdout.accepts then
        .ok () { state with stdout := process.stdout.offer display.document }
      else .error (.controlled standardOutputFailure)
        { state with stdout := process.stdout.offer display.document } := by
    rw [writeStandardOutput, writable.streamText]
    simp only
    rw [bind_get, same]
    cases process.stdout.accepts <;> rfl
  rw [displayStep, shown]
  simp only
  cases accepted : process.stdout.accepts with
  | true =>
      rw [accepted, if_pos rfl] at wrote
      rw [bind_of_ok wrote, if_pos rfl]
      rfl
  | false =>
      rw [accepted, if_neg Bool.false_ne_true] at wrote
      rw [bind_of_error wrote, if_neg Bool.false_ne_true]

private theorem displayStep_triple {middle : Process State} {inputs : Field → Json} {result : Json}
    (guarded : guardOutput host process.disk arguments = .ok ())
    (reads : process.Reads middle) (ran : Ran host read process arguments inputs result)
    (exported : ∀ output ∈ arguments.output,
      (writeJsonTo host process.disk output result).1 = .ok ()) :
    Triple (· = { middle with disk := exportedDisk host process.disk arguments result })
      (displayStep arguments result)
      (fun returned after => ∃ inputs result, returned = some result ∧
        Completes host read arguments process after inputs result)
      fun interrupt after => Reported host arguments interrupt.error ∧
        Unchanged host read arguments interrupt.error process after ∧
        after.stderr = process.stderr := by
  intro state holds
  subst holds
  rcases @displayStep_eq _ arguments process _ _ { middle with
    disk := exportedDisk host process.disk arguments result } ran.applied reads.stdout with
    ⟨display, shown, ended⟩
  rw [ended]
  cases accepted : process.stdout.accepts with
  | true => exact ⟨inputs, result, rfl, guarded, ran, exported, rfl, accepted,
      ⟨display, shown, rfl, Sink.written_offer_of_whole _⟩, reads.stderr⟩
  | false => exact ⟨.inl ⟨standardOutputFailure, text_encodable _, rfl⟩,
      .inr ⟨inputs, result, ran, rfl, .inr ⟨rfl, accepted, display, shown, rfl⟩⟩, reads.stderr⟩

theorem perform_triple (arguments : Arguments) (process : Process State) :
    Triple (· = process) (perform host read arguments)
      (fun returned after => ∃ inputs result, returned = some result ∧
        Completes host read arguments process after inputs result)
      fun interrupt after => Reported host arguments interrupt.error ∧
        Unchanged host read arguments interrupt.error process after ∧
        after.stderr = process.stderr := by
  intro state holds
  subst holds
  rw [perform, bind_get]
  cases guarded : guardOutput host state.disk arguments with
  | error failure =>
      exact ⟨.inl ⟨failure, guardOutput_reportable guarded, rfl⟩, .inl ⟨rfl, rfl⟩, rfl⟩
  | ok done =>
      have continued : Triple (· = state) (runCommand host read arguments >>= fun result =>
          exportStep host arguments result >>= fun _ => displayStep arguments result)
          (fun returned after => ∃ inputs result, returned = some result ∧
            Completes host read arguments state after inputs result)
          fun interrupt after => Reported host arguments interrupt.error ∧
            Unchanged host read arguments interrupt.error state after ∧
            after.stderr = state.stderr := by
        apply triple_bind (fun result after => state.Reads after ∧
          ∃ inputs, Ran host read state arguments inputs result)
        · apply triple_consequence (runCommand_triple arguments state)
          · exact fun _ holds => holds
          · exact fun _ _ holds => holds
          · intro interrupt after stopped
            rcases stopped with ⟨reads, stops⟩
            refine ⟨?_, .inl ⟨reads.disk, reads.stdout⟩, reads.stderr⟩
            cases interrupt with
            | controlled failure => exact .inl ⟨failure, stops, rfl⟩
            | invalidData => exact .inr ⟨rfl, stops⟩
        · intro result middle holds
          rcases holds with ⟨reads, inputs, ran⟩
          have finished := triple_bind _ (exportStep_triple reads ran) fun _ =>
            triple_given (displayStep_triple guarded reads ran)
          exact finished middle rfl
      exact continued state rfl

/-- Nothing else can stop the block. -/
theorem perform_returns {inputs : Field → Json} {result : Json}
    (guarded : guardOutput host process.disk arguments = .ok ())
    (ran : Ran host read process arguments inputs result)
    (exported : ∀ output ∈ arguments.output,
      (writeJsonTo host process.disk output result).1 = .ok ())
    (accepted : process.stdout.accepts = true) :
    ∃ final, perform host read arguments process = .ok (some result) final := by
  rcases runCommand_returns ran with ⟨middle, returned⟩
  have reached := @runCommand_triple _ host read arguments process process rfl
  rw [returned] at reached
  have reads := reached.1
  rcases @displayStep_eq _ arguments process _ _ { middle with
    disk := exportedDisk host process.disk arguments result } ran.applied reads.stdout with
    ⟨display, _, ended⟩
  rw [accepted, if_pos rfl] at ended
  rw [perform, bind_get, guarded]
  simp only
  rw [bind_of_ok returned, bind_of_ok (exportStep_returns reads exported), ended]
  exact ⟨_, rfl⟩

end Performing

/-! ## All runs -/

section Runs

variable {State : Type}

theorem writeError_eq {error : Json} (writable : error.Writable) (process : Process State) :
    writeError error process =
      (.exit 2, { process with stderr := process.stderr.offer (errorDocument error) }) := by
  have named : (Json.object [(text "error", error)]).Writable :=
    writable_member _ writable writable_empty
  rw [writeError, named.streamText]
  rfl

theorem invalidDataError_writable : invalidDataError.Writable :=
  writable_member _ (writable_text _) (writable_member _ (writable_text _) writable_empty)

theorem Reported.writable {host : Host} {arguments : Arguments} {error : Json}
    (reported : Reported host arguments error) : error.Writable := by
  rcases reported with ⟨failure, reportable, rfl⟩ | ⟨rfl, _⟩
  · exact reportable.writable
  · exact invalidDataError_writable

variable {host : Host} {read : Reader State} {arguments : Arguments} {process : Process State}

theorem main_of_result {inputs : Field → Json} {result : Json} {final : Process State}
    (performed : perform host read arguments process = .ok (some result) final)
    (applied : arguments.command.apply inputs = .ok result) :
    ∃ status ≤ 1, main host read (.arguments arguments) process = (.exit status, final) ∧
      exitStatus arguments result = some status ∧
      (status = 1 → arguments.strictExit = true ∨ arguments.strictReasons = true) := by
  rcases Command.apply_exits applied with ⟨status, small, exits, strict⟩
  refine ⟨status, small, ?_, exits, strict⟩
  rw [main, performed]
  simp only [Option.bind_some, exits]

theorem main_of_error {interrupt : Interrupt} {final : Process State}
    (performed : perform host read arguments process = .error interrupt final)
    (reported : Reported host arguments interrupt.error) :
    main host read (.arguments arguments) process = (.exit 2,
      { final with stderr := final.stderr.offer (errorDocument interrupt.error) }) := by
  rw [main, performed]
  exact writeError_eq reported.writable final

/-- Help or the version was printed. -/
def Printed (printed : Text) (process final : Process State) : Prop :=
  (process.stdout.intake ≠ .absent ∧
      final = { process with stdout := process.stdout.offer printed }) ∨
    (process.stdout.intake = .absent ∧
      final = { process with stderr := process.stderr.offer printed })

/-- The stream that help would be printed on is closed. -/
def Unprintable (process : Process State) : Prop :=
  process.stdout.intake = .closed ∨
    process.stdout.intake = .absent ∧ process.stderr.intake = .closed

theorem Sink.offer_of_closed {sink : Sink} (content : Text) (closed : sink.intake = .closed) :
    sink.offer content = sink := by
  rw [offer, closed]

/-- Help is printed unless the stream it goes to is closed, which changes nothing. -/
theorem printMessage_cases (printed : Text) (process : Process State) :
    (∃ final, printMessage printed process = .ok () final ∧ Printed printed process final) ∨
      (printMessage printed process = .error .invalidData process ∧ Unprintable process) := by
  rw [printMessage, bind_get]
  by_cases absent : process.stdout.intake = .absent
  · rw [if_pos absent]
    by_cases closed : process.stderr.intake = .closed
    · rw [if_pos closed, Sink.offer_of_closed printed closed]
      exact .inr ⟨rfl, .inr ⟨absent, closed⟩⟩
    · rw [if_neg closed]
      exact .inl ⟨_, rfl, .inr ⟨absent, rfl⟩⟩
  · rw [if_neg absent]
    by_cases closed : process.stdout.intake = .closed
    · rw [if_pos closed, Sink.offer_of_closed printed closed]
      exact .inr ⟨rfl, .inl closed⟩
    · rw [if_neg closed]
      exact .inl ⟨_, rfl, .inl ⟨absent, rfl⟩⟩

/-- A run completes exactly when the output is none of the inputs, every input loads, the
command returns, its export succeeds and writing to standard output raises nothing. -/
theorem main_completes_iff (host : Host) (read : Reader State) (arguments : Arguments)
    (process : Process State) :
    (∃ status ≤ 1, ∃ final, main host read (.arguments arguments) process = (.exit status, final)) ↔
      guardOutput host process.disk arguments = .ok () ∧ process.stdout.accepts = true ∧
      ∃ inputs result, Ran host read process arguments inputs result ∧
        ∀ output ∈ arguments.output,
          (writeJsonTo host process.disk output result).1 = .ok () := by
  constructor
  · intro exits
    rcases exits with ⟨status, small, final, ended⟩
    have reached := @perform_triple _ host read arguments process process rfl
    cases performed : perform host read arguments process with
    | ok returned after =>
        rw [performed] at reached
        rcases reached with ⟨inputs, result, _, completes⟩
        exact ⟨completes.guarded, completes.accepted, inputs, result, completes.ran,
          completes.exported⟩
    | error interrupt after =>
        rw [performed] at reached
        rw [main_of_error performed reached.1] at ended
        cases ended
        omega
  · intro holds
    rcases holds with ⟨guarded, accepted, inputs, result, ran, exported⟩
    rcases perform_returns guarded ran exported accepted with ⟨final, performed⟩
    rcases main_of_result performed ran.applied with ⟨status, small, ended, _⟩
    exact ⟨status, small, final, ended⟩

end Runs

end AgentTestbench

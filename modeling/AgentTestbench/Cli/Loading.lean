import AgentTestbench.Cli.Main

/-! # Loading the inputs of a command

Loading changes nothing but the position of standard input. With at most one `-` every input is
what it was when the process started.
-/

namespace AgentTestbench

open AssociationList Fallible Raising

/-! ## Failures of loading -/

private theorem parseJsonText_reports (recursion : Nat) (content : Text) :
    Reports (parseJsonText recursion content) := by
  refine failsWith_bind (failsWith_require fun _ => text_encodable _) fun _ _ => ?_
  refine failsWith_bind (failsWith_require fun _ => text_encodable _) fun _ _ => ?_
  refine failsWith_bind (failsWith_require fun _ => text_encodable _) fun _ _ => ?_
  refine failsWith_bind (failsWith_mapError fun _ _ => text_encodable _) fun _ _ => ?_
  refine failsWith_bind (failsWith_mapError fun cause _ => ?_) fun _ _ => failsWith_ok _
  cases cause with
  | unicode message => exact text_encodable _
  | value message =>
      rw [limitFailure]
      split_ifs <;> exact text_encodable _

private theorem parseSnapshot_reports (recursion : Nat) (data : List (BitVec 8)) :
    Reports (parseSnapshot recursion data) := by
  refine failsWith_bind (failsWith_require fun _ => text_encodable _) fun _ _ => ?_
  split
  · exact failsWith_error (text_encodable _)
  · exact parseJsonText_reports _ _

section Streams

variable {State : Type} {read : Reader State}

private theorem acceptRead_reports (size : Nat) (binary : Option Bool) (result : ReadResult) :
    Reports (acceptRead size binary result) := by
  cases result with
  | chunk chunk =>
      refine failsWith_bind (failsWith_require fun _ => text_encodable _) fun _ _ => ?_
      apply failsWith_ite
      · exact fun _ => failsWith_ok _
      · intro _
        split
        · exact failsWith_error (text_encodable _)
        · refine failsWith_bind (failsWith_require fun _ => text_encodable _) fun _ _ => ?_
          exact failsWith_ok _
  | _ => exact failsWith_error (text_encodable _)

private theorem readLoop_reports {data : List (BitVec 8)} {binary : Option Bool} {state : State} :
    Reports (readLoop read data binary state).1 := by
  induction room : maxJsonInputBytes - data.length using Nat.strongRecOn
    generalizing data binary state with
  | ind room induction =>
      cases ran : read state (maxJsonInputBytes + 1 - data.length) with
      | mk result next =>
          rw [readLoop_of_read ran]
          split
          · rename_i failure refused
            exact failsWith_error (acceptRead_reports _ _ _ failure refused)
          · exact failsWith_ok _
          · rename_i kind raw accepted
            have grown := acceptRead_eq_some accepted
            exact induction (maxJsonInputBytes - (data ++ raw).length)
              (by rw [List.length_append]; omega) rfl

theorem loadJsonStream_reports (recursion : Nat) (state : State) :
    Reports (loadJsonStream recursion read state).1 := by
  rw [loadJsonStream]
  exact failsWith_bind readLoop_reports fun _ _ => parseSnapshot_reports _ _

end Streams

/-! ## One input -/

section Inputs

variable {State : Type} (host : Host) (read : Reader State)

/-- What an argument stands for in a state of the process. -/
def inputValue (process : Process State) (path : Text) : Except Interrupt Json :=
  if path ≠ standardInput then loadJson host process.disk path
  else
    match process.stdin with
    | none => .error (.controlled closedInputFailure)
    | some state => (loadJsonStream host.recursion read state).1.mapError fun failure =>
        .controlled (.library failure)

/-- The process once an argument was read. -/
def afterInput (process : Process State) (path : Text) : Process State :=
  if path ≠ standardInput then process
  else { process with
    stdin := process.stdin.map fun state => (loadJsonStream host.recursion read state).2 }

theorem loadArgument_eq (process : Process State) (path : Text) :
    loadArgument host read path process =
      match inputValue host read process path with
      | .ok value => .ok value (afterInput host read process path)
      | .error interrupt => .error interrupt (afterInput host read process path) := by
  rw [loadArgument, bind_get, inputValue, afterInput]
  by_cases file : path ≠ standardInput
  · simp only [if_pos file]
    cases loadJson host process.disk path <;> rfl
  · simp only [if_neg file]
    cases opened : process.stdin with
    | none =>
        have same : { process with stdin := none } = process := by
          rw [← opened]
        simp only [Option.map_none, same]
        rfl
    | some state =>
        rcases loaded : loadJsonStream host.recursion read state with ⟨value, next⟩
        cases value <;> simp only [Option.map_some, loaded] <;> rfl

/-- An input that cannot be located, the only reason to report invalid data. -/
def Unlocated (path : Text) : Prop :=
  path ≠ standardInput ∧ host.locate path = none

/-- What may stop loading an input. -/
def StopsWith (path : Text) : Interrupt → Prop
  | .controlled failure => failure.Reportable
  | .invalidData => Unlocated host path

theorem inputValue_stops {process : Process State} {path : Text} {interrupt : Interrupt}
    (failed : inputValue host read process path = .error interrupt) :
    StopsWith host path interrupt := by
  rw [inputValue] at failed
  split_ifs at failed with file
  · rw [loadJson] at failed
    split at failed
    · rename_i unlocated
      cases failed
      exact ⟨file, unlocated⟩
    · split at failed
      · cases failed
        exact text_encodable _
      · rcases mapError_eq_error_iff.mp failed with ⟨failure, raised, rfl⟩
        exact loadJsonStream_reports _ _ failure raised
  · split at failed
    · cases failed
      exact text_encodable _
    · rcases mapError_eq_error_iff.mp failed with ⟨failure, raised, rfl⟩
      exact loadJsonStream_reports _ _ failure raised

/-! ## All inputs -/

/-- Only standard input may have moved. -/
structure Process.Reads (before after : Process State) : Prop where
  disk : after.disk = before.disk
  stdout : after.stdout = before.stdout
  stderr : after.stderr = before.stderr

theorem Process.Reads.refl (process : Process State) : process.Reads process := ⟨rfl, rfl, rfl⟩

theorem Process.Reads.trans {first second third : Process State} (earlier : first.Reads second)
    (later : second.Reads third) : first.Reads third :=
  ⟨later.disk.trans earlier.disk, later.stdout.trans earlier.stdout,
    later.stderr.trans earlier.stderr⟩

theorem afterInput_reads (process : Process State) (path : Text) :
    process.Reads (afterInput host read process path) := by
  rw [afterInput]
  split_ifs
  · exact .refl process
  · exact ⟨rfl, rfl, rfl⟩

private theorem inputValue_of_reads {before after : Process State} (reads : before.Reads after)
    {path : Text} (file : path ≠ standardInput) :
    inputValue host read after path = inputValue host read before path := by
  rw [inputValue, inputValue, if_pos file, if_pos file, reads.disk]

variable {host read}

/-- Loading one field and then others stops at the first that fails. -/
theorem loadFields_cons {path : Field → Text} {field : Field} {fields : List Field}
    (process : Process State) :
    loadFields host read path (field :: fields) process =
      match inputValue host read process (path field) with
      | .error interrupt => .error interrupt (afterInput host read process (path field))
      | .ok value =>
          match loadFields host read path fields (afterInput host read process (path field)) with
          | .error interrupt final => .error interrupt final
          | .ok others final => .ok (Function.update others field value) final := by
  rw [loadFields]
  have loaded := loadArgument_eq host read process (path field)
  cases given : inputValue host read process (path field) with
  | error interrupt =>
      rw [given] at loaded
      exact bind_of_error loaded
  | ok value =>
      rw [given] at loaded
      rw [bind_of_ok loaded]
      simp only
      cases rest : loadFields host read path fields (afterInput host read process (path field)) with
      | error interrupt final => exact bind_of_error rest
      | ok others final => exact bind_of_ok rest

private theorem loadFields_reads {path : Field → Text} {fields : List Field}
    {process : Process State} : match loadFields host read path fields process with
    | .ok _ final => process.Reads final
    | .error interrupt final => process.Reads final ∧
        ∃ field ∈ fields, StopsWith host (path field) interrupt := by
  induction fields generalizing process with
  | nil => exact .refl process
  | cons field fields induction =>
      rw [loadFields_cons]
      have moved := afterInput_reads host read process (path field)
      cases given : inputValue host read process (path field) with
      | error interrupt =>
          exact ⟨moved, field, List.mem_cons_self, inputValue_stops host read given⟩
      | ok value =>
          simp only
          have rest := @induction (afterInput host read process (path field))
          cases ran : loadFields host read path fields
              (afterInput host read process (path field)) with
          | ok others final =>
              rw [ran] at rest
              exact moved.trans rest
          | error interrupt final =>
              rw [ran] at rest
              rcases rest with ⟨reads, other, member, stops⟩
              exact ⟨moved.trans reads, other, List.mem_cons_of_mem _ member, stops⟩

/-- With at most one `-` an input does not depend on those read before it. -/
theorem inputValue_afterInput {path : Field → Text} {field other : Field} {fields : List Field}
    (process : Process State) (once : ((field :: fields).map path).count standardInput ≤ 1)
    (member : other ∈ fields) :
    inputValue host read (afterInput host read process (path field)) (path other) =
      inputValue host read process (path other) := by
  by_cases standard : path field = standardInput
  · have unread : path other ≠ standardInput := by
      intro again
      have positive := List.count_pos_iff.mpr
        (again ▸ List.mem_map_of_mem member : standardInput ∈ fields.map path)
      rw [List.map_cons, List.count_cons, if_pos (by simpa using standard)] at once
      omega
    exact inputValue_of_reads host read (afterInput_reads host read process (path field)) unread
  · rw [afterInput, if_pos standard]

theorem count_tail {path : Field → Text} {field : Field} {fields : List Field}
    (once : ((field :: fields).map path).count standardInput ≤ 1) :
    (fields.map path).count standardInput ≤ 1 := by
  rw [List.map_cons, List.count_cons] at once
  omega

/-- With at most one `-` every field holds what its argument stood for at the start. -/
theorem loadFields_values {path : Field → Text} {fields : List Field}
    {process final : Process State} {inputs : Field → Json}
    (once : (fields.map path).count standardInput ≤ 1)
    (ran : loadFields host read path fields process = .ok inputs final) :
    ∀ field ∈ fields, inputValue host read process (path field) = .ok (inputs field) := by
  induction fields generalizing process inputs with
  | nil => exact List.forall_mem_nil _
  | cons field fields induction =>
      rw [loadFields_cons] at ran
      cases given : inputValue host read process (path field) with
      | error interrupt =>
          rw [given] at ran
          cases ran
      | ok value =>
          rw [given] at ran
          simp only at ran
          cases rest : loadFields host read path fields
              (afterInput host read process (path field)) with
          | error interrupt last =>
              rw [rest] at ran
              cases ran
          | ok others last =>
              rw [rest] at ran
              cases ran
              have later := induction (count_tail once) rest
              rw [List.forall_mem_cons, Function.update_self]
              refine ⟨given, fun other member => ?_⟩
              by_cases same : other = field
              · rw [same, Function.update_self]
                exact given
              · rw [Function.update_of_ne same, ← later other member,
                  inputValue_afterInput process once member]

/-- Fields that all have values are loaded. -/
theorem loadFields_returns {path : Field → Text} {fields : List Field} {process : Process State}
    (once : (fields.map path).count standardInput ≤ 1)
    (given : ∀ field ∈ fields, ∃ value, inputValue host read process (path field) = .ok value) :
    ∃ inputs final, loadFields host read path fields process = .ok inputs final := by
  induction fields generalizing process with
  | nil => exact ⟨_, _, rfl⟩
  | cons field fields induction =>
      rw [List.forall_mem_cons] at given
      rcases given with ⟨⟨value, first⟩, others⟩
      have later : ∀ other ∈ fields, ∃ value, inputValue host read
          (afterInput host read process (path field)) (path other) = .ok value := by
        intro other member
        rw [inputValue_afterInput process once member]
        exact others other member
      rcases induction (count_tail once) later with ⟨inputs, final, ran⟩
      rw [loadFields_cons, first]
      simp only [ran]
      exact ⟨_, _, rfl⟩

/-! ## Commands on their inputs -/

/-- A command as a function of its inputs. -/
def Command.apply (command : Command) (inputs : Field → Json) : Except TestbenchError Json :=
  match command with
  | .table operation => operation.function inputs
  | command => do
      let policy ← AgentTestbench.validatePolicy (.json (inputs .policy))
      command.function policy inputs

def Command.isTable : Command → Bool
  | .table _ => true
  | _ => false

theorem Command.exists_of_isTable {command : Command} (table : command.isTable = true) :
    ∃ operation, command = .table operation := by
  cases command with
  | table operation => exact ⟨operation, rfl⟩
  | _ => cases table

theorem Command.fields_of_direct {command : Command} (direct : command.isTable = false) :
    command.fields = .policy :: command.inputs := by
  cases command with
  | table operation => cases direct
  | _ => rfl

theorem Command.apply_of_direct {command : Command} (direct : command.isTable = false)
    (inputs : Field → Json) :
    command.apply inputs = AgentTestbench.validatePolicy (.json (inputs .policy)) >>=
      fun policy => command.function policy inputs := by
  cases command with
  | table operation => cases direct
  | _ => rfl

/-- The policy is handed over validated, not as it was loaded. -/
theorem Command.function_update {command : Command} (direct : command.isTable = false)
    (policy : Policy) (inputs : Field → Json) (raw : Json) :
    command.function policy (Function.update inputs .policy raw) =
      command.function policy inputs := by
  cases command with
  | table operation => cases direct
  | _ => rfl

theorem Command.policy_not_mem_inputs (command : Command) : Field.policy ∉ command.inputs := by
  cases command with
  | table operation => exact List.not_mem_nil
  | _ => decide

theorem runCommand_of_direct {arguments : Arguments}
    (direct : arguments.command.isTable = false) :
    runCommand host read arguments =
      if (arguments.command.fields.map arguments.path).count standardInput > 1 then
        raiseFailure standardInputFailure
      else
        loadArgument host read (arguments.path .policy) >>= fun rawPolicy =>
          liftLibrary (validatePolicy (.json rawPolicy)) >>= fun policy =>
            loadFields host read arguments.path arguments.command.inputs >>= fun inputs =>
              liftLibrary (arguments.command.function policy inputs) := by
  rw [runCommand]
  cases named : arguments.command with
  | table operation =>
      rw [named] at direct
      cases direct
  | _ => rfl

theorem runCommand_of_table {arguments : Arguments} {operation : Operation}
    (named : arguments.command = .table operation) :
    runCommand host read arguments =
      if (operation.fields.map arguments.path).count standardInput > 1 then
        raiseFailure standardInputFailure
      else
        loadFields host read arguments.path operation.fields >>= fun inputs =>
          liftLibrary (operation.function inputs) := by
  rw [runCommand, named]
  rfl

/-! ## Running a command -/

/-- What may stop a command before it has a result. -/
def CommandStops (host : Host) (arguments : Arguments) : Interrupt → Prop
  | .controlled failure => failure.Reportable
  | .invalidData => ∃ field ∈ arguments.command.fields, Unlocated host (arguments.path field)

/-- The command ran on these inputs. -/
structure Ran (host : Host) (read : Reader State) (process : Process State)
    (arguments : Arguments) (inputs : Field → Json) (result : Json) : Prop where
  once : (arguments.command.fields.map arguments.path).count standardInput ≤ 1
  given : ∀ field ∈ arguments.command.fields,
    inputValue host read process (arguments.path field) = .ok (inputs field)
  applied : arguments.command.apply inputs = .ok result

theorem liftLibrary_triple {Value : Type} {before : Process State → Prop}
    {computation : Except TestbenchError Value} (reports : Reports computation) :
    Triple before (liftLibrary computation)
      (fun value state => before state ∧ computation = .ok value)
      fun interrupt state => before state ∧ ∃ failure, failure.Reportable ∧
        interrupt = .controlled failure := by
  intro state holds
  cases returned : computation with
  | ok value => exact ⟨holds, rfl⟩
  | error failure => exact ⟨holds, .library failure, reports failure returned, rfl⟩

theorem loadFields_triple {path : Field → Text} {fields : List Field} {process : Process State}
    (once : (fields.map path).count standardInput ≤ 1) :
    Triple (· = process) (loadFields host read path fields)
      (fun inputs after => process.Reads after ∧
        ∀ field ∈ fields, inputValue host read process (path field) = .ok (inputs field))
      fun interrupt after => process.Reads after ∧
        ∃ field ∈ fields, StopsWith host (path field) interrupt := by
  intro state holds
  subst holds
  have reads := @loadFields_reads _ host read path fields state
  cases ran : loadFields host read path fields state with
  | ok inputs final =>
      rw [ran] at reads
      exact ⟨reads, loadFields_values once ran⟩
  | error interrupt final =>
      rw [ran] at reads
      exact reads

theorem CommandStops.of_field {arguments : Arguments} {field : Field} {interrupt : Interrupt}
    (member : field ∈ arguments.command.fields)
    (stops : StopsWith host (arguments.path field) interrupt) :
    CommandStops host arguments interrupt := by
  cases interrupt with
  | controlled failure => exact stops
  | invalidData => exact ⟨field, member, stops⟩

theorem Operation.function_congr {operation : Operation} {left right : Field → Json}
    (agree : ∀ field ∈ operation.fields, left field = right field) :
    operation.function left = operation.function right := by
  cases operation <;> simp only [Operation.fields, List.forall_mem_cons] at agree <;>
    simp only [Operation.function, agree]

/-- A command is a function of its own fields. -/
theorem Command.apply_congr {command : Command} {left right : Field → Json}
    (agree : ∀ field ∈ command.fields, left field = right field) :
    command.apply left = command.apply right := by
  cases command with
  | table operation => exact Operation.function_congr agree
  | _ =>
      simp only [Command.fields, Command.inputs, List.forall_mem_cons] at agree
      simp only [Command.apply, Command.function, agree]

section Commands

variable {arguments : Arguments} {process : Process State}

private theorem table_triple {operation : Operation} (named : arguments.command = .table operation)
    (once : (arguments.command.fields.map arguments.path).count standardInput ≤ 1) :
    Triple (· = process)
      (loadFields host read arguments.path operation.fields >>= fun inputs =>
        liftLibrary (operation.function inputs))
      (fun result after => process.Reads after ∧
        ∃ inputs, Ran host read process arguments inputs result)
      fun interrupt after => process.Reads after ∧ CommandStops host arguments interrupt := by
  have fields : arguments.command.fields = operation.fields := by
    rw [named]
    rfl
  rw [← fields]
  apply triple_bind (fun inputs after => process.Reads after ∧
    ∀ field ∈ arguments.command.fields,
      inputValue host read process (arguments.path field) = .ok (inputs field))
  · apply triple_consequence (loadFields_triple once)
    · exact fun _ holds => holds
    · exact fun _ _ holds => holds
    · intro interrupt after stopped
      rcases stopped with ⟨reads, field, member, stops⟩
      exact ⟨reads, .of_field member stops⟩
  · intro inputs
    apply triple_consequence (liftLibrary_triple (operation.function_reports inputs))
    · exact fun _ holds => holds
    · intro result after holds
      refine ⟨holds.1.1, inputs, once, holds.1.2, ?_⟩
      rw [named]
      exact holds.2
    · intro interrupt after stopped
      rcases stopped with ⟨holds, failure, reportable, rfl⟩
      exact ⟨holds.1, reportable⟩

/-- The inputs after the policy, once the policy is validated. -/
theorem direct_inputs_triple {raw : Json} {policy : Policy}
    (direct : arguments.command.isTable = false)
    (once : (arguments.command.fields.map arguments.path).count standardInput ≤ 1)
    (given : inputValue host read process (arguments.path .policy) = .ok raw)
    (validated : validatePolicy (.json raw) = .ok policy) :
    Triple (· = afterInput host read process (arguments.path .policy))
      (loadFields host read arguments.path arguments.command.inputs >>= fun inputs =>
        liftLibrary (arguments.command.function policy inputs))
      (fun result after => process.Reads after ∧
        ∃ inputs, Ran host read process arguments inputs result)
      fun interrupt after => process.Reads after ∧ CommandStops host arguments interrupt := by
  have fields := Command.fields_of_direct direct
  have listed := once
  rw [fields] at listed
  have moved := afterInput_reads host read process (arguments.path .policy)
  apply triple_bind (fun inputs after =>
    (afterInput host read process (arguments.path .policy)).Reads after ∧
      ∀ field ∈ arguments.command.inputs, inputValue host read
        (afterInput host read process (arguments.path .policy)) (arguments.path field) =
          .ok (inputs field))
  · apply triple_consequence (loadFields_triple (count_tail listed))
    · exact fun _ holds => holds
    · exact fun _ _ holds => holds
    · intro interrupt after stopped
      rcases stopped with ⟨reads, field, member, stops⟩
      exact ⟨moved.trans reads, .of_field (fields ▸ List.mem_cons_of_mem _ member) stops⟩
  · intro inputs
    have reports := arguments.command.function_reports (valid_of_validatePolicy validated) inputs
    apply triple_consequence (liftLibrary_triple reports)
    · exact fun _ holds => holds
    · intro result after holds
      refine ⟨moved.trans holds.1.1, Function.update inputs .policy raw, once, ?_, ?_⟩
      · rw [fields, List.forall_mem_cons, Function.update_self]
        refine ⟨given, fun field member => ?_⟩
        have other : field ≠ .policy :=
          fun same => arguments.command.policy_not_mem_inputs (same ▸ member)
        rw [← inputValue_afterInput process listed member, holds.1.2 field member,
          Function.update_of_ne other]
      · rw [Command.apply_of_direct direct, Function.update_self, validated, ok_bind,
          Command.function_update direct]
        exact holds.2
    · intro interrupt after stopped
      rcases stopped with ⟨holds, failure, reportable, rfl⟩
      exact ⟨moved.trans holds.1, reportable⟩

private theorem direct_triple (direct : arguments.command.isTable = false)
    (once : (arguments.command.fields.map arguments.path).count standardInput ≤ 1) :
    Triple (· = process)
      (loadArgument host read (arguments.path .policy) >>= fun rawPolicy =>
        liftLibrary (validatePolicy (.json rawPolicy)) >>= fun policy =>
          loadFields host read arguments.path arguments.command.inputs >>= fun inputs =>
            liftLibrary (arguments.command.function policy inputs))
      (fun result after => process.Reads after ∧
        ∃ inputs, Ran host read process arguments inputs result)
      fun interrupt after => process.Reads after ∧ CommandStops host arguments interrupt := by
  have moved := afterInput_reads host read process (arguments.path .policy)
  apply triple_bind (fun raw after =>
    after = afterInput host read process (arguments.path .policy) ∧
      inputValue host read process (arguments.path .policy) = .ok raw)
  · intro state holds
    subst holds
    rw [loadArgument_eq]
    cases given : inputValue host read state (arguments.path .policy) with
    | ok raw => exact ⟨rfl, rfl⟩
    | error interrupt =>
        exact ⟨moved, .of_field (Command.fields_of_direct direct ▸ List.mem_cons_self)
          (inputValue_stops host read given)⟩
  · intro raw
    apply triple_given
    intro given
    apply triple_bind (fun policy after =>
      after = afterInput host read process (arguments.path .policy) ∧
        validatePolicy (.json raw) = .ok policy)
    · apply triple_consequence (liftLibrary_triple (validatePolicy_reports raw))
      · exact fun _ holds => holds
      · exact fun _ _ holds => holds
      · intro interrupt after stopped
        rcases stopped with ⟨holds, failure, reportable, rfl⟩
        rw [holds]
        exact ⟨moved, reportable⟩
    · intro policy
      apply triple_given
      exact direct_inputs_triple direct once given

/-- A command that returns was applied to what its arguments stood for at the start; one that
stops has changed nothing but the position of standard input. -/
theorem runCommand_triple (arguments : Arguments) (process : Process State) :
    Triple (· = process) (runCommand host read arguments)
      (fun result after => process.Reads after ∧
        ∃ inputs, Ran host read process arguments inputs result)
      fun interrupt after => process.Reads after ∧ CommandStops host arguments interrupt := by
  have refused : Triple (· = process) (raiseFailure standardInputFailure : Run State Json)
      (fun result after => process.Reads after ∧
        ∃ inputs, Ran host read process arguments inputs result)
      fun interrupt after => process.Reads after ∧ CommandStops host arguments interrupt := by
    apply triple_throw
    intro state holds
    rw [holds]
    exact ⟨.refl process, text_encodable _⟩
  cases direct : arguments.command.isTable with
  | true =>
      rcases Command.exists_of_isTable direct with ⟨operation, named⟩
      have fields : arguments.command.fields = operation.fields := by
        rw [named]
        rfl
      rw [runCommand_of_table named, ← fields]
      apply triple_ite
      · exact fun _ => refused
      · intro few
        rw [fields]
        exact table_triple named (not_lt.mp few)
  | false =>
      rw [runCommand_of_direct direct]
      apply triple_ite
      · exact fun _ => refused
      · exact fun few => direct_triple direct (not_lt.mp few)

private theorem table_returns {operation : Operation} {inputs : Field → Json} {result : Json}
    (named : arguments.command = .table operation)
    (ran : Ran host read process arguments inputs result) :
    ∃ final, (loadFields host read arguments.path operation.fields >>= fun inputs =>
      liftLibrary (operation.function inputs)) process = .ok result final := by
  rcases ran with ⟨once, given, applied⟩
  rw [named] at once given applied
  change (operation.fields.map arguments.path).count standardInput ≤ 1 at once
  change ∀ field ∈ operation.fields, _ at given
  rcases loadFields_returns once fun field member => ⟨_, given field member⟩ with
    ⟨loaded, final, loading⟩
  have agree : ∀ field ∈ operation.fields, loaded field = inputs field := by
    intro field member
    have value := loadFields_values once loading field member
    exact Except.ok.inj (value.symm.trans (given field member))
  refine ⟨final, ?_⟩
  rw [bind_of_ok loading, Operation.function_congr agree]
  change liftLibrary (Command.apply (.table operation) inputs) final = _
  rw [applied]
  rfl

private theorem direct_returns {inputs : Field → Json} {result : Json}
    (direct : arguments.command.isTable = false)
    (ran : Ran host read process arguments inputs result) :
    ∃ final, (loadArgument host read (arguments.path .policy) >>= fun rawPolicy =>
      liftLibrary (validatePolicy (.json rawPolicy)) >>= fun policy =>
        loadFields host read arguments.path arguments.command.inputs >>= fun inputs =>
          liftLibrary (arguments.command.function policy inputs)) process = .ok result final := by
  rcases ran with ⟨once, given, applied⟩
  have fields := Command.fields_of_direct direct
  rw [fields] at once given
  rw [List.forall_mem_cons] at given
  rw [Command.apply_of_direct direct] at applied
  rcases bind_eq_ok_iff.mp applied with ⟨policy, validated, returned⟩
  have loadedPolicy := loadArgument_eq host read process (arguments.path .policy)
  rw [given.1] at loadedPolicy
  have later : ∀ field ∈ arguments.command.inputs, inputValue host read
      (afterInput host read process (arguments.path .policy)) (arguments.path field) =
        .ok (inputs field) := by
    intro field member
    rw [inputValue_afterInput process once member]
    exact given.2 field member
  rcases loadFields_returns (count_tail once) fun field member => ⟨_, later field member⟩ with
    ⟨loaded, final, loading⟩
  have agree : ∀ field ∈ arguments.command.fields,
      Function.update loaded .policy (inputs .policy) field = inputs field := by
    rw [fields, List.forall_mem_cons, Function.update_self]
    refine ⟨rfl, fun field member => ?_⟩
    have other : field ≠ .policy :=
      fun same => arguments.command.policy_not_mem_inputs (same ▸ member)
    have value := loadFields_values (count_tail once) loading field member
    rw [Function.update_of_ne other]
    exact Except.ok.inj (value.symm.trans (later field member))
  have same : arguments.command.function policy loaded = .ok result := by
    have applied := Command.apply_congr agree
    rw [Command.apply_of_direct direct, Command.apply_of_direct direct, Function.update_self,
      validated, ok_bind, ok_bind, Command.function_update direct, returned] at applied
    exact applied
  refine ⟨final, ?_⟩
  rw [bind_of_ok loadedPolicy, validated]
  change (loadFields host read arguments.path arguments.command.inputs >>= fun inputs =>
    liftLibrary (arguments.command.function policy inputs)) _ = _
  rw [bind_of_ok loading, same]
  rfl

/-- A command whose inputs load and whose function returns has a result. -/
theorem runCommand_returns {inputs : Field → Json} {result : Json}
    (ran : Ran host read process arguments inputs result) :
    ∃ final, runCommand host read arguments process = .ok result final := by
  have few : ¬(arguments.command.fields.map arguments.path).count standardInput > 1 :=
    not_lt.mpr ran.once
  cases direct : arguments.command.isTable with
  | true =>
      rcases Command.exists_of_isTable direct with ⟨operation, named⟩
      have fields : arguments.command.fields = operation.fields := by
        rw [named]
        rfl
      rw [runCommand_of_table named, ← fields, if_neg few, fields]
      exact table_returns named ran
  | false =>
      rw [runCommand_of_direct direct, if_neg few]
      exact direct_returns direct ran

end Commands

end Inputs

end AgentTestbench

import AgentTestbench.Cli.Disk
import AgentTestbench.Cli.Dispatch

/-! # The command line

`main` on a process: its files, its standard input, and the two streams it may write to. What the
argument parser makes of the words of the command line is given.
-/

namespace AgentTestbench

open AssociationList Fallible FileTree

/-! ## The process -/

/-- What a standard stream does with a write. `absent` is the `None` that stands for a descriptor
closed at startup, and a `closed` stream raises `ValueError`. Where the write or the flush fails
with an `OSError`, some bytes may have gone out. A stream without a buffer may take a part of the
write only, which raises nothing. -/
inductive Intake where
  | absent
  | closed
  | fails (leftover : List (BitVec 8))
  | part (count : Nat)
  | whole
  deriving DecidableEq

/-- A standard stream, and what was written to it. -/
structure Sink where
  intake : Intake
  written : List (BitVec 8)
  deriving DecidableEq

/-- A write to the stream raises nothing. -/
def Sink.accepts (sink : Sink) : Bool :=
  match sink.intake with
  | .part _ | .whole => true
  | _ => false

/-- The stream after an attempt to write a text to it. -/
def Sink.offer (sink : Sink) (content : Text) : Sink :=
  match sink.intake with
  | .absent | .closed => sink
  | .fails leftover => { sink with written := sink.written ++ leftover }
  | .part count => { sink with written := sink.written ++ content.utf8.take count }
  | .whole => { sink with written := sink.written ++ content.utf8 }

/-- The state of a process; `stdin` is `none` when its descriptor is closed. -/
structure Process (State : Type) where
  disk : Disk
  stdin : Option State
  stdout : Sink
  stderr : Sink

/-- What the parser returns or raises. `help` is `_HelpRequested`, with what `--help` or `--version`
prints before, and `refused` is an error of `argparse` with its message. The arguments are those
of any command but `playground`. -/
inductive Parsed where
  | help (printed : Text)
  | refused (message : Text)
  | unknownOption
  | arguments (arguments : Arguments)

/-- How `main` ends; `raised` is an exception that it does not catch. -/
inductive Ending where
  | exit (status : Nat)
  | raised
  deriving DecidableEq

/-! ## Usage errors -/

/-- `needle in haystack`. -/
def Text.contains (haystack needle : Text) : Bool :=
  haystack.tails.any fun rest => needle.isPrefixOf rest

/-- `_usage_error_message`. -/
def usageErrorMessage (message : Text) : Text :=
  let lowered := message.lower
  if lowered.contains (text "invalid choice") then
    text "Unknown command. Use --help to list available commands."
  else if lowered.contains (text "unrecognized arguments") then
    text "Unknown option or extra argument. Use --help to inspect usage."
  else if lowered.contains (text "required: command") then
    text "A command is required. Use --help to list available commands."
  else if lowered.contains (text "required") || lowered.contains (text "expected") ||
      lowered.contains (text "too few") then
    text "Missing required argument. Use --help to inspect usage."
  else text "Command arguments are invalid. Use --help to inspect usage."

def unknownOptionFailure : CommandFailure :=
  .usage (text "Unknown option or extra argument. Use --help to inspect usage.")

def standardInputFailure : CommandFailure :=
  .usage (text "Only one JSON input may be read from standard input per command.")

def closedInputFailure : CommandFailure :=
  .library (.jsonInput (text "Standard input is closed, so '-' cannot be read."))

def standardOutputFailure : CommandFailure :=
  .output (text "Unable to write the JSON result to standard output.")

/-- The error for data that made Python raise. -/
def invalidDataError : Json :=
  .object [(text "code", .string (text "INVALID_DATA")),
    (text "message", .string (text "Input data could not be processed as strict JSON."))]

/-! ## Running -/

section Running

variable {State : Type} (host : Host) (read : Reader State)

abbrev Run (State Value : Type) := EStateM Interrupt (Process State) Value

/-- A failure of the library or of the command line. -/
def raiseFailure {Value : Type} (failure : CommandFailure) : Run State Value :=
  throw (.controlled failure)

def liftLibrary {Value : Type} (computation : Except TestbenchError Value) : Run State Value :=
  match computation with
  | .ok value => pure value
  | .error failure => raiseFailure (.library failure)

/-- `_guard_output`. -/
def guardOutput (disk : Disk) (arguments : Arguments) : Except CommandFailure Unit :=
  match arguments.output with
  | none => .ok ()
  | some output => do
      require (¬(arguments.command = .generateSynthetic ∧ output = standardInput))
        syntheticOutputFailure
      require (¬(host.isBlankPath output ∨ output = standardInput)) blankOutputFailure
      let _ ← forEach (fun field => guardField host disk output (arguments.path field))
        arguments.command.guardedFields
      .ok ()

/-- `_load_json_argument`. -/
def loadArgument (path : Text) : Run State Json := do
  let process ← get
  if path ≠ standardInput then
    match loadJson host process.disk path with
    | .ok value => pure value
    | .error interrupt => throw interrupt
  else
    match process.stdin with
    | none => raiseFailure closedInputFailure
    | some state => do
        let (value, next) := loadJsonStream host.recursion read state
        set { process with stdin := some next }
        liftLibrary value

/-- The inputs of a command, loaded in order. -/
def loadFields (path : Field → Text) : List Field → Run State (Field → Json)
  | [] => pure fun _ => .null
  | field :: rest => do
      let value ← loadArgument host read (path field)
      let others ← loadFields path rest
      pure (Function.update others field value)

/-- `_run_command`. -/
def runCommand (arguments : Arguments) : Run State Json := do
  let paths := arguments.command.fields.map arguments.path
  if paths.count standardInput > 1 then raiseFailure standardInputFailure
  else
    match arguments.command with
    | .table operation => do
        let inputs ← loadFields host read arguments.path operation.fields
        liftLibrary (operation.function inputs)
    | command => do
        let rawPolicy ← loadArgument host read (arguments.path .policy)
        let policy ← liftLibrary (validatePolicy (.json rawPolicy))
        let inputs ← loadFields host read arguments.path command.inputs
        liftLibrary (command.function policy inputs)

/-- The text that `_write_json_stream` writes, unless it raises before. -/
def streamText (value : Json) : Option Text :=
  match stableJson value with
  | .ok content => if content.Encodable then some content else none
  | .error _ => none

/-- `_write_json_stream(sys.stdout, value)`, as `main` calls it. -/
def writeStandardOutput (value : Json) : Run State Unit := do
  match streamText value with
  | none => throw .invalidData
  | some content => do
      let process ← get
      set { process with stdout := process.stdout.offer content }
      if process.stdout.accepts then pure () else raiseFailure standardOutputFailure

/-- `display` where there is an output. -/
def acknowledgement (command : Command) (result : Json) : Option Json :=
  let written := (text "output_written", Json.bool true)
  if command = .generateSynthetic then
    (result.member? (text "policy_id")).map fun policyId =>
      .object [written, (text "policy_id", policyId)]
  else some (.object [written])

/-- `write_json(arguments.output, result)`. -/
def exportResult (output : Text) (result : Json) : Run State Unit := do
  let process ← get
  let (written, disk) := writeJsonTo host process.disk output result
  set { process with disk := disk }
  match written with
  | .ok _ => pure ()
  | .error failure => raiseFailure failure

/-- What `main` displays, or `none` where the result lacks a field. -/
def displayed (arguments : Arguments) (result : Json) : Option Json :=
  match arguments.output with
  | none => some result
  | some _ => acknowledgement arguments.command result

/-- The export of a result, if it is asked for. -/
def exportStep (arguments : Arguments) (result : Json) : Run State Unit :=
  match arguments.output with
  | none => pure ()
  | some output => exportResult host output result

/-- The display of a result; `none` is a `KeyError`. -/
def displayStep (arguments : Arguments) (result : Json) : Run State (Option Json) :=
  match displayed arguments result with
  | none => pure none
  | some display => do
      writeStandardOutput display
      pure (some result)

/-- The `try` block of `main`, after the arguments are parsed. -/
def perform (arguments : Arguments) : Run State (Option Json) := do
  let process ← get
  match guardOutput host process.disk arguments with
  | .error failure => raiseFailure failure
  | .ok _ => do
      let result ← runCommand host read arguments
      exportStep host arguments result
      displayStep arguments result

/-- `_write_error`, and the status 2. -/
def writeError (error : Json) (process : Process State) : Ending × Process State :=
  match streamText (.object [(text "error", error)]) with
  | none => (.raised, process)
  | some content => (.exit 2, { process with stderr := process.stderr.offer content })

/-- `_print_message` of `argparse`: on standard error where there is no standard output. It ignores
an `OSError`, and lets a `ValueError` through. -/
def printMessage (printed : Text) : Run State Unit := do
  let process ← get
  if process.stdout.intake = .absent then
    set { process with stderr := process.stderr.offer printed }
    if process.stderr.intake = .closed then throw .invalidData
  else
    set { process with stdout := process.stdout.offer printed }
    if process.stdout.intake = .closed then throw .invalidData

/-- The error that `main` reports for what it catches. -/
def Interrupt.error : Interrupt → Json
  | .controlled failure => failure.publicError
  | .invalidData => invalidDataError

def main (parsed : Parsed) (process : Process State) : Ending × Process State :=
  match parsed with
  | .help printed =>
      match printMessage printed process with
      | .ok _ final => (.exit 0, final)
      | .error interrupt final => writeError interrupt.error final
  | .refused message => writeError (CommandFailure.usage (usageErrorMessage message)).publicError
      process
  | .unknownOption => writeError unknownOptionFailure.publicError process
  | .arguments arguments =>
      match perform host read arguments process with
      | .ok result final =>
          match result.bind (exitStatus arguments) with
          | some status => (.exit status, final)
          | none => (.raised, final)
      | .error interrupt final => writeError interrupt.error final

end Running

end AgentTestbench

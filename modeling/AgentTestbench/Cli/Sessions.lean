import AgentTestbench.Cli.Exports
import AgentTestbench.Reordering

/-! # Sessions

Command lines that run one after another on one disk. What a command has exported is what a later
one loads, whatever ran between them, unless one of those replaced something on the way.
-/

namespace AgentTestbench

open AssociationList FileTree Fallible

/-! ## Reading an export back -/

section Exports

variable {host : Host} {disk later made : Disk} {output : Text} {value : Json} {path : Path Text}
  {parent place : Place Text} {name : Text}

/-- The path of an output leads to the new file, unless it came past the link that is now this
file. -/
theorem Installs.reads (installs : Installs host disk path value later made parent name)
    (unlinked : ∀ target, disk (name :: parent) ≠ some (.link target)) :
    ∃ inode content, host.walk later path = .ok (name :: parent) ∧
      later (name :: parent) = some (.file inode) ∧ inode.number = host.newNumber ∧
      stableJson value = .ok content ∧ inode.file.content = content.utf8 := by
  rcases installs.written with ⟨content, mode, stable, installed⟩
  rcases makeParents_eq_some installs.parents with ⟨grows, walked, directory⟩
  have entry : later (name :: parent) =
      some (.file ⟨host.newNumber, ⟨content.utf8, mode⟩⟩) := by
    rw [installed]
    exact Function.update_self _ _ _
  have keeps : KeepsExcept (· = name :: parent) made later := by
    intro place node other here
    rw [installed]
    exact (install_of_ne _ other).trans here
  have below : name :: parent ≠ parent := by
    intro same
    have length := congrArg List.length same
    rw [List.length_cons] at length
    omega
  have reached : FileTree.walk later host.links (path.start host.current) path.steps.dropLast =
      .ok parent := by
    rcases walk_follows keeps walked with ⟨_, led⟩ | ⟨_, _, rest, _, crossed, _, walks, _⟩
    · exact led
    · cases crossed
      cases walks with
      | directory here _ => exact absurd here installs.free
      | link here _ =>
          rcases grows (name :: parent) with same | ⟨_, new⟩
          · exact absurd (same.symm.trans here) (unlinked _)
          · cases here.symm.trans new
  have still : IsDirectory later parent := by
    rcases directory with root | directory
    · exact .inl root
    · exact .inr (keeps _ _ below.symm directory)
  have whole : path.steps.dropLast ++ [.down name] = path.steps :=
    List.dropLast_append_getLast? _ installs.last
  refine ⟨_, content, ?_, entry, rfl, stable, rfl⟩
  rw [Host.walk, ← whole]
  exact walk_append_file still entry reached

/-- An artifact in a file is loaded. -/
theorem loadJson_artifact {raw content : Text} {inode : Inode}
    (located : host.locate raw = some path) (walked : host.walk disk path = .ok place)
    (entry : disk place = some (.file inode)) (readable : host.unreadable inode = false)
    (stable : stableJson value = .ok content) (written : inode.file.content = content.utf8)
    (formed : value.WellFormed) (bounded : boundedArtifact value = .ok ())
    (deep : maxJsonNesting ≤ host.recursion) :
    loadJson host disk raw = .ok value.normalize := by
  have serves : Serves binaryStream fileReader fun state rest => state = rest :=
    shortReadStream_serves (by decide)
  rcases parseJsonText_stableJson formed deep bounded stable with
    ⟨encodable, size, starts, parsed⟩
  have opened : host.readFile disk path = some content.utf8 := by
    rw [Host.readFile, Host.open?, walked]
    simp only [entry, readable, written]
    rfl
  rw [loadJson, located]
  simp only [opened]
  rw [loadJsonStream_binary host.recursion serves rfl, if_pos (by rwa [Text.length_utf8]),
    parseSnapshot_of_text encodable (starts_unmarked starts).2, parsed]
  rfl

end Exports

/-! ## Sessions -/

section Sessions

variable {State : Type}

/-- One command line, and the streams it gets. -/
structure Invocation (State : Type) where
  host : Host
  read : Reader State
  parsed : Parsed
  stdin : Option State
  stdout : Sink
  stderr : Sink

def Invocation.process (invocation : Invocation State) (disk : Disk) : Process State :=
  ⟨disk, invocation.stdin, invocation.stdout, invocation.stderr⟩

def Invocation.run (invocation : Invocation State) (disk : Disk) : Ending × Process State :=
  main invocation.host invocation.read invocation.parsed (invocation.process disk)

def Invocation.after (invocation : Invocation State) (disk : Disk) : Disk :=
  (invocation.run disk).2.disk

/-- The disk that a session leaves. -/
def runSession (session : List (Invocation State)) (disk : Disk) : Disk :=
  session.foldl (fun disk invocation => invocation.after disk) disk

/-- The run replaces what is at the place. -/
def Invocation.Replaces (invocation : Invocation State) (disk : Disk) (place : Place Text) : Prop :=
  ∃ arguments, invocation.parsed = .arguments arguments ∧
    ReplacedBy invocation.host arguments disk (invocation.after disk) place

theorem Invocation.keeps (invocation : Invocation State) (disk : Disk) :
    KeepsExcept (invocation.Replaces disk) disk (invocation.after disk) := by
  rcases invocation with ⟨host, read, parsed, stdin, stdout, stderr⟩
  cases parsed with
  | arguments arguments =>
      intro place node kept entry
      apply main_keeps host read arguments ⟨disk, stdin, stdout, stderr⟩ place node _ entry
      exact fun replaced => kept ⟨arguments, rfl, replaced⟩
  | help printed =>
      intro place node _ entry
      rw [Invocation.after, Invocation.run, main_help_disk]
      exact entry
  | refused message =>
      intro place node _ entry
      rw [Invocation.after, Invocation.run, main, writeError_disk]
      exact entry
  | unknownOption =>
      intro place node _ entry
      rw [Invocation.after, Invocation.run, main, writeError_disk]
      exact entry

/-- No run replaces the file that a path leads to, or something on the way to it. -/
def Spares (host : Host) (path : Path Text) (place : Place Text) :
    List (Invocation State) → Disk → Prop
  | [], _ => True
  | invocation :: rest, disk =>
      Avoids disk (invocation.Replaces disk) (path.start host.current) path.steps ∧
        ¬invocation.Replaces disk place ∧ Spares host path place rest (invocation.after disk)

/-- A spared file is found where it was. -/
theorem Spares.reads {host : Host} {path : Path Text} {place : Place Text} {inode : Inode}
    {session : List (Invocation State)} {disk : Disk} (spares : Spares host path place session disk)
    (walked : host.walk disk path = .ok place) (entry : disk place = some (.file inode)) :
    host.walk (runSession session disk) path = .ok place ∧
      runSession session disk place = some (.file inode) := by
  induction session generalizing disk with
  | nil => exact ⟨walked, entry⟩
  | cons invocation rest induction =>
      rcases spares with ⟨avoids, spared, later⟩
      have keeps := invocation.keeps disk
      exact induction later (walk_of_avoids keeps avoids walked) (keeps place _ spared entry)

/-- A run that ends with 0 or 1 has exported its result. -/
theorem Invocation.exports {invocation : Invocation State} {disk : Disk} {arguments : Arguments}
    {output : Text} {path : Path Text} {status : Nat}
    (parsed : invocation.parsed = .arguments arguments) (given : arguments.output = some output)
    (located : invocation.host.locate output = some path) (small : status ≤ 1)
    (ended : (invocation.run disk).1 = .exit status) :
    output ≠ standardInput ∧ ∃ inputs result made parent name,
      Ran invocation.host invocation.read (invocation.process disk) arguments inputs result ∧
      Installs invocation.host disk path result (invocation.after disk) made parent name := by
  have reached := @perform_triple _ invocation.host invocation.read arguments
    (invocation.process disk) (invocation.process disk) rfl
  rw [Invocation.run, parsed] at ended
  cases performed : perform invocation.host invocation.read arguments (invocation.process disk) with
  | error interrupt final =>
      rw [performed] at reached
      rw [main_of_error performed reached.1] at ended
      cases ended
      omega
  | ok returned final =>
      rw [performed] at reached
      rcases reached with ⟨inputs, result, rfl, completes⟩
      rcases main_of_result performed completes.ran.applied with ⟨code, _, exits, _⟩
      have after : invocation.after disk = (writeJsonTo invocation.host disk output result).2 := by
        have left := completes.disk
        rw [exportedDisk, given] at left
        rw [Invocation.after, Invocation.run, parsed, exits]
        exact left
      have file : output ≠ standardInput := by
        have guarded := completes.guarded
        rw [guardOutput, given] at guarded
        simp only [bind_eq_ok_iff, require_eq_ok_iff] at guarded
        rcases guarded with ⟨_, _, _, usable, _⟩
        exact fun standard => usable (.inr standard)
      have exported := completes.exported output given
      change (writeJsonTo invocation.host disk output result).1 = _ at exported
      rcases writeJsonTo_cases invocation.host disk output result with
        ⟨failure, same⟩ | ⟨other, otherLocated, wrote⟩
      · rw [same] at exported
        cases exported
      · cases located.symm.trans otherLocated
        rcases wrote with ⟨failure, left, failed⟩ | ⟨later, made, parent, name, wrote, installs⟩
        · rw [failed] at exported
          cases exported
        · rw [wrote] at after
          rw [after]
          exact ⟨file, inputs, result, made, parent, name, completes.ran, installs⟩

end Sessions

/-! ## Documents without repeated keys -/

section WellFormed

variable {State : Type} {read : Reader State}

private theorem parseJsonText_wellFormed {recursion : Nat} {content : Text} {value : Json}
    (parsed : parseJsonText recursion content = .ok value) : value.WellFormed := by
  simp only [parseJsonText, bind_eq_ok_iff, mapError_eq_ok_iff] at parsed
  rcases parsed with ⟨_, _, _, _, _, _, other, loaded, _, _, same⟩
  cases same
  exact (loads_eq_ok_iff.mp loaded).1.wellFormed

theorem loadJsonStream_wellFormed {recursion : Nat} {state : State} {value : Json}
    (loaded : (loadJsonStream recursion read state).1 = .ok value) : value.WellFormed := by
  rw [loadJsonStream] at loaded
  rcases bind_eq_ok_iff.mp loaded with ⟨data, _, parsed⟩
  rcases bind_eq_ok_iff.mp parsed with ⟨_, _, decoded⟩
  split at decoded
  · cases decoded
  · exact parseJsonText_wellFormed decoded

theorem inputValue_wellFormed {host : Host} {process : Process State} {path : Text} {value : Json}
    (given : inputValue host read process path = .ok value) : value.WellFormed := by
  rw [inputValue] at given
  split_ifs at given
  · rw [loadJson] at given
    split at given
    · cases given
    · split at given
      · cases given
      · exact loadJsonStream_wellFormed (mapError_eq_ok_iff.mp given)
  · split at given
    · cases given
    · exact loadJsonStream_wellFormed (mapError_eq_ok_iff.mp given)

theorem RuleResult.toJson_wellFormed (result : RuleResult) : result.toJson.WellFormed := by
  have distinct : [text "kind", text "passed", text "path", text "reason_code",
      text "rule_id"].Nodup := by decide
  exact ⟨distinct, trivial, trivial, trivial, trivial, trivial, trivial⟩

theorem EvaluationResult.toJson_wellFormed (result : EvaluationResult) :
    result.toJson.WellFormed := by
  have distinct : [text "passed", text "policy_id", text "rule_results"].Nodup := by decide
  have rows : (Json.array (result.ruleResults.map RuleResult.toJson)).WellFormed := by
    rw [Json.wellFormed_array_iff, List.forall_mem_map]
    exact fun row _ => row.toJson_wellFormed
  exact ⟨distinct, trivial, trivial, rows, trivial⟩

theorem CaseReport.toJson_wellFormed (report : CaseReport) : report.toJson.WellFormed := by
  have listed (texts : List Text) : (Json.array (texts.map Json.string)).WellFormed := by
    rw [Json.wellFormed_array_iff, List.forall_mem_map]
    exact fun _ _ => trivial
  rw [CaseReport.toJson]
  cases report.ruleAssertionMismatches with
  | none =>
      have distinct : [text "case_id", text "expected_passed", text "matches_expectation",
          text "evaluation"].Nodup := by decide
      exact ⟨distinct, trivial, trivial, trivial, report.evaluation.toJson_wellFormed, trivial⟩
  | some mismatches =>
      have distinct : [text "case_id", text "expected_passed", text "matches_expectation",
          text "evaluation", text "rule_assertion_mismatches"].Nodup := by decide
      exact ⟨distinct, trivial, trivial, trivial, report.evaluation.toJson_wellFormed,
        listed mismatches, trivial⟩

theorem SuiteReport.toJson_wellFormed (report : SuiteReport) : report.toJson.WellFormed := by
  have distinct : [text "suite_version", text "policy_id", text "matches_expectations",
      text "case_count", text "mismatch_count", text "cases"].Nodup := by decide
  have rows : (Json.array (report.cases.map CaseReport.toJson)).WellFormed := by
    rw [Json.wellFormed_array_iff, List.forall_mem_map]
    exact fun row _ => row.toJson_wellFormed
  exact ⟨distinct, trivial, trivial, trivial, trivial, trivial, rows, trivial⟩

theorem SuiteReceipt.toJson_wellFormed (receipt : SuiteReceipt) : receipt.toJson.WellFormed := by
  have distinct : [text "suite_receipt_version", text "digest_algorithm", text "policy_digest",
      text "suite_digest", text "evaluation"].Nodup := by decide
  exact ⟨distinct, trivial, trivial, trivial, trivial, receipt.evaluation.toJson_wellFormed,
    trivial⟩

/-- A bundle of documents is a document. -/
theorem createReplayBundle_wellFormed {policy suite : Json} {bundle : ReplayBundle}
    (formed : policy.WellFormed) (suiteFormed : suite.WellFormed)
    (created : createReplayBundle (.json policy) suite = .ok bundle) :
    bundle.toJson.WellFormed := by
  rcases bind_eq_ok_iff.mp created with ⟨current, validated, created⟩
  rcases bind_eq_ok_iff.mp created with ⟨fixtures, suiteValidated, created⟩
  rcases bind_eq_ok_iff.mp created with ⟨receipt, _, created⟩
  rcases bind_eq_ok_iff.mp created with ⟨_, _, created⟩
  cases created
  have policyFormed := Policy.toDict_wellFormed
    (show (PolicyInput.json policy).raw.WellFormed from formed) validated
  have fixturesFormed : fixtures.toJson.WellFormed :=
    suiteFormed.of_same ((validateSuite_eq_ok_iff.mp suiteValidated).same suiteFormed).1
  have distinct : [text "replay_version", text "policy", text "suite", text "receipt"].Nodup := by
    decide
  exact ⟨distinct, trivial, policyFormed, fixturesFormed, receipt.toJson_wellFormed, trivial⟩

end WellFormed

/-! ## Replaying later -/

section Replays

variable {State : Type}

/-- A replay bundle is exported, other commands run, and the bundle is replayed with
`--strict-exit`. -/
structure ReplaySession (writer reader : Invocation State) (session : List (Invocation State))
    (disk : Disk) (saves replays : Arguments) (output : Text) (path : Path Text) : Prop where
  saving : writer.parsed = .arguments saves
  saveCommand : saves.command = .table .createReplay
  exported : saves.output = some output
  located : writer.host.locate output = some path
  unlinked : ∀ place target, writer.host.destination disk path = some place →
    disk place ≠ some (.link target)
  spared : ∀ place, writer.host.destination disk path = some place →
    Spares reader.host path place session (writer.after disk)
  replaying : reader.parsed = .arguments replays
  replayCommand : replays.command = .table .replay
  bundle : replays.path .bundle = output
  printed : replays.output = none
  strict : replays.strictExit = true
  reads : reader.host.locate output = some path
  current : reader.host.current = writer.host.current
  links : reader.host.links = writer.host.links
  readable : ∀ file, reader.host.unreadable ⟨writer.host.newNumber, file⟩ = false
  deep : maxJsonNesting ≤ reader.host.recursion
  accepts : reader.stdout.accepts = true

private theorem replay_status {arguments : Arguments} {replay : Replay}
    (command : arguments.command = .table .replay) (strict : arguments.strictExit = true) :
    exitStatus arguments replay.toJson = some (strictCode replay.replayPassed) := by
  rw [exitStatus, if_neg (by rw [command]; exact fun both => by cases both.1), if_pos strict,
    command]
  rfl

/-- Replaying a bundle later exits as the suite matched when the bundle was made, whatever ran in
between and whatever has become of policy and suite. -/
theorem replay_after_session {writer reader : Invocation State}
    {session : List (Invocation State)} {disk : Disk} {saves replays : Arguments} {output : Text}
    {path : Path Text}
    (setting : ReplaySession writer reader session disk saves replays output path)
    (completed : (writer.run disk).1 = .exit 0) :
    ∃ policy suite report,
      inputValue writer.host writer.read (writer.process disk) (saves.path .policy) =
        .ok policy ∧
      inputValue writer.host writer.read (writer.process disk) (saves.path .suite) = .ok suite ∧
      evaluateSuite (.json policy) suite = .ok report ∧
      (reader.run (runSession session (writer.after disk))).1 =
        .exit (if report.matchesExpectations then 0 else 1) := by
  rcases Invocation.exports setting.saving setting.exported setting.located (by decide)
    completed with ⟨file, inputs, result, made, parent, name, ran, installs⟩
  have given := ran.given
  rw [setting.saveCommand] at given
  have policyGiven := given .policy (by decide)
  have suiteGiven := given .suite (by decide)
  have applied := ran.applied
  rw [setting.saveCommand] at applied
  rcases map_eq_ok applied with ⟨bundle, created, rfl⟩
  have formed := createReplayBundle_wellFormed (inputValue_wellFormed policyGiven)
    (inputValue_wellFormed suiteGiven) created
  have bounded := createReplayBundle_artifact bundle created
  rcases replayBundle_created created with ⟨replay, report, replayed, _, evaluated, passed⟩
  have replayedLater := replayBundle_reorder formed (Json.same_normalize _) replayed
  -- The exported file is still there when it is replayed.
  rcases installs.reads (setting.unlinked _ · installs.named) with
    ⟨inode, content, walked, entry, number, stable, written⟩
  have walkedReader : reader.host.walk (writer.after disk) path = .ok (name :: parent) := by
    rw [Host.walk, setting.current, setting.links]
    exact walked
  have later := (setting.spared _ installs.named).reads walkedReader entry
  have readable : reader.host.unreadable inode = false := by
    have same : inode = ⟨writer.host.newNumber, inode.file⟩ := by rw [← number]
    rw [same]
    exact setting.readable inode.file
  have loaded := loadJson_artifact setting.reads later.1 later.2 readable stable written formed
    bounded setting.deep
  have replayRan : Ran reader.host reader.read
      (reader.process (runSession session (writer.after disk))) replays
      (fun _ => bundle.toJson.normalize) replay.toJson := by
    refine ⟨?_, ?_, ?_⟩
    · rw [setting.replayCommand]
      change ([replays.path .bundle]).count standardInput ≤ 1
      exact List.count_le_length
    · rw [setting.replayCommand]
      intro field member
      cases List.mem_singleton.mp (show field ∈ [Field.bundle] from member)
      rw [setting.bundle, inputValue, if_pos file]
      exact loaded
    · rw [setting.replayCommand]
      exact congrArg (Except.map Replay.toJson) replayedLater
  have guarded : guardOutput reader.host
      (reader.process (runSession session (writer.after disk))).disk replays = .ok () := by
    rw [guardOutput, setting.printed]
  rcases perform_returns guarded replayRan
    (fun output member => by rw [setting.printed] at member; cases member) setting.accepts with
    ⟨final, performed⟩
  rcases main_of_result performed replayRan.applied with ⟨status, _, ended, exits, _⟩
  rw [replay_status setting.replayCommand setting.strict, passed] at exits
  refine ⟨inputs .policy, inputs .suite, report, policyGiven, suiteGiven, evaluated, ?_⟩
  rw [Invocation.run, setting.replaying, ended, ← Option.some.inj exits]
  rfl

end Replays

/-- Policy and suite in one directory. -/
def consentDisk : Disk := fun place =>
  if place = [text "policy.json"] then
    some (.file ⟨1, ⟨consentPolicy.toDict.canonicalText.utf8, 0o600⟩⟩)
  else if place = [text "suite.json"] then
    some (.file ⟨2, ⟨consentSuite.toJson.canonicalText.utf8, 0o600⟩⟩)
  else none

def saveBundle : Arguments :=
  ⟨.table .createReplay, fun field => if field = .policy then text "policy.json" else
    text "suite.json", some (text "bundle.json"), false, false, by decide, by decide⟩

def replaySaved : Arguments :=
  ⟨.table .replay, fun _ => text "bundle.json", none, true, false, by decide, by decide⟩

/-- What the arguments describe, without standard input. -/
def quietly (arguments : Arguments) : Invocation Unit :=
  ⟨quietHost, fun state _ => (.osError, state), .arguments arguments, none, ⟨.whole, []⟩,
    ⟨.whole, []⟩⟩

/-- This run replaces the suite. -/
def overwriteSuite : Arguments :=
  ⟨.table .inspectPolicy, fun _ => text "policy.json", some (text "suite.json"), false, false,
    by decide, by decide⟩

theorem overwriteSuite_replaces {disk : Disk} {place : Place Text}
    (replaced : (quietly overwriteSuite).Replaces disk place) : place = [text "suite.json"] := by
  rcases replaced with ⟨arguments, parsed, output, given, path, located, named, _⟩
  cases parsed
  cases given
  have reads : quietHost.locate (text "suite.json") =
      some ⟨false, [.down (text "suite.json")]⟩ := by decide +kernel
  cases reads.symm.trans located
  have target : quietHost.destination disk ⟨false, [.down (text "suite.json")]⟩ =
      some [text "suite.json"] := rfl
  exact (Option.some.inj (target.symm.trans named)).symm

theorem replay_after_session_overwritten :
    ∃ policy suite report,
      inputValue quietHost (quietly saveBundle).read ((quietly saveBundle).process consentDisk)
        (text "policy.json") = .ok policy ∧
      inputValue quietHost (quietly saveBundle).read ((quietly saveBundle).process consentDisk)
        (text "suite.json") = .ok suite ∧
      evaluateSuite (.json policy) suite = .ok report ∧
      ((quietly replaySaved).run (runSession [quietly overwriteSuite]
        ((quietly saveBundle).after consentDisk))).1 =
          .exit (if report.matchesExpectations then 0 else 1) := by
  let bundlePath : Path Text := ⟨false, [.down (text "bundle.json")]⟩
  have reads : quietHost.locate (text "bundle.json") = some bundlePath := by decide +kernel
  have target {place : Place Text}
      (named : quietHost.destination consentDisk bundlePath = some place) :
      place = [text "bundle.json"] := (Option.some.inj named).symm
  have saved : entryAt ((quietly saveBundle).after consentDisk) [text "bundle.json"] ≠
      .symbolicLink [] := by decide +kernel
  have setting : ReplaySession (quietly saveBundle) (quietly replaySaved)
      [quietly overwriteSuite] consentDisk saveBundle replaySaved (text "bundle.json")
      bundlePath := {
    saving := rfl
    saveCommand := rfl
    exported := rfl
    located := reads
    unlinked := by
      intro place link named
      have new : consentDisk [text "bundle.json"] = none := by decide +kernel
      rw [target named, new]
      exact fun linked => by cases linked
    spared := by
      intro place named
      rw [target named]
      refine ⟨fun parent name rest passes replaced => ?_, fun replaced => ?_, trivial⟩
      · have there := overwriteSuite_replaces replaced
        cases passes with
        | here => exact absurd there (by decide +kernel)
        | directory _ passes => cases passes
        | link entry _ =>
            change (quietly saveBundle).after consentDisk [text "bundle.json"] = _ at entry
            exact absurd (by rw [entryAt, entry]) saved
      · exact absurd (overwriteSuite_replaces replaced) (by decide +kernel)
    replaying := rfl
    replayCommand := rfl
    bundle := rfl
    printed := rfl
    strict := rfl
    reads := reads
    current := rfl
    links := rfl
    readable := fun _ => rfl
    deep := by decide
    accepts := rfl }
  exact replay_after_session setting (by decide +kernel)

end AgentTestbench

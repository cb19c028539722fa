import AgentTestbench.Foundation.Raising
import AgentTestbench.Json.Encode

/-! # JSON export

`write_json` writes a temporary file beside the destination and then replaces it. Every
file-system call of it can fail; the replacement itself is atomic.
-/

namespace AgentTestbench

open Raising

/-! ## The file system -/

structure RegularFile where
  content : List (BitVec 8)
  mode : Nat
  deriving DecidableEq

/-- What `lstat` can find at the destination. -/
inductive Entry where
  | absent
  | regular (file : RegularFile)
  | symbolicLink (target : Text)
  | directory
  | special
  deriving DecidableEq

inductive FileCall where
  | lstat
  | mkdir
  | create
  | write
  | flush
  | fchmod
  | fsync
  | close
  | replace
  | unlink
  deriving DecidableEq

/-- Which calls fail with `OSError`, what a failing transfer leaves in the file, and
whether `os` has `fchmod`. -/
structure Environment where
  fails : FileCall → Bool
  leftover : FileCall → List (BitVec 8)
  hasFchmod : Bool

/-- The destination and its parent, the temporary file and the buffer of its stream, and
whether the local variable `temporary` is set. -/
structure FileState where
  parentExists : Bool
  destination : Entry
  temporary : Option RegularFile
  unwritten : List (BitVec 8)
  owned : Bool
  deriving DecidableEq

def FileState.initial (parentExists : Bool) (destination : Entry) : FileState :=
  ⟨parentExists, destination, none, [], false⟩

inductive OutputFailure where
  | serialization (reason : EncodeError)
  | unicode
  | os (name : FileCall)
  | jsonOutput (message : Text)
  deriving DecidableEq

abbrev FileProgram (Value : Type) : Type := EStateM OutputFailure FileState Value

def FileState.setContent (state : FileState) (content : List (BitVec 8)) : FileState :=
  { state with temporary := state.temporary.map fun file => { file with content := content } }

/-- The buffer goes to the file. -/
def FileState.drain (state : FileState) : FileState :=
  { state with
    temporary := state.temporary.map fun file =>
      { file with content := file.content ++ state.unwritten }
    unwritten := [] }

section Calls

variable (environment : Environment)

def call (name : FileCall) : FileProgram Unit :=
  if environment.fails name then throw (.os name) else pure ()

/-- A call that moves data towards the file. -/
def transfer (name : FileCall) (change : FileState → FileState) : FileProgram Unit :=
  if environment.fails name then do
    modify fun state => state.setContent (environment.leftover name)
    throw (.os name)
  else modify change

/-- `destination.lstat()` and the permissions chosen from it. -/
def choosePermissions : FileProgram Nat := do
  call environment .lstat
  match (← get).destination with
  | .regular existing => pure (existing.mode &&& 0o777)
  | _ => pure 0o600

def makeParent : FileProgram Unit := do
  call environment .mkdir
  modify fun state => { state with parentExists := true }

/-- `tempfile.NamedTemporaryFile(...)`. -/
def createTemporary : FileProgram Unit := do
  call environment .create
  modify fun state => { state with temporary := some ⟨[], 0o600⟩, unwritten := [] }

def writeText (content : Text) : FileProgram Unit :=
  if content.Encodable then
    transfer environment .write fun state =>
      { state with unwritten := state.unwritten ++ content.utf8 }
  else throw .unicode

def flush : FileProgram Unit := transfer environment .flush FileState.drain

def fchmod (permissions : Nat) : FileProgram Unit :=
  if environment.hasFchmod then do
    call environment .fchmod
    modify fun state =>
      { state with temporary := state.temporary.map fun file => { file with mode := permissions } }
  else pure ()

def close : FileProgram Unit := transfer environment .close FileState.drain

/-- `os.replace(temporary, destination)`; a directory is not replaced by a file. -/
def replaceDestination : FileProgram Unit := do
  call environment .replace
  let state ← get
  match state.temporary, state.destination with
  | some _, .directory => throw (.os .replace)
  | some file, _ => set { state with destination := .regular file, temporary := none }
  | none, _ => throw (.os .replace)

/-- The `finally` block. -/
def unlinkTemporary : FileProgram Unit := do
  if (← get).owned then
    try
      call environment .unlink
      modify fun state => { state with temporary := none }
    catch _ => pure ()

end Calls

def setOwned (owned : Bool) : FileProgram Unit :=
  modify fun state => { state with owned := owned }

def outputMessage : Text := text "Unable to write the requested JSON output."

/-- The `with` block. -/
def fillTemporary (environment : Environment) (content : Text) (permissions : Nat) :
    FileProgram Unit := do
  try
    setOwned true
    writeText environment content
    flush environment
    fchmod environment permissions
    call environment .fsync
  finally
    close environment

def serialize (value : Json) : FileProgram Text :=
  match stableJson value with
  | .ok content => pure content
  | .error reason => throw (.serialization reason)

def exportJson (environment : Environment) (value : Json) : FileProgram Unit := do
  let content ← serialize value
  let permissions ← choosePermissions environment
  makeParent environment
  createTemporary environment
  fillTemporary environment content permissions
  replaceDestination environment
  setOwned false

/-- `write_json`. -/
def writeJson (environment : Environment) (value : Json) : FileProgram Unit := do
  try
    exportJson environment value
  catch _ => throw (.jsonOutput outputMessage)
  finally
    unlinkTemporary environment

/-! ## The calls -/

section Triples

variable {environment : Environment} {destination : Entry}

/-- The destination is as it was, and a temporary file is known to the cleanup. -/
def Kept (destination : Entry) (state : FileState) : Prop :=
  state.destination = destination ∧ (state.temporary ≠ none → state.owned = true)

/-- The `with` block has filled the temporary file so far. -/
structure Holding (destination : Entry) (content unwritten : List (BitVec 8)) (mode : Nat)
    (state : FileState) : Prop where
  destination : state.destination = destination
  temporary : state.temporary = some ⟨content, mode⟩
  unwritten : state.unwritten = unwritten
  owned : state.owned = true

theorem Holding.kept {content unwritten : List (BitVec 8)} {mode : Nat} {state : FileState}
    (holding : Holding destination content unwritten mode state) : Kept destination state :=
  ⟨holding.destination, fun _ => holding.owned⟩

theorem Kept.setContent {state : FileState} (kept : Kept destination state)
    (content : List (BitVec 8)) : Kept destination (state.setContent content) := by
  refine ⟨kept.1, ?_⟩
  intro present
  apply kept.2
  intro vacant
  exact present (by rw [FileState.setContent, vacant]; rfl)

theorem Kept.drain {state : FileState} (kept : Kept destination state) :
    Kept destination state.drain := by
  refine ⟨kept.1, ?_⟩
  intro present
  apply kept.2
  intro vacant
  exact present (by rw [FileState.drain, vacant]; rfl)

theorem Holding.drain {content unwritten : List (BitVec 8)} {mode : Nat} {state : FileState}
    (holding : Holding destination content unwritten mode state) :
    Holding destination (content ++ unwritten) [] mode state.drain where
  destination := holding.destination
  temporary := by
    rw [FileState.drain, holding.temporary, holding.unwritten]
    rfl
  unwritten := rfl
  owned := holding.owned

variable {before : FileState → Prop} {raised : OutputFailure → FileState → Prop}

theorem call_triple (name : FileCall)
    (stops : environment.fails name = true → ∀ failure state, before state → raised failure state) :
    Triple before (call environment name) (fun _ => before) raised := by
  apply triple_ite
  · intro failing
    exact triple_throw _ (stops failing _)
  · intro _
    exact triple_pure _ fun _ holds => holds

theorem transfer_triple {after : FileState → Prop} (name : FileCall)
    {change : FileState → FileState} (kept : ∀ state, before state → Kept destination state)
    (changed : ∀ state, before state → after (change state)) :
    Triple before (transfer environment name change) (fun _ => after)
      fun _ => Kept destination := by
  apply triple_ite
  · intro _
    apply triple_bind (fun _ => Kept destination)
    · exact triple_modify _ fun state holds => (kept state holds).setContent _
    · intro _
      exact triple_throw _ fun _ holds => holds
  · intro _
    exact triple_modify _ changed

/-- The mode of the exported file. -/
def Entry.exportMode : Entry → Nat
  | .regular existing => existing.mode &&& 0o777
  | _ => 0o600

private theorem choosePermissions_triple {parentExists : Bool} :
    Triple (· = FileState.initial parentExists destination) (choosePermissions environment)
      (fun permissions state => state = FileState.initial parentExists destination ∧
        permissions = destination.exportMode)
      fun _ => Kept destination := by
  have kept : Kept destination (FileState.initial parentExists destination) :=
    ⟨rfl, fun present => absurd rfl present⟩
  apply triple_bind (fun _ => (· = FileState.initial parentExists destination))
  · apply call_triple
    intro _ _ state holds
    exact holds ▸ kept
  · intro _
    apply triple_bind (fun read state =>
      state = FileState.initial parentExists destination ∧ read = state)
    · exact triple_get fun state holds => ⟨holds, rfl⟩
    · intro read state holds
      rcases holds with ⟨rfl, rfl⟩
      cases destination <;> exact ⟨rfl, rfl⟩

private theorem makeParent_triple {parentExists : Bool} :
    Triple (· = FileState.initial parentExists destination) (makeParent environment)
      (fun _ => (· = FileState.initial true destination)) fun _ => Kept destination := by
  apply triple_bind (fun _ => (· = FileState.initial parentExists destination))
  · apply call_triple
    intro _ _ state holds
    rw [holds]
    exact ⟨rfl, fun present => absurd rfl present⟩
  · intro _
    apply triple_modify
    intro state holds
    rw [holds]
    rfl

/-- Between its creation and its assignment the temporary file is not yet owned. -/
theorem createTemporary_triple :
    Triple (· = FileState.initial true destination) (createTemporary environment)
      (fun _ => (· = { FileState.initial true destination with temporary := some ⟨[], 0o600⟩ }))
      fun _ => Kept destination := by
  apply triple_bind (fun _ => (· = FileState.initial true destination))
  · apply call_triple
    intro _ _ state holds
    rw [holds]
    exact ⟨rfl, fun present => absurd rfl present⟩
  · intro _
    apply triple_modify
    intro state holds
    rw [holds]
    rfl

private theorem writeText_triple {content : Text} :
    Triple (Holding destination [] [] 0o600) (writeText environment content)
      (fun _ => Holding destination [] content.utf8 0o600) fun _ => Kept destination := by
  apply triple_ite
  · intro _
    apply transfer_triple
    · exact fun _ holding => holding.kept
    · intro state holding
      exact ⟨holding.destination, holding.temporary, by rw [holding.unwritten]; rfl,
        holding.owned⟩
  · intro _
    exact triple_throw _ fun _ holding => holding.kept

theorem drain_triple {content unwritten : List (BitVec 8)} {mode : Nat} (name : FileCall) :
    Triple (Holding destination content unwritten mode)
      (transfer environment name FileState.drain)
      (fun _ => Holding destination (content ++ unwritten) [] mode) fun _ => Kept destination := by
  apply transfer_triple
  · exact fun _ holding => holding.kept
  · exact fun _ holding => holding.drain

/-- The mode of the temporary file once `fchmod` was called, where there is one. -/
def Environment.mode (environment : Environment) (permissions : Nat) : Nat :=
  if environment.hasFchmod then permissions else 0o600

private theorem fchmod_triple {content unwritten : List (BitVec 8)} {permissions : Nat} :
    Triple (Holding destination content unwritten 0o600) (fchmod environment permissions)
      (fun _ => Holding destination content unwritten (environment.mode permissions))
      fun _ => Kept destination := by
  apply triple_ite
  · intro available
    apply triple_bind (fun _ => Holding destination content unwritten 0o600)
    · apply call_triple
      exact fun _ _ _ holding => holding.kept
    · intro _
      apply triple_modify
      intro state holding
      rw [Environment.mode, if_pos available]
      exact ⟨holding.destination, by rw [holding.temporary]; rfl, holding.unwritten,
        holding.owned⟩
  · intro unavailable
    apply triple_pure
    intro state holding
    rw [Environment.mode, if_neg unavailable]
    exact holding

private theorem fillTemporary_triple {content : Text} {permissions : Nat} :
    Triple (· = { FileState.initial true destination with temporary := some ⟨[], 0o600⟩ })
      (fillTemporary environment content permissions)
      (fun _ => Holding destination content.utf8 [] (environment.mode permissions))
      fun _ => Kept destination := by
  apply triple_tryFinally
    (fun _ => Holding destination content.utf8 [] (environment.mode permissions))
    (fun _ => Kept destination)
  · apply triple_bind (fun _ => Holding destination [] [] 0o600)
    · apply triple_modify
      intro state holds
      rw [holds]
      exact ⟨rfl, rfl, rfl, rfl⟩
    · intro _
      apply triple_bind _ writeText_triple
      intro _
      apply triple_bind _ (drain_triple .flush)
      intro _
      apply triple_bind _ fchmod_triple
      intro _
      apply call_triple
      exact fun _ _ _ holding => holding.kept
  · intro _
    have closed := @drain_triple environment destination content.utf8 []
      (environment.mode permissions) .close
    rw [List.append_nil] at closed
    exact closed
  · intro _
    apply transfer_triple
    · exact fun _ kept => kept
    · exact fun _ kept => kept.drain

/-- The replacement is the only step that changes the destination. -/
theorem replaceDestination_triple {content : List (BitVec 8)} {mode : Nat} :
    Triple (Holding destination content [] mode) (replaceDestination environment)
      (fun _ state => state.destination = .regular ⟨content, mode⟩ ∧ state.temporary = none)
      fun _ => Kept destination := by
  apply triple_bind (fun _ => Holding destination content [] mode)
  · apply call_triple
    exact fun _ _ _ holding => holding.kept
  · intro _
    apply triple_bind (fun read state => Holding destination content [] mode state ∧ read = state)
    · exact triple_get fun state holds => ⟨holds, rfl⟩
    · intro read state holds
      rcases holds with ⟨holding, rfl⟩
      rw [holding.temporary]
      cases there : read.destination with
      | directory => exact holding.kept
      | _ => exact ⟨rfl, rfl⟩

private theorem serialize_triple {value : Json} {parentExists : Bool} :
    Triple (· = FileState.initial parentExists destination) (serialize value)
      (fun content state => state = FileState.initial parentExists destination ∧
        stableJson value = .ok content)
      fun _ => Kept destination := by
  rw [serialize]
  cases stableJson value with
  | ok content => exact triple_pure _ fun state holds => ⟨holds, rfl⟩
  | error reason =>
      apply triple_throw
      intro state holds
      rw [holds]
      exact ⟨rfl, fun present => absurd rfl present⟩

/-- The destination holds the serialized value, and the temporary file is gone. -/
def Exported (environment : Environment) (destination : Entry) (value : Json)
    (state : FileState) : Prop :=
  state.temporary = none ∧ ∃ content, stableJson value = .ok content ∧
    state.destination = .regular ⟨content.utf8, environment.mode destination.exportMode⟩

private theorem exportJson_triple {value : Json} {parentExists : Bool} :
    Triple (· = FileState.initial parentExists destination) (exportJson environment value)
      (fun _ => Exported environment destination value) fun _ => Kept destination := by
  apply triple_bind _ serialize_triple
  intro content
  apply triple_given
  intro stable
  apply triple_bind _ choosePermissions_triple
  intro permissions
  apply triple_given
  intro chosen
  apply triple_bind _ makeParent_triple
  intro _
  apply triple_bind _ createTemporary_triple
  intro _
  apply triple_bind _ fillTemporary_triple
  intro _
  apply triple_bind _ replaceDestination_triple
  intro _
  apply triple_modify
  intro state replaced
  exact ⟨replaced.2, content, stable, chosen ▸ replaced.1⟩

theorem unlinkTemporary_triple {reached : Entry} :
    Triple (Kept reached) (unlinkTemporary environment)
      (fun _ state => state.destination = reached ∧
        (state.temporary ≠ none → environment.fails .unlink = true))
      fun _ _ => False := by
  apply triple_bind (fun read state => Kept reached state ∧ read = state)
  · exact triple_get fun state holds => ⟨holds, rfl⟩
  · intro read
    apply triple_ite
    · intro _
      apply triple_tryCatch (fun _ state => state.destination = reached ∧
        environment.fails .unlink = true)
      · apply triple_bind (fun _ => Kept reached)
        · intro state holds
          exact call_triple .unlink (fun failing _ _ kept => ⟨kept.1, failing⟩) state holds.1
        · intro _
          apply triple_modify
          intro state kept
          exact ⟨kept.1, fun present => absurd rfl present⟩
      · intro _
        apply triple_pure
        intro state holds
        exact ⟨holds.1, fun _ => holds.2⟩
    · intro unowned
      apply triple_pure
      intro state holds
      refine ⟨holds.1.1, fun present => absurd ?_ unowned⟩
      rw [holds.2]
      exact holds.1.2 present

theorem writeJson_triple {value : Json} {parentExists : Bool} :
    Triple (· = FileState.initial parentExists destination) (writeJson environment value)
      (fun _ state => (∃ content, stableJson value = .ok content ∧ state.destination =
          .regular ⟨content.utf8, environment.mode destination.exportMode⟩) ∧
        (state.temporary ≠ none → environment.fails .unlink = true))
      fun failure state => failure = .jsonOutput outputMessage ∧
        state.destination = destination ∧
        (state.temporary ≠ none → environment.fails .unlink = true) := by
  apply triple_tryFinally (fun _ => Exported environment destination value)
    (fun failure state => Kept destination state ∧ failure = .jsonOutput outputMessage)
  · apply triple_tryCatch _ exportJson_triple
    intro _
    exact triple_throw _ fun _ kept => ⟨kept, rfl⟩
  · intro _ state exported
    have kept : Kept state.destination state := ⟨rfl, fun present => absurd exported.1 present⟩
    rcases exported.2 with ⟨content, stable, written⟩
    have cleaned := @unlinkTemporary_triple environment _ state kept
    cases ran : unlinkTemporary environment state with
    | ok _ final =>
        rw [ran] at cleaned
        exact ⟨⟨content, stable, cleaned.1.trans written⟩, cleaned.2⟩
    | error _ final =>
        rw [ran] at cleaned
        exact cleaned.elim
  · intro failure
    apply triple_given
    intro message
    apply triple_consequence unlinkTemporary_triple
    · exact fun _ kept => kept
    · intro _ state cleaned
      exact ⟨message, cleaned⟩
    · intro _ _ impossible
      exact impossible.elim

end Triples

/-- A serialization failure changes nothing. -/
theorem writeJson_of_unserializable {value : Json} {reason : EncodeError}
    (environment : Environment) (parentExists : Bool) (destination : Entry)
    (failed : stableJson value = .error reason) :
    writeJson environment value (.initial parentExists destination) =
      .error (.jsonOutput outputMessage) (.initial parentExists destination) := by
  have serialized : serialize value (.initial parentExists destination) =
      .error (.serialization reason) (.initial parentExists destination) := by
    rw [serialize, failed]
    rfl
  simp only [writeJson, exportJson, tryFinally, tryFinally', Functor.map, EStateM.map, bind,
    EStateM.bind, tryCatch, tryCatchThe, MonadExceptOf.tryCatch, EStateM.tryCatch, serialized]
  rfl

/-- Where no call fails, the export returns. -/
theorem writeJson_returns {environment : Environment} {value : Json} {content : Text}
    {destination : Entry} (parentExists : Bool) (quiet : ∀ name, environment.fails name = false)
    (stable : stableJson value = .ok content) (encodable : content.Encodable)
    (replaceable : destination ≠ .directory) :
    writeJson environment value (.initial parentExists destination) =
      .ok () ⟨true, .regular ⟨content.utf8, environment.mode destination.exportMode⟩, none, [],
        false⟩ := by
  have serialized (state : FileState) : serialize value state = .ok content state := by
    rw [serialize, stable]
    rfl
  have called (name : FileCall) : call environment name = pure () := by
    rw [call, quiet]
    rfl
  have transferred (name : FileCall) (change : FileState → FileState) :
      transfer environment name change = modify change := by
    rw [transfer, quiet]
    rfl
  have chosen : choosePermissions environment (.initial parentExists destination) =
      .ok destination.exportMode (.initial parentExists destination) := by
    rw [choosePermissions, called]
    cases destination <;> rfl
  have made : makeParent environment (.initial parentExists destination) =
      .ok () (.initial true destination) := by
    rw [makeParent, called]
    rfl
  have created : createTemporary environment (.initial true destination) =
      .ok () { FileState.initial true destination with temporary := some ⟨[], 0o600⟩ } := by
    rw [createTemporary, called]
    rfl
  have filled : fillTemporary environment content destination.exportMode
      { FileState.initial true destination with temporary := some ⟨[], 0o600⟩ } =
      .ok () ⟨true, destination, some ⟨content.utf8, environment.mode destination.exportMode⟩, [],
        true⟩ := by
    have drained : [] ++ ([] ++ content.utf8) ++ [] = content.utf8 := by simp
    rw [fillTemporary, writeText, if_pos encodable, flush, close, fchmod, Environment.mode]
    simp only [transferred, called]
    conv_rhs => rw [← drained]
    cases environment.hasFchmod <;> rfl
  have replaced : replaceDestination environment ⟨true, destination,
      some ⟨content.utf8, environment.mode destination.exportMode⟩, [], true⟩ =
      .ok () ⟨true, .regular ⟨content.utf8, environment.mode destination.exportMode⟩, none, [],
        true⟩ := by
    rw [replaceDestination, called]
    cases destination with
    | directory => exact absurd rfl replaceable
    | _ => rfl
  have exported : exportJson environment value (.initial parentExists destination) =
      .ok () ⟨true, .regular ⟨content.utf8, environment.mode destination.exportMode⟩, none, [],
        false⟩ := by
    simp only [exportJson, bind, EStateM.bind, serialized, chosen, made, created, filled, replaced]
    rfl
  simp only [writeJson, tryFinally, tryFinally', Functor.map, EStateM.map, tryCatch, tryCatchThe,
    MonadExceptOf.tryCatch, EStateM.tryCatch, exported]
  rfl

/-- Either the destination holds the serialized value or it is as it was; and where no call
fails, it holds the value. -/
theorem writeJson_all_or_nothing (environment : Environment) (value : Json)
    (parentExists : Bool) (destination : Entry) :
    (∃ final, (writeJson environment value (.initial parentExists destination) = .ok () final ∧
        (∃ content mode, stableJson value = .ok content ∧
          final.destination = .regular ⟨content.utf8, mode⟩ ∧
          (environment.hasFchmod = true → mode = destination.exportMode)) ∨
      writeJson environment value (.initial parentExists destination) =
          .error (.jsonOutput outputMessage) final ∧ final.destination = destination) ∧
      (final.temporary ≠ none → environment.fails .unlink = true) ∧
      ∀ reason, stableJson value = .error reason → final = .initial parentExists destination) ∧
    ∀ content, (∀ name, environment.fails name = false) → stableJson value = .ok content →
      content.Encodable → destination ≠ .directory →
      writeJson environment value (.initial parentExists destination) =
        .ok () ⟨true, .regular ⟨content.utf8, environment.mode destination.exportMode⟩, none, [],
          false⟩ := by
  refine ⟨?_, fun content quiet stable encodable replaceable =>
    writeJson_returns parentExists quiet stable encodable replaceable⟩
  have reached := @writeJson_triple environment destination value parentExists _ rfl
  cases ran : writeJson environment value (.initial parentExists destination) with
  | ok done final =>
      rw [ran] at reached
      rcases reached with ⟨⟨content, stable, written⟩, cleaned⟩
      refine ⟨final, .inl ⟨rfl, content, _, stable, written, ?_⟩, cleaned, ?_⟩
      · intro available
        rw [Environment.mode, if_pos available]
      · intro reason failed
        cases stable.symm.trans failed
  | error failure final =>
      rw [ran] at reached
      rcases reached with ⟨rfl, kept, cleaned⟩
      refine ⟨final, .inr ⟨rfl, kept⟩, cleaned, ?_⟩
      intro reason failed
      rw [writeJson_of_unserializable environment parentExists destination failed] at ran
      cases ran
      rfl

/-- A file with other content is replaced, and keeps its permissions. -/
theorem writeJson_all_or_nothing_quiet :
    writeJson ⟨fun _ => false, fun _ => [], true⟩ (.object [])
        (.initial true (.regular ⟨(text "draft").utf8, 0o640⟩)) =
      .ok () ⟨true, .regular ⟨(text "\x7b\x7d\n").utf8, 0o640⟩, none, [], false⟩ :=
  (writeJson_all_or_nothing ⟨fun _ => false, fun _ => [], true⟩ (.object []) true
    (.regular ⟨(text "draft").utf8, 0o640⟩)).2 (text "\x7b\x7d\n") (fun _ => rfl)
    (by decide +kernel) (by decide +kernel) (by decide)

end AgentTestbench

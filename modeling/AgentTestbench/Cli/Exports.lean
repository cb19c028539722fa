import AgentTestbench.Cli.Discipline

/-! # Exports and inputs

What an export changes on the disk, and why the guard keeps it from changing an input. A file that
was an input stays as it was in every run. Only its path may stop leading to it, where that path
came past the link that the output replaced.
-/

namespace AgentTestbench

open FileTree Fallible Raising

/-! ## Calls that an export needs -/

section Calls

variable {environment : Environment} {value : Json} {State Failure Value : Type}

theorem triple_true (before : State → Prop) (program : EStateM Failure State Value) :
    Triple before program (fun _ _ => True) fun _ _ => True := by
  intro state _
  cases program state <;> trivial

/-- A call that fails raises. -/
theorem call_raises {name : FileCall} (fails : environment.fails name = true)
    (before : FileState → Prop) :
    Triple before (call environment name) (fun _ _ => False) fun _ _ => True := by
  rw [call, if_pos fails]
  exact triple_throw _ fun _ _ => trivial

theorem triple_absurd {before : State → Prop} {program : EStateM Failure State Value}
    {returned : Value → State → Prop} {raised : Failure → State → Prop}
    (impossible : ∀ state, ¬before state) : Triple before program returned raised :=
  fun state holds => absurd holds (impossible state)

private theorem exportJson_raises (fails : environment.fails .replace = true) :
    Triple (fun _ => True) (exportJson environment value) (fun _ _ => False) fun _ _ => True := by
  apply triple_bind _ (triple_true _ _)
  intro content
  apply triple_bind _ (triple_true _ _)
  intro permissions
  apply triple_bind _ (triple_true _ _)
  intro _
  apply triple_bind _ (triple_true _ _)
  intro _
  apply triple_bind _ (triple_true _ _)
  intro _
  apply triple_bind (fun _ _ => False)
  · exact triple_bind _ (call_raises fails _) fun _ => triple_absurd fun _ holds => holds
  · exact fun _ => triple_absurd fun _ holds => holds

private theorem writeJson_raises (fails : environment.fails .replace = true) :
    Triple (fun _ => True) (writeJson environment value) (fun _ _ => False) fun _ _ => True := by
  apply triple_tryFinally (fun _ _ => False) (fun _ _ => True)
  · exact triple_tryCatch _ (exportJson_raises fails) fun _ => triple_throw _ fun _ _ => trivial
  · exact fun _ => triple_absurd fun _ holds => holds
  · exact fun _ => triple_true _ _

/-- An export that returns has replaced its destination. -/
theorem replaces_of_writeJson {state final : FileState}
    (written : writeJson environment value state = .ok () final) :
    environment.fails .replace = false := by
  cases fails : environment.fails .replace with
  | false => rfl
  | true =>
      have reached := @writeJson_raises environment value fails state trivial
      rw [written] at reached
      exact reached.elim

/-! ### Parents -/

/-- The program keeps the parents that exist. -/
def KeepsParents (program : FileProgram Value) : Prop :=
  Triple (·.parentExists = true) program (fun _ => (·.parentExists = true))
    fun _ => (·.parentExists = true)

theorem keepsParents_bind {Result : Type} {program : FileProgram Value}
    {next : Value → FileProgram Result} (first : KeepsParents program)
    (rest : ∀ result, KeepsParents (next result)) : KeepsParents (program >>= next) :=
  triple_bind _ first rest

theorem keepsParents_call (name : FileCall) : KeepsParents (call environment name) := by
  apply triple_ite
  · exact fun _ => triple_throw _ fun _ holds => holds
  · exact fun _ => triple_pure _ fun _ holds => holds

theorem keepsParents_modify {change : FileState → FileState}
    (keeps : ∀ state, (change state).parentExists = state.parentExists) :
    KeepsParents (modify change) :=
  triple_modify _ fun state holds => (keeps state).trans holds

theorem keepsParents_transfer (name : FileCall) {change : FileState → FileState}
    (keeps : ∀ state, (change state).parentExists = state.parentExists) :
    KeepsParents (transfer environment name change) := by
  apply triple_ite
  · intro _
    exact keepsParents_bind (keepsParents_modify fun _ => rfl) fun _ =>
      triple_throw _ fun _ holds => holds
  · exact fun _ => keepsParents_modify keeps

private theorem keepsParents_fillTemporary (content : Text) (permissions : Nat) :
    KeepsParents (fillTemporary environment content permissions) := by
  have written : KeepsParents (writeText environment content) := by
    apply triple_ite
    · exact fun _ => keepsParents_transfer _ fun _ => rfl
    · exact fun _ => triple_throw _ fun _ holds => holds
  have changed : KeepsParents (fchmod environment permissions) := by
    apply triple_ite
    · exact fun _ => keepsParents_bind (keepsParents_call _) fun _ =>
        keepsParents_modify fun _ => rfl
    · exact fun _ => triple_pure _ fun _ holds => holds
  have owned : KeepsParents (setOwned true) := keepsParents_modify fun _ => rfl
  have flushed : KeepsParents (flush environment) := keepsParents_transfer _ fun _ => rfl
  have closed : KeepsParents (close environment) := keepsParents_transfer _ fun _ => rfl
  apply triple_tryFinally (fun _ => (·.parentExists = true)) (fun _ => (·.parentExists = true))
  · exact keepsParents_bind owned fun _ => keepsParents_bind written fun _ =>
      keepsParents_bind flushed fun _ => keepsParents_bind changed fun _ => keepsParents_call _
  · exact fun _ => closed
  · exact fun _ => closed

/-- The replacement leaves no temporary file behind, and the parents are there. -/
def Tidy (state : FileState) : Prop :=
  state.parentExists = true ∧ state.temporary = none

private theorem replaceDestination_tidies :
    Triple (·.parentExists = true) (replaceDestination environment) (fun _ => Tidy)
      fun _ _ => True := by
  apply triple_bind (fun _ => (·.parentExists = true))
  · exact triple_consequence (keepsParents_call _) (fun _ holds => holds) (fun _ _ holds => holds)
      fun _ _ _ => trivial
  · intro _
    apply triple_bind (fun read state => state.parentExists = true ∧ read = state)
    · exact triple_get fun _ holds => ⟨holds, rfl⟩
    · intro read state holds
      rcases holds with ⟨existing, rfl⟩
      cases read.temporary with
      | none => trivial
      | some file =>
          cases read.destination with
          | directory => trivial
          | _ => exact ⟨existing, rfl⟩

private theorem exportJson_tidies :
    Triple (fun _ => True) (exportJson environment value) (fun _ => Tidy) fun _ _ => True := by
  apply triple_bind _ (triple_true _ _)
  intro content
  apply triple_bind _ (triple_true _ _)
  intro permissions
  apply triple_bind (fun _ => (·.parentExists = true))
  · exact triple_bind _ (triple_true _ _) fun _ => triple_modify _ fun _ _ => rfl
  · intro _
    apply triple_bind (fun _ => (·.parentExists = true))
    · exact triple_consequence
        (keepsParents_bind (keepsParents_call _) fun _ => keepsParents_modify fun _ => rfl)
        (fun _ holds => holds) (fun _ _ holds => holds) fun _ _ _ => trivial
    · intro _
      apply triple_bind (fun _ => (·.parentExists = true))
      · exact triple_consequence (keepsParents_fillTemporary content permissions)
          (fun _ holds => holds) (fun _ _ holds => holds) fun _ _ _ => trivial
      · intro _
        apply triple_bind _ replaceDestination_tidies
        exact fun _ => triple_modify _ fun _ tidy => tidy

private theorem unlinkTemporary_tidies :
    Triple Tidy (unlinkTemporary environment) (fun _ => Tidy) fun _ _ => True := by
  apply triple_bind (fun read state => Tidy state ∧ read = state)
  · exact triple_get fun _ holds => ⟨holds, rfl⟩
  · intro read
    apply triple_ite
    · intro _
      apply triple_tryCatch (fun _ => Tidy)
      · apply triple_bind (fun _ => Tidy)
        · apply triple_ite
          · exact fun _ => triple_throw _ fun _ holds => holds.1
          · exact fun _ => triple_pure _ fun _ holds => holds.1
        · exact fun _ => triple_modify _ fun _ tidy => ⟨tidy.1, rfl⟩
      · exact fun _ => triple_pure _ fun _ tidy => tidy
    · exact fun _ => triple_pure _ fun _ holds => holds.1

private theorem writeJson_tidies :
    Triple (fun _ => True) (writeJson environment value) (fun _ => Tidy) fun _ _ => True := by
  apply triple_tryFinally (fun _ => Tidy) (fun _ _ => True)
  · exact triple_tryCatch _ exportJson_tidies fun _ => triple_throw _ fun _ _ => trivial
  · exact fun _ => unlinkTemporary_tidies
  · exact fun _ => triple_true _ _

end Calls

/-! ## What an export changes -/

section Changes

variable {host : Host} {disk : Disk} {output : Text} {value : Json} {path : Path Text}
  {place : Place Text}

theorem makeParents_eq_some {made : Disk} {parent : Place Text}
    (parents : host.makeParents disk path = some (made, parent)) :
    GrowsBy disk made ∧
      FileTree.walk made host.links (path.start host.current) path.steps.dropLast = .ok parent ∧
      IsDirectory made parent := by
  rw [Host.makeParents] at parents
  rcases Option.bind_eq_some_iff.mp parents with ⟨grown, making, reached⟩
  split at reached
  · rename_i last walked
    split_ifs at reached with directory
    cases reached
    exact ⟨makeDirectories_grows making, walked, directory⟩
  · cases reached

/-- The parents of the output lead to the same place before they are made. -/
theorem destination_resolves (named : host.destination disk path = some place) :
    ∃ name parent, place = name :: parent ∧
      ∀ found, Resolves disk (path.start host.current) path.steps found →
        Resolves disk parent [.down name] found := by
  rw [Host.destination] at named
  split at named
  · rename_i made parent name parents last
    cases named
    have grown := makeParents_eq_some parents
    have split : path.steps.dropLast ++ [.down name] = path.steps :=
      List.dropLast_append_getLast? _ last
    refine ⟨name, parent, rfl, fun found resolves => ?_⟩
    have beginning := grown.1.resolves (walks_of_walk grown.2.1)
    exact beginning.of_append (by rw [split]; exact resolves)
  · cases named

theorem install_of_ne {other : Place Text} (file : RegularFile) (different : other ≠ place) :
    host.install disk place file other = disk other :=
  Function.update_of_ne different _ _

/-- The temporary file is a new one. -/
theorem leftovers_keeps (final : FileState) {node : Node Text Inode}
    (entry : disk place = some node) : host.leftovers disk path final place = some node := by
  rw [Host.leftovers]
  cases parents : host.makeParents disk path with
  | none => exact entry
  | some both =>
      rcases both with ⟨made, parent⟩
      have grown : (if final.parentExists then made else disk) place = some node := by
        split_ifs
        · exact (makeParents_eq_some parents).1.keeps entry
        · exact entry
      simp only
      generalize (if final.parentExists then made else disk) = tree at grown ⊢
      cases final.temporary with
      | none => exact grown
      | some file =>
          simp only
          split_ifs with missing
          · have different : place ≠ host.temporaryName :: parent := by
              intro same
              rw [same, missing] at grown
              cases grown
            rw [install_of_ne file different]
            exact grown
          · exact grown

/-- The output names the place, and what is there is no longer the same. -/
def Replaced (host : Host) (output : Text) (disk later : Disk) (place : Place Text) : Prop :=
  ∃ path, host.locate output = some path ∧ host.destination disk path = some place ∧
    later place ≠ disk place

/-- Where a file was replaced, the parents were made and no directory was in the way. -/
theorem target_of_replaces (replaces : (host.exportingTo disk path).fails .replace = false) :
    ∃ made parent name, host.makeParents disk path = some (made, parent) ∧
      path.steps.getLast? = some (.down name) ∧ made (name :: parent) ≠ some .directory := by
  simp only [Host.exportingTo, Bool.or_eq_false_iff, Bool.not_eq_false'] at replaces
  have replaceable := replaces.2
  rw [Host.replaceable] at replaceable
  split at replaceable
  · rename_i made parent name parents last
    exact ⟨made, parent, name, parents, last, of_decide_eq_true replaceable⟩
  · cases replaceable

private theorem writeJsonTo_of_located (value : Json) (located : host.locate output = some path) :
    ∃ parentExists entry, writeJsonTo host disk output value =
      match writeJson (host.exportingTo disk path) value (.initial parentExists entry) with
      | .ok _ final => (.ok (), host.replaced disk path final)
      | .error _ final => (.error outputFailure, host.leftovers disk path final) := by
  rw [writeJsonTo, located]
  exact ⟨_, _, rfl⟩

/-- The export succeeded: the parents were made, and the serialized value is a new file. -/
structure Installs (host : Host) (disk : Disk) (path : Path Text) (value : Json) (later : Disk)
    (made : Disk) (parent : Place Text) (name : Text) : Prop where
  parents : host.makeParents disk path = some (made, parent)
  last : path.steps.getLast? = some (.down name)
  free : made (name :: parent) ≠ some .directory
  written : ∃ content mode, stableJson value = .ok content ∧
    later = host.install made (name :: parent) ⟨content.utf8, mode⟩

/-- An export fails at once, or it leaves parents and temporary file, or it succeeds. -/
theorem writeJsonTo_cases (host : Host) (disk : Disk) (output : Text) (value : Json) :
    (∃ failure, writeJsonTo host disk output value = (.error failure, disk)) ∨
      ∃ path, host.locate output = some path ∧
        ((∃ failure final, writeJsonTo host disk output value =
            (.error failure, host.leftovers disk path final)) ∨
          ∃ later made parent name, writeJsonTo host disk output value = (.ok (), later) ∧
            Installs host disk path value later made parent name) := by
  cases located : host.locate output with
  | none =>
      refine .inl ⟨outputFailure, ?_⟩
      rw [writeJsonTo, located]
  | some path =>
      rcases @writeJsonTo_of_located host disk output path value located with
        ⟨parentExists, entry, ended⟩
      refine .inr ⟨path, rfl, ?_⟩
      rw [ended]
      have reached := @writeJson_triple (host.exportingTo disk path) entry value parentExists _ rfl
      have tidied := @writeJson_tidies (host.exportingTo disk path) value
        (.initial parentExists entry) trivial
      cases ran : writeJson (host.exportingTo disk path) value (.initial parentExists entry) with
      | error failure final => exact .inl ⟨outputFailure, final, rfl⟩
      | ok done final =>
          rw [ran] at reached tidied
          rcases reached with ⟨⟨content, stable, exported⟩, _⟩
          rcases target_of_replaces (replaces_of_writeJson ran) with
            ⟨made, parent, name, parents, last, free⟩
          have target : host.destination disk path = some (name :: parent) := by
            rw [Host.destination, parents, last]
          have grown : host.leftovers disk path final = made := by
            rw [Host.leftovers, parents]
            simp only [tidied.1, tidied.2, if_true]
          refine .inr ⟨_, made, parent, name, rfl, parents, last, free, content,
            (host.exportingTo disk path).mode entry.exportMode, stable, ?_⟩
          rw [Host.replaced, target, exported, ← grown]

theorem Installs.named {later made : Disk} {parent : Place Text} {name : Text}
    (installs : Installs host disk path value later made parent name) :
    host.destination disk path = some (name :: parent) := by
  rw [Host.destination, installs.parents, installs.last]

theorem Installs.keeps {later made : Disk} {parent : Place Text} {name : Text}
    (installs : Installs host disk path value later made parent name)
    (other : place ≠ name :: parent)
    {node : Node Text Inode} (entry : disk place = some node) : later place = some node := by
  rcases installs.written with ⟨content, mode, _, installed⟩
  rw [installed, install_of_ne _ other]
  exact (makeParents_eq_some installs.parents).1.keeps entry

/-- An export changes no entry but the one its output names. -/
theorem writeJsonTo_keeps (host : Host) (disk : Disk) (output : Text) (value : Json) :
    KeepsExcept (Replaced host output disk (writeJsonTo host disk output value).2) disk
      (writeJsonTo host disk output value).2 := by
  intro place node kept entry
  rcases writeJsonTo_cases host disk output value with ⟨failure, same⟩ | ⟨path, located, ended⟩
  · rw [same]
    exact entry
  · rcases ended with ⟨failure, final, failed⟩ | ⟨later, made, parent, name, exported, installs⟩
    · rw [failed]
      exact leftovers_keeps final entry
    · by_cases here : place = name :: parent
      · by_contra different
        rw [← entry] at different
        exact kept ⟨path, located, here ▸ installs.named, different⟩
      · rw [exported]
        exact installs.keeps here entry

/-- What was replaced was no directory, and is now a file. -/
theorem Replaced.file (replaced : Replaced host output disk (writeJsonTo host disk output value).2
    place) {node : Node Text Inode} (entry : disk place = some node) :
    node ≠ .directory ∧
      ∃ inode, (writeJsonTo host disk output value).2 place = some (.file inode) := by
  rcases replaced with ⟨path, located, named, different⟩
  rcases writeJsonTo_cases host disk output value with ⟨failure, same⟩ | ⟨other, reached, ended⟩
  · rw [same] at different
    exact absurd rfl different
  · cases located.symm.trans reached
    rcases ended with ⟨failure, final, failed⟩ | ⟨later, made, parent, name, exported, installs⟩
    · rw [failed, entry] at different
      exact absurd (leftovers_keeps final entry) different
    · cases named.symm.trans installs.named
      rcases installs.written with ⟨content, mode, _, installed⟩
      rw [exported, installed]
      refine ⟨fun directory => ?_, _, Function.update_self _ _ _⟩
      rw [directory] at entry
      exact installs.free ((makeParents_eq_some installs.parents).1.keeps entry)

end Changes

/-! ## What the guard protects -/

section Inputs

variable {host : Host} {disk : Disk} {output raw : Text} {value : Json} {path : Path Text}
  {place : Place Text}

theorem resolvePath_eq_some {resolved : Place Text}
    (found : host.resolvePath disk raw = some resolved) :
    ∃ path, host.locate raw = some path ∧
      Resolves disk (path.start host.current) path.steps resolved := by
  rw [Host.resolvePath] at found
  split_ifs at found
  rcases Option.bind_eq_some_iff.mp found with ⟨path, located, led⟩
  exact ⟨path, located, resolves_of_resolve led⟩

/-- An output that passes the guard resolves to another place than the input. -/
theorem resolves_of_guardField (guarded : guardField host disk output raw = .ok ())
    (named : raw ≠ []) (file : raw ≠ standardInput) (located : host.locate raw = some path)
    (walked : host.walk disk path = .ok place) :
    ∃ outputPath, host.locate output = some outputPath ∧
      ∃ resolved, Resolves disk (outputPath.start host.current) outputPath.steps resolved ∧
        resolved ≠ place := by
  have compared : ¬(raw = [] ∨ raw = standardInput) := fun either => either.elim named file
  rw [guardField, if_neg compared] at guarded
  cases outputResolved : host.resolvePath disk output with
  | none =>
      rw [outputResolved] at guarded
      cases guarded
  | some resolved =>
      cases inputResolved : host.resolvePath disk raw with
      | none =>
          rw [outputResolved, inputResolved] at guarded
          cases guarded
      | some source =>
          rw [outputResolved, inputResolved, require_eq_ok_iff] at guarded
          rcases resolvePath_eq_some outputResolved with ⟨outputPath, outputLocated, resolves⟩
          rcases resolvePath_eq_some inputResolved with ⟨inputPath, inputLocated, inputResolves⟩
          cases located.symm.trans inputLocated
          have same := inputResolves.unique (walks_of_walk walked).resolves
          exact ⟨outputPath, outputLocated, resolved, resolves, same ▸ guarded.1⟩

/-- What an export has made of an input: its file is the same, and its path leads there unless it
comes past the entry that was replaced. -/
structure InputKept (host : Host) (changed : Place Text → Prop) (disk later : Disk)
    (path : Path Text) (place : Place Text) : Prop where
  entry : later place = disk place
  path : (Avoids disk changed (path.start host.current) path.steps ∧
      host.walk later path = .ok place) ∨
    (¬Avoids disk changed (path.start host.current) path.steps ∧
      host.walk later path = .error .notDirectory)

private theorem writeJsonTo_input (value : Json)
    (guarded : guardField host disk output raw = .ok ())
    (named : raw ≠ []) (file : raw ≠ standardInput) (located : host.locate raw = some path)
    (walked : host.walk disk path = .ok place) {inode : Inode}
    (entry : disk place = some (.file inode)) :
    InputKept host (Replaced host output disk (writeJsonTo host disk output value).2) disk
      (writeJsonTo host disk output value).2 path place := by
  rcases resolves_of_guardField guarded named file located walked with
    ⟨outputPath, outputLocated, resolved, resolves, different⟩
  have keeps := writeJsonTo_keeps host disk output value
  have last {changed : Place Text}
      (replaced : Replaced host output disk (writeJsonTo host disk output value).2 changed) :
      ∃ name parent, changed = name :: parent ∧ Resolves disk parent [.down name] resolved := by
    rcases replaced with ⟨other, otherLocated, namedPlace, _⟩
    cases outputLocated.symm.trans otherLocated
    rcases destination_resolves namedPlace with ⟨name, parent, same, onward⟩
    exact ⟨name, parent, same, onward resolved resolves⟩
  have kept : ¬Replaced host output disk (writeJsonTo host disk output value).2 place := by
    intro replaced
    rcases last replaced with ⟨name, parent, rfl, onward⟩
    exact different (onward.unique (Walks.file entry).resolves)
  refine ⟨(keeps _ _ kept entry).trans entry.symm, ?_⟩
  rcases walk_follows keeps walked with ⟨avoids, led⟩ | ⟨parent, name, rest, links, crossed, passes,
    walks, led⟩
  · exact .inl ⟨avoids, led⟩
  · refine .inr ⟨fun avoids => avoids parent name rest passes crossed, ?_⟩
    rcases last crossed with ⟨_, _, same, onward⟩
    cases same
    have onwardRest : rest ≠ [] := by
      rintro rfl
      exact different (onward.unique walks.resolves)
    have there : ∃ node, disk (name :: parent) = some node := by
      cases walks with
      | directory entry _ => exact ⟨_, entry⟩
      | file entry => exact ⟨_, entry⟩
      | link entry _ => exact ⟨_, entry⟩
    rcases there with ⟨node, before⟩
    rcases (crossed.file before).2 with ⟨replacement, after⟩
    rw [Host.walk, led]
    cases links with
    | zero => simp [FileTree.walk, walkSteps, after, onwardRest]
    | succ links => simp [FileTree.walk, walkSteps, after, onwardRest]

end Inputs

/-! ## Runs -/

section Runs

variable {State : Type}

theorem writeError_disk (error : Json) (process : Process State) :
    (writeError error process).2.disk = process.disk := by
  rw [writeError]
  cases streamText (.object [(text "error", error)]) <;> rfl

theorem main_help_disk (host : Host) (read : Reader State) (printed : Text)
    (process : Process State) :
    (main host read (.help printed) process).2.disk = process.disk := by
  rw [main]
  rcases printMessage_cases printed process with ⟨final, ended, shown⟩ | ⟨ended, _⟩
  · rw [ended]
    rcases shown with ⟨_, rfl⟩ | ⟨_, rfl⟩ <;> rfl
  · rw [ended]
    exact writeError_disk _ _

private theorem main_of_refused {host : Host} {read : Reader State} {arguments : Arguments}
    {process : Process State} {failure : CommandFailure}
    (refused : guardOutput host process.disk arguments = .error failure) :
    main host read (.arguments arguments) process = writeError failure.publicError process := by
  rw [main, perform, bind_get, refused]
  rfl

/-- A run leaves the disk as it is, or as one export that passed the guard leaves it. -/
theorem main_disk (host : Host) (read : Reader State) (arguments : Arguments)
    (process : Process State) :
    (main host read (.arguments arguments) process).2.disk = process.disk ∨
      guardOutput host process.disk arguments = .ok () ∧ ∃ output ∈ arguments.output, ∃ value,
        (main host read (.arguments arguments) process).2.disk =
          (writeJsonTo host process.disk output value).2 := by
  cases guarded : guardOutput host process.disk arguments with
  | error failure =>
      rw [main_of_refused guarded, writeError_disk]
      exact .inl rfl
  | ok done =>
      have exported {disk : Disk} {result : Json}
          (same : disk = exportedDisk host process.disk arguments result) :
          disk = process.disk ∨ (Except.ok done : Except CommandFailure Unit) = .ok () ∧
            ∃ output ∈ arguments.output, ∃ value,
              disk = (writeJsonTo host process.disk output value).2 := by
        rw [exportedDisk] at same
        cases given : arguments.output with
        | none =>
            rw [given] at same
            exact .inl same
        | some output =>
            rw [given] at same
            exact .inr ⟨rfl, output, rfl, result, same⟩
      have reached := @perform_triple _ host read arguments process process rfl
      cases performed : perform host read arguments process with
      | ok returned final =>
          rw [performed] at reached
          rcases reached with ⟨inputs, result, rfl, completes⟩
          rcases main_of_result performed completes.ran.applied with ⟨status, _, ended, _⟩
          rw [ended]
          exact exported completes.disk
      | error interrupt final =>
          rw [performed] at reached
          rw [main_of_error performed reached.1]
          rcases reached.2.1 with ⟨same, _⟩ | ⟨inputs, result, _, same, _⟩
          · exact .inl same
          · exact exported same

/-- Every input is compared with the output. -/
theorem Command.mem_guardedFields {command : Command} {field : Field}
    (member : field ∈ command.fields) : field ∈ command.guardedFields := by
  cases command with
  | table operation => exact member
  | _ =>
      revert member
      cases field <;> decide

private theorem guardField_of_guardOutput {host : Host} {disk : Disk} {arguments : Arguments}
    {output : Text} (guarded : guardOutput host disk arguments = .ok ())
    (given : arguments.output = some output) {field : Field}
    (member : field ∈ arguments.command.fields) :
    guardField host disk output (arguments.path field) = .ok () := by
  rw [guardOutput, given] at guarded
  simp only [bind_eq_ok_iff] at guarded
  rcases guarded with ⟨_, _, _, _, checked, each, _⟩
  rcases List.forall₂_iff_get.mp (forEach_eq_ok_iff.mp each) with ⟨length, guards⟩
  rcases List.get_of_mem (Command.mem_guardedFields member) with ⟨index, rfl⟩
  exact guards index index.isLt (length ▸ index.isLt)

/-- The place where a run has replaced what its output names. -/
def ReplacedBy (host : Host) (arguments : Arguments) (before after : Disk) (place : Place Text) :
    Prop :=
  ∃ output ∈ arguments.output, Replaced host output before after place

theorem replacedBy_eq {host : Host} {arguments : Arguments} {output : Text}
    (given : arguments.output = some output) :
    ReplacedBy host arguments = Replaced host output := by
  funext before after place
  refine propext ⟨fun replaced => ?_, fun replaced => ⟨output, given, replaced⟩⟩
  rcases replaced with ⟨other, otherGiven, replaced⟩
  cases given.symm.trans otherGiven
  exact replaced

/-- A run keeps every entry but the one its output names. -/
theorem main_keeps (host : Host) (read : Reader State) (arguments : Arguments)
    (process : Process State) :
    let later := (main host read (.arguments arguments) process).2.disk
    KeepsExcept (ReplacedBy host arguments process.disk later) process.disk later := by
  intro later
  rcases main_disk host read arguments process with same | ⟨_, output, given, value, same⟩
  · intro place node _ entry
    exact (congrFun same place).trans entry
  · have keeps := writeJsonTo_keeps host process.disk output value
    rw [← same] at keeps
    rwa [replacedBy_eq given]

/-- No run overwrites an input. Every entry is kept but the one its output names, the file of an
input stays as it was, and the path of the input leads there exactly if it does not come past the
replaced entry. -/
theorem main_keeps_inputs (host : Host) (read : Reader State) (arguments : Arguments)
    (process : Process State) {field : Field} {path : Path Text} {place : Place Text}
    {inode : Inode} (member : field ∈ arguments.command.fields)
    (named : arguments.path field ≠ []) (file : arguments.path field ≠ standardInput)
    (located : host.locate (arguments.path field) = some path)
    (walked : host.walk process.disk path = .ok place)
    (entry : process.disk place = some (.file inode)) :
    let later := (main host read (.arguments arguments) process).2.disk
    KeepsExcept (ReplacedBy host arguments process.disk later) process.disk later ∧
      InputKept host (ReplacedBy host arguments process.disk later) process.disk later path
        place := by
  intro later
  refine ⟨main_keeps host read arguments process, ?_⟩
  rcases main_disk host read arguments process with same | ⟨guarded, output, given, value, same⟩
  · have unchanged (place : Place Text) : ¬ReplacedBy host arguments process.disk later place := by
      rintro ⟨_, _, _, _, _, different⟩
      exact different (congrFun same place)
    refine ⟨congrFun same place, .inl ⟨fun _ _ _ _ => unchanged _, ?_⟩⟩
    exact (congrArg (host.walk · path) same).trans walked
  · have input := writeJsonTo_input value (guardField_of_guardOutput guarded given member) named
      file located walked entry
    rw [← same] at input
    rw [replacedBy_eq given]
    exact input

end Runs

/-- The path a text names below `/`. -/
def posixPath (raw : Text) : Option (Path Text) :=
  if raw.any fun point => point.val = 0 then none
  else
    let segments := (raw.splitOn solidus).filter fun segment => segment ≠ [] ∧ segment ≠ text "."
    some ⟨raw.head? = some solidus,
      segments.map fun segment => if segment = text ".." then .up else .down segment⟩

def quietHost : Host where
  locate := posixPath
  current := []
  links := 40
  resolveLinks := 1000
  unreadable := fun _ => false
  unresolvable := fun _ => false
  isSpace := fun point => point = space
  category := fun _ => text "Ll"
  recursion := 1000
  exporting := ⟨fun _ => false, fun _ => [], true⟩
  newNumber := 9
  temporaryName := text "tmp"

/-- Here the output is a link to the directory in which the input is. -/
def linkedDisk : Disk := fun place =>
  if place = [text "inputs"] then some .directory
  else if place = [text "policy.json", text "inputs"] then some (.file ⟨1, [], 0o600⟩)
  else if place = [text "latest"] then some (.link ⟨false, [.down (text "inputs")]⟩)
  else none

def validateLatest : Arguments :=
  ⟨.validatePolicy, fun _ => text "latest/policy.json", some (text "latest"), false, false,
    by decide, by decide⟩

theorem main_keeps_inputs_latest :
    let process : Process Unit := ⟨linkedDisk, none, ⟨.whole, []⟩, ⟨.whole, []⟩⟩
    let later := (main quietHost (fun state _ => (.osError, state)) (.arguments validateLatest)
      process).2.disk
    KeepsExcept (ReplacedBy quietHost validateLatest linkedDisk later) linkedDisk later ∧
      InputKept quietHost (ReplacedBy quietHost validateLatest linkedDisk later) linkedDisk later
        ⟨false, [.down (text "latest"), .down (text "policy.json")]⟩
        [text "policy.json", text "inputs"] := by
  intro process later
  have entry : linkedDisk [text "policy.json", text "inputs"] = some (.file ⟨1, [], 0o600⟩) := by
    decide +kernel
  exact main_keeps_inputs quietHost _ validateLatest process
    (show Field.policy ∈ validateLatest.command.fields by decide) (by decide) (by decide) rfl
    (by decide +kernel) entry

end AgentTestbench

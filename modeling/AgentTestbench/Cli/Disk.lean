import AgentTestbench.Foundation.FileTree
import AgentTestbench.Json.Stream
import AgentTestbench.WriteJson
import AgentTestbench.Cli.Failure

/-! # Files of a command

What loading an input reads, what the guard of the output compares, and what `write_json` leaves,
on a tree of files with symbolic and hard links.
-/

namespace AgentTestbench

open FileTree Fallible

/-- A file; its number is what `samefile` compares. -/
structure Inode where
  number : Nat
  file : RegularFile
  deriving DecidableEq

abbrev Disk := Tree Text Inode

/-- What the interpreter and the operating system decide. `locate` reads a path, unless it raises
`ValueError`; `unreadable` and `unresolvable` say where opening or resolving fails with
`OSError`. The system follows so many `links` of a path; `resolve` follows them itself, and has a
bound of its own. -/
structure Host where
  locate : Text → Option (Path Text)
  current : Place Text
  links : Nat
  resolveLinks : Nat
  unreadable : Inode → Bool
  unresolvable : Text → Bool
  isSpace : CodePoint → Bool
  category : CodePoint → Text
  recursion : Nat
  exporting : Environment
  newNumber : Nat
  temporaryName : Text

/-- What stops a command: a controlled error, or an exception that `main` reports as invalid
data. -/
inductive Interrupt where
  | controlled (failure : CommandFailure)
  | invalidData
  deriving DecidableEq

def standardInput : Text := text "-"

/-! ## Loading -/

inductive Identity where
  | file (number : Nat)
  | directory (place : Place Text)
  deriving DecidableEq

section Paths

variable (host : Host) (disk : Disk)

def Host.walk (path : Path Text) : Except Stop (Place Text) :=
  FileTree.walk disk host.links (path.start host.current) path.steps

/-- The file a path leads to. -/
def Host.open? (path : Path Text) : Option Inode :=
  match host.walk disk path with
  | .error _ => none
  | .ok place =>
      match disk place with
      | some (.file inode) => some inode
      | _ => none

/-- The bytes that reading a path gives. -/
def Host.readFile (path : Path Text) : Option (List (BitVec 8)) :=
  match host.open? disk path with
  | none => none
  | some inode => if host.unreadable inode then none else some inode.file.content

/-- A file hands out all that is asked for. -/
def fileReader : Reader (List (BitVec 8)) :=
  shortReadStream binaryStream (maxJsonInputBytes + 1)

/-- `load_json`. -/
def loadJson (raw : Text) : Except Interrupt Json :=
  match host.locate raw with
  | none => .error .invalidData
  | some path =>
      match host.readFile disk path with
      | none => .error (.controlled (.library readFailure))
      | some content => (loadJsonStream host.recursion fileReader content).1.mapError fun failure =>
          .controlled (.library failure)

/-! ## The guard -/

/-- `_is_blank_path`. -/
def Host.isBlankPath (value : Text) : Bool :=
  value.all host.isSpace ||
    value.all fun point => (host.category point).head? ∈ (text "CZ").map some

/-- `Path(raw).resolve()`. -/
def Host.resolvePath (raw : Text) : Option (Place Text) :=
  if host.unresolvable raw then none
  else (host.locate raw).bind fun path =>
    FileTree.resolve disk host.resolveLinks (path.start host.current) path.steps

/-- What `stat` finds, where the path exists. -/
def Host.identify (raw : Text) : Option Identity :=
  (host.locate raw).bind fun path =>
    match host.walk disk path with
    | .error _ => none
    | .ok place =>
        match disk place with
        | some (.file inode) => some (.file inode.number)
        | _ => some (.directory place)

def overwriteFailure : CommandFailure :=
  .usage (text "Output must not overwrite a command input.")

def unresolvedFailure : CommandFailure :=
  .usage (text "Output destination could not be safely resolved.")

def blankOutputFailure : CommandFailure :=
  .usage (text "--output writes a file and does not accept an empty path or '-'.")

def syntheticOutputFailure : CommandFailure :=
  .usage (text "generate-synthetic --output writes a file and does not accept '-'.")

/-- One round of the loop of `_guard_output`. -/
def guardField (output raw : Text) : Except CommandFailure Unit :=
  if raw = [] ∨ raw = standardInput then .ok ()
  else
    match host.resolvePath disk output, host.resolvePath disk raw with
    | some destination, some source =>
        require (destination ≠ source ∧
          ((host.identify disk output).isSome → host.identify disk output ≠ host.identify disk raw))
          overwriteFailure
    | _, _ => .error unresolvedFailure

/-! ## Exports -/

/-- What `lstat` finds at a place; the target of a link is not asked for. -/
def entryAt (place : Place Text) : Entry :=
  match disk place with
  | none => .absent
  | some (.file inode) => .regular inode.file
  | some .directory => .directory
  | some (.link _) => .symbolicLink []

/-- The entry at a path, or `none` where `lstat` fails otherwise than with `FileNotFoundError`. A
path without a last name is a directory. -/
def Host.lstat (path : Path Text) : Option Entry :=
  match path.steps.getLast? with
  | some (.down name) =>
      match host.walk disk ⟨path.absolute, path.steps.dropLast⟩ with
      | .ok place => if IsDirectory disk place then some (entryAt disk (name :: place)) else none
      | .error .missing => some .absent
      | .error _ => none
  | _ => some .directory

/-- The tree with the parents of a path, and the place of its last parent. -/
def Host.makeParents (path : Path Text) : Option (Disk × Place Text) :=
  let start := path.start host.current
  let parents := path.steps.dropLast
  (makeDirectories host.links disk start parents).bind fun made =>
    match FileTree.walk made host.links start parents with
    | .ok place => if IsDirectory made place then some (made, place) else none
    | .error _ => none

/-- The place that `os.replace` changes, once the parents are made. -/
def Host.destination (path : Path Text) : Option (Place Text) :=
  match host.makeParents disk path, path.steps.getLast? with
  | some (_, parent), some (.down name) => some (name :: parent)
  | _, _ => none

/-- A file can replace what is there. -/
def Host.replaceable (path : Path Text) : Bool :=
  match host.makeParents disk path, path.steps.getLast? with
  | some (made, parent), some (.down name) => made (name :: parent) ≠ some .directory
  | _, _ => false

/-- The calls of `write_json` on a path also fail where the tree is in the way. -/
def Host.exportingTo (path : Path Text) : Environment :=
  { host.exporting with
    fails := fun name => host.exporting.fails name ||
      match name with
      | .lstat => (host.lstat disk path).isNone
      | .mkdir => (host.makeParents disk path).isNone
      | .replace => !host.replaceable disk path
      | _ => false }

/-- A new file at a place. -/
def Host.install (place : Place Text) (file : RegularFile) : Disk :=
  Function.update disk place (some (.file ⟨host.newNumber, file⟩))

/-- The tree with the parents that `write_json` made, and a temporary file that could not be
removed. -/
def Host.leftovers (path : Path Text) (final : FileState) : Disk :=
  match host.makeParents disk path with
  | none => disk
  | some (made, parent) =>
      let grown := if final.parentExists then made else disk
      match final.temporary with
      | some file =>
          if grown (host.temporaryName :: parent) = none then
            host.install grown (host.temporaryName :: parent) file
          else grown
      | none => grown

/-- The tree with the new destination. -/
def Host.replaced (path : Path Text) (final : FileState) : Disk :=
  match host.destination disk path, final.destination with
  | some place, .regular file => host.install (host.leftovers disk path final) place file
  | _, _ => host.leftovers disk path final

def outputFailure : CommandFailure :=
  .output outputMessage

/-- `write_json(output, value)`. -/
def writeJsonTo (output : Text) (value : Json) : Except CommandFailure Unit × Disk :=
  match host.locate output with
  | none => (.error outputFailure, disk)
  | some path =>
      let entry := (host.lstat disk path).getD .absent
      let parentExists := match host.walk disk ⟨path.absolute, path.steps.dropLast⟩ with
        | .ok _ => true
        | .error _ => false
      match writeJson (host.exportingTo disk path) value (.initial parentExists entry) with
      | .ok _ final => (.ok (), host.replaced disk path final)
      | .error _ final => (.error outputFailure, host.leftovers disk path final)

end Paths

end AgentTestbench

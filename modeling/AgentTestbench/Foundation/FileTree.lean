import Mathlib

/-! # Trees of files with links

Places are named from the root. A directory entry is a file, a directory, or a link to another
path, and several entries may be the same file. The kernel walks a path strictly; a path may also
be resolved without looking at what is missing.
-/

namespace FileTree

/-- A place is the list of its names, the last one first. -/
abbrev Place (Name : Type) := List Name

inductive Step (Name : Type) where
  | down (name : Name)
  | up
  deriving DecidableEq

structure Path (Name : Type) where
  absolute : Bool
  steps : List (Step Name)
  deriving DecidableEq

/-- What an entry of a directory is; `identity` says which file. -/
inductive Node (Name : Type) (File : Type) where
  | file (identity : File)
  | directory
  | link (target : Path Name)
  deriving DecidableEq

/-- The entry at each place below the root. -/
abbrev Tree (Name : Type) (File : Type) := Place Name → Option (Node Name File)

inductive Stop where
  | missing
  | notDirectory
  | links
  deriving DecidableEq

variable {Name File : Type}

/-- Where a path starts that is read at a place. -/
def Path.start (path : Path Name) (current : Place Name) : Place Name :=
  if path.absolute then [] else current

section Walks

variable (tree : Tree Name File)

/-- The walk up to the next link, which `follow` walks on. -/
def walkSteps (follow : Place Name → List (Step Name) → Except Stop (Place Name)) :
    Place Name → List (Step Name) → Except Stop (Place Name)
  | current, [] => .ok current
  | current, .up :: rest => walkSteps follow current.tail rest
  | current, .down name :: rest =>
      match tree (name :: current) with
      | none => .error .missing
      | some .directory => walkSteps follow (name :: current) rest
      | some (.file _) => if rest.isEmpty then .ok (name :: current) else .error .notDirectory
      | some (.link target) => follow (target.start current) (target.steps ++ rest)

/-- The place a path leads to, through at most so many links. -/
def walk : Nat → Place Name → List (Step Name) → Except Stop (Place Name)
  | 0 => walkSteps tree fun _ _ => .error .links
  | links + 1 => walkSteps tree (walk links)

/-- As `walkSteps`, but what is missing is named all the same. -/
def resolveSteps (follow : Place Name → List (Step Name) → Option (Place Name)) :
    Place Name → List (Step Name) → Option (Place Name)
  | current, [] => some current
  | current, .up :: rest => resolveSteps follow current.tail rest
  | current, .down name :: rest =>
      match tree (name :: current) with
      | some (.link target) => follow (target.start current) (target.steps ++ rest)
      | _ => resolveSteps follow (name :: current) rest

/-- The place a path would lead to, or `none` after too many links. -/
def resolve : Nat → Place Name → List (Step Name) → Option (Place Name)
  | 0 => resolveSteps tree fun _ _ => none
  | links + 1 => resolveSteps tree (resolve links)

/-! ## Walks as relations -/

/-- The walk succeeds. -/
inductive Walks : Place Name → List (Step Name) → Place Name → Prop where
  | done (current : Place Name) : Walks current [] current
  | up {current found : Place Name} {rest : List (Step Name)} :
      Walks current.tail rest found → Walks current (.up :: rest) found
  | directory {current found : Place Name} {name : Name} {rest : List (Step Name)} :
      tree (name :: current) = some .directory → Walks (name :: current) rest found →
      Walks current (.down name :: rest) found
  | file {current : Place Name} {name : Name} {identity : File} :
      tree (name :: current) = some (.file identity) →
      Walks current [.down name] (name :: current)
  | link {current found : Place Name} {name : Name} {target : Path Name}
      {rest : List (Step Name)} :
      tree (name :: current) = some (.link target) →
      Walks (target.start current) (target.steps ++ rest) found →
      Walks current (.down name :: rest) found

/-- The path resolves. -/
inductive Resolves : Place Name → List (Step Name) → Place Name → Prop where
  | done (current : Place Name) : Resolves current [] current
  | up {current found : Place Name} {rest : List (Step Name)} :
      Resolves current.tail rest found → Resolves current (.up :: rest) found
  | down {current found : Place Name} {name : Name} {rest : List (Step Name)} :
      (∀ target, tree (name :: current) ≠ some (.link target)) →
      Resolves (name :: current) rest found → Resolves current (.down name :: rest) found
  | link {current found : Place Name} {name : Name} {target : Path Name}
      {rest : List (Step Name)} :
      tree (name :: current) = some (.link target) →
      Resolves (target.start current) (target.steps ++ rest) found →
      Resolves current (.down name :: rest) found

end Walks

section Laws

variable {tree : Tree Name File} {current found other : Place Name} {steps rest : List (Step Name)}

theorem walks_of_walkSteps
    {follow : Place Name → List (Step Name) → Except Stop (Place Name)}
    (followed : ∀ current steps, follow current steps = .ok found → Walks tree current steps found)
    (walked : walkSteps tree follow current steps = .ok found) :
    Walks tree current steps found := by
  induction steps generalizing current with
  | nil =>
      cases walked
      exact .done found
  | cons step rest induction =>
      cases step with
      | up => exact .up (induction walked)
      | down name =>
          rw [walkSteps] at walked
          cases entry : tree (name :: current) with
          | none =>
              rw [entry] at walked
              cases walked
          | some node =>
              rw [entry] at walked
              cases node with
              | directory => exact .directory entry (induction walked)
              | link target => exact .link entry (followed _ _ walked)
              | file identity =>
                  cases rest with
                  | nil =>
                      cases walked
                      exact .file entry
                  | cons step rest => cases walked

theorem walks_of_walk {links : Nat} (walked : walk tree links current steps = .ok found) :
    Walks tree current steps found := by
  induction links generalizing current steps with
  | zero => exact walks_of_walkSteps (fun _ _ failed => by cases failed) walked
  | succ links induction => exact walks_of_walkSteps (fun _ _ => induction) walked

theorem resolves_of_resolveSteps {follow : Place Name → List (Step Name) → Option (Place Name)}
    (followed : ∀ current steps, follow current steps = some found →
      Resolves tree current steps found)
    (resolved : resolveSteps tree follow current steps = some found) :
    Resolves tree current steps found := by
  induction steps generalizing current with
  | nil =>
      cases resolved
      exact .done found
  | cons step rest induction =>
      cases step with
      | up => exact .up (induction resolved)
      | down name =>
          rw [resolveSteps] at resolved
          split at resolved
          · rename_i target entry
            exact .link entry (followed _ _ resolved)
          · rename_i notLink
            exact .down notLink (induction resolved)

theorem resolves_of_resolve {links : Nat}
    (resolved : resolve tree links current steps = some found) :
    Resolves tree current steps found := by
  induction links generalizing current steps with
  | zero => exact resolves_of_resolveSteps (fun _ _ failed => by cases failed) resolved
  | succ links induction => exact resolves_of_resolveSteps (fun _ _ => induction) resolved

/-- A path that leads somewhere resolves to that place. -/
theorem Walks.resolves (walks : Walks tree current steps found) :
    Resolves tree current steps found := by
  induction walks with
  | done current => exact .done current
  | up _ induction => exact .up induction
  | directory entry _ induction =>
      exact .down (fun target link => by cases entry.symm.trans link) induction
  | file entry => exact .down (fun target link => by cases entry.symm.trans link) (.done _)
  | link entry _ induction => exact .link entry induction

/-- A path resolves to one place only. -/
theorem Resolves.unique (first : Resolves tree current steps found)
    (second : Resolves tree current steps other) : found = other := by
  induction first with
  | done current =>
      cases second
      rfl
  | up _ induction =>
      cases second with
      | up second => exact induction second
  | down notLink _ induction =>
      cases second with
      | down _ second => exact induction second
      | link entry _ => exact absurd entry (notLink _)
  | link entry _ induction =>
      cases second with
      | down notLink _ => exact absurd entry (notLink _)
      | link otherEntry second =>
          cases entry.symm.trans otherEntry
          exact induction second

/-- The rest of a path is resolved where its beginning leads. -/
theorem Resolves.of_append {middle : Place Name} (first : Resolves tree current steps middle)
    (all : Resolves tree current (steps ++ rest) found) : Resolves tree middle rest found := by
  induction first with
  | done current => exact all
  | up _ induction =>
      cases all with
      | up all => exact induction all
  | down notLink _ induction =>
      cases all with
      | down _ all => exact induction all
      | link entry _ => exact absurd entry (notLink _)
  | link entry _ induction =>
      cases all with
      | down notLink _ => exact absurd entry (notLink _)
      | link otherEntry all =>
          cases entry.symm.trans otherEntry
          exact induction (by rw [List.append_assoc]; exact all)

end Laws

/-! ## Changes of a tree -/

section Changes

variable {earlier later : Tree Name File} {current found : Place Name} {steps : List (Step Name)}

/-- The walk comes to an entry, with `rest` to go after it. -/
inductive Passes (tree : Tree Name File) :
    Place Name → List (Step Name) → Place Name → Name → List (Step Name) → Prop where
  | here {current : Place Name} {name : Name} {rest : List (Step Name)} :
      Passes tree current (.down name :: rest) current name rest
  | up {current parent : Place Name} {steps rest : List (Step Name)} {name : Name} :
      Passes tree current.tail steps parent name rest →
      Passes tree current (.up :: steps) parent name rest
  | directory {current parent : Place Name} {steps rest : List (Step Name)} {first name : Name} :
      tree (first :: current) = some .directory →
      Passes tree (first :: current) steps parent name rest →
      Passes tree current (.down first :: steps) parent name rest
  | link {current parent : Place Name} {steps rest : List (Step Name)} {first name : Name}
      {target : Path Name} :
      tree (first :: current) = some (.link target) →
      Passes tree (target.start current) (target.steps ++ steps) parent name rest →
      Passes tree current (.down first :: steps) parent name rest

/-- The walk comes to no entry that `changed` names. -/
def Avoids (tree : Tree Name File) (changed : Place Name → Prop) (current : Place Name)
    (steps : List (Step Name)) : Prop :=
  ∀ parent name rest, Passes tree current steps parent name rest → ¬changed (name :: parent)

/-- Every entry that `changed` does not name is kept. -/
def KeepsExcept (changed : Place Name → Prop) (earlier later : Tree Name File) : Prop :=
  ∀ place node, ¬changed place → earlier place = some node → later place = some node

/-- The walk leads to the same place, or it comes to an entry that `changed` names and goes on
from there in the later tree. -/
def Follows (earlier later : Tree Name File) (changed : Place Name → Prop) (current : Place Name)
    (steps : List (Step Name)) (found : Place Name) (walked : Except Stop (Place Name)) : Prop :=
  (Avoids earlier changed current steps ∧ walked = .ok found) ∨
    ∃ parent name rest links, changed (name :: parent) ∧
      Passes earlier current steps parent name rest ∧
      Walks earlier parent (.down name :: rest) found ∧
      walked = walk later links parent (.down name :: rest)

section Following

variable {changed : Place Name → Prop} {walked : Except Stop (Place Name)}

theorem Follows.up (follows : Follows earlier later changed current.tail steps found walked) :
    Follows earlier later changed current (.up :: steps) found walked := by
  rcases follows with ⟨avoids, led⟩ | ⟨parent, name, rest, links, named, passes, onward⟩
  · refine .inl ⟨fun parent name rest passes => ?_, led⟩
    cases passes with
    | up passes => exact avoids parent name rest passes
  · exact .inr ⟨parent, name, rest, links, named, .up passes, onward⟩

theorem Follows.directory {first : Name} (entry : earlier (first :: current) = some .directory)
    (kept : ¬changed (first :: current))
    (follows : Follows earlier later changed (first :: current) steps found walked) :
    Follows earlier later changed current (.down first :: steps) found walked := by
  rcases follows with ⟨avoids, led⟩ | ⟨parent, name, rest, links, named, passes, onward⟩
  · refine .inl ⟨fun parent name rest passes => ?_, led⟩
    cases passes with
    | here => exact kept
    | directory _ passes => exact avoids parent name rest passes
    | link other _ => cases entry.symm.trans other
  · exact .inr ⟨parent, name, rest, links, named, .directory entry passes, onward⟩

theorem Follows.link {first : Name} {target : Path Name}
    (entry : earlier (first :: current) = some (.link target))
    (kept : ¬changed (first :: current))
    (follows : Follows earlier later changed (target.start current) (target.steps ++ steps) found
      walked) :
    Follows earlier later changed current (.down first :: steps) found walked := by
  rcases follows with ⟨avoids, led⟩ | ⟨parent, name, rest, links, named, passes, onward⟩
  · refine .inl ⟨fun parent name rest passes => ?_, led⟩
    cases passes with
    | here => exact kept
    | directory other _ => cases entry.symm.trans other
    | link other passes =>
        cases entry.symm.trans other
        exact avoids parent name rest passes
  · exact .inr ⟨parent, name, rest, links, named, .link entry passes, onward⟩

theorem walkSteps_follows {links : Nat}
    {follow : Place Name → List (Step Name) → Except Stop (Place Name)}
    {followLater : Place Name → List (Step Name) → Except Stop (Place Name)}
    (keeps : KeepsExcept changed earlier later)
    (bounded : walk later links = walkSteps later followLater)
    (sound : ∀ current steps, follow current steps = .ok found →
      Walks earlier current steps found)
    (followed : ∀ current steps, follow current steps = .ok found →
      Follows earlier later changed current steps found (followLater current steps))
    (walked : walkSteps earlier follow current steps = .ok found) :
    Follows earlier later changed current steps found (walk later links current steps) := by
  induction steps generalizing current with
  | nil =>
      refine .inl ⟨fun parent name rest passes => ?_, ?_⟩
      · cases passes
      · rw [bounded]
        exact walked
  | cons step rest induction =>
      cases step with
      | up =>
          have onward := induction walked
          rw [bounded] at onward ⊢
          exact onward.up
      | down name =>
          by_cases crossed : changed (name :: current)
          · exact .inr ⟨current, name, rest, links, crossed, .here,
              walks_of_walkSteps sound walked, rfl⟩
          · rw [walkSteps] at walked
            cases entry : earlier (name :: current) with
            | none =>
                rw [entry] at walked
                cases walked
            | some node =>
                have same := keeps _ node crossed entry
                rw [bounded, walkSteps, same]
                rw [entry] at walked
                cases node with
                | directory =>
                    have onward := induction walked
                    rw [bounded] at onward
                    exact onward.directory entry crossed
                | link target => exact (followed _ _ walked).link entry crossed
                | file identity =>
                    refine .inl ⟨fun parent other later passes => ?_, walked⟩
                    cases passes with
                    | here => exact crossed
                    | directory other _ => cases entry.symm.trans other
                    | link other _ => cases entry.symm.trans other

/-- Where the entries on the way are kept, a path leads to the same place. -/
theorem walk_follows {links : Nat} (keeps : KeepsExcept changed earlier later)
    (walked : walk earlier links current steps = .ok found) :
    Follows earlier later changed current steps found (walk later links current steps) := by
  induction links generalizing current steps with
  | zero =>
      apply walkSteps_follows keeps rfl _ _ walked <;>
        (intro current steps failed; cases failed)
  | succ links induction =>
      exact walkSteps_follows keeps rfl (fun _ _ => walks_of_walk) (fun _ _ => induction) walked

theorem walk_of_avoids {links : Nat} (keeps : KeepsExcept changed earlier later)
    (avoids : Avoids earlier changed current steps)
    (walked : walk earlier links current steps = .ok found) :
    walk later links current steps = .ok found := by
  rcases walk_follows keeps walked with ⟨_, led⟩ | ⟨parent, name, rest, _, named, passes, _⟩
  · exact led
  · exact absurd named (avoids parent name rest passes)

end Following

/-- Only directories were added. -/
def GrowsBy (earlier later : Tree Name File) : Prop :=
  ∀ place, later place = earlier place ∨
    (earlier place = none ∧ later place = some .directory)

theorem GrowsBy.refl (tree : Tree Name File) : GrowsBy tree tree :=
  fun _ => .inl rfl

theorem GrowsBy.trans {middle : Tree Name File} (first : GrowsBy earlier middle)
    (second : GrowsBy middle later) : GrowsBy earlier later := by
  intro place
  rcases first place with same | ⟨missing, directory⟩
  · rw [← same]
    exact second place
  · rcases second place with same | ⟨vacant, _⟩
    · exact .inr ⟨missing, same.trans directory⟩
    · cases directory.symm.trans vacant

theorem GrowsBy.keeps (grows : GrowsBy earlier later) {place : Place Name}
    {node : Node Name File} (entry : earlier place = some node) : later place = some node := by
  rcases grows place with same | ⟨missing, _⟩
  · exact same.trans entry
  · cases missing.symm.trans entry

/-- A path through new directories resolved to the same place before they were made. -/
theorem GrowsBy.resolves (grows : GrowsBy earlier later) (walks : Walks later current steps found) :
    Resolves earlier current steps found := by
  have before {place : Place Name} {node : Node Name File} (entry : later place = some node)
      (notDirectory : node ≠ .directory) : earlier place = some node := by
    rcases grows place with same | ⟨_, directory⟩
    · exact same.symm.trans entry
    · cases entry.symm.trans directory
      exact absurd rfl notDirectory
  have notLink {place : Place Name} {node : Node Name File} (entry : later place = some node)
      (other : ∀ target, node ≠ .link target) (target : Path Name) :
      earlier place ≠ some (.link target) := by
    intro link
    cases entry.symm.trans (grows.keeps link)
    exact other target rfl
  induction walks with
  | done current => exact .done current
  | up _ induction => exact .up induction
  | directory entry _ induction => exact .down (notLink entry fun _ => by simp) induction
  | file entry => exact .down (notLink entry fun _ => by simp) (.done _)
  | link entry _ induction => exact .link (before entry (by simp)) induction

/-- The place is a directory. -/
def IsDirectory (tree : Tree Name File) (place : Place Name) : Prop :=
  place = [] ∨ tree place = some .directory

instance [DecidableEq Name] [DecidableEq File] (tree : Tree Name File) (place : Place Name) :
    Decidable (IsDirectory tree place) :=
  inferInstanceAs (Decidable (_ ∨ _))

theorem walkSteps_append_file {tree : Tree Name File} {middle : Place Name} {name : Name}
    {identity : File} {follow : Place Name → List (Step Name) → Except Stop (Place Name)}
    (followed : ∀ current steps, follow current steps = .ok middle →
      follow current (steps ++ [.down name]) = .ok (name :: middle))
    (directory : IsDirectory tree middle)
    (entry : tree (name :: middle) = some (.file identity))
    (walked : walkSteps tree follow current steps = .ok middle) :
    walkSteps tree follow current (steps ++ [.down name]) = .ok (name :: middle) := by
  induction steps generalizing current with
  | nil =>
      cases walked
      rw [List.nil_append, walkSteps, entry]
      rfl
  | cons step rest induction =>
      cases step with
      | up => exact induction walked
      | down first =>
          rw [List.cons_append]
          rw [walkSteps] at walked ⊢
          cases found : tree (first :: current) with
          | none =>
              rw [found] at walked
              cases walked
          | some node =>
              rw [found] at walked
              cases node with
              | directory => exact induction walked
              | link target =>
                  simp only
                  rw [← List.append_assoc]
                  exact followed _ _ walked
              | file other =>
                  simp only at walked
                  split_ifs at walked
                  cases walked
                  rcases directory with root | directory
                  · cases root
                  · cases found.symm.trans directory

/-- A file of a directory is found below the path of the directory. -/
theorem walk_append_file {tree : Tree Name File} {middle : Place Name} {name : Name}
    {identity : File} {links : Nat} (directory : IsDirectory tree middle)
    (entry : tree (name :: middle) = some (.file identity))
    (walked : walk tree links current steps = .ok middle) :
    walk tree links current (steps ++ [.down name]) = .ok (name :: middle) := by
  induction links generalizing current steps with
  | zero =>
      exact walkSteps_append_file (fun _ _ failed => by cases failed) directory entry walked
  | succ links induction =>
      exact walkSteps_append_file (fun _ _ => induction) directory entry walked

/-- Make the missing directories of a path, unless a file or a link to no directory is in the
way. -/
def makeDirectories [DecidableEq Name] [DecidableEq File] (links : Nat) :
    Tree Name File → Place Name → List (Step Name) → Option (Tree Name File)
  | tree, _, [] => some tree
  | tree, current, .up :: rest => makeDirectories links tree current.tail rest
  | tree, current, .down name :: rest =>
      match tree (name :: current) with
      | none =>
          makeDirectories links (Function.update tree (name :: current) (some .directory))
            (name :: current) rest
      | some .directory => makeDirectories links tree (name :: current) rest
      | some (.file _) => none
      | some (.link target) =>
          match walk tree links (target.start current) target.steps with
          | .ok place =>
              if IsDirectory tree place then makeDirectories links tree place rest else none
          | .error _ => none

theorem makeDirectories_grows [DecidableEq Name] [DecidableEq File] {links : Nat}
    {earlier later : Tree Name File} {current : Place Name} {steps : List (Step Name)}
    (made : makeDirectories links earlier current steps = some later) : GrowsBy earlier later := by
  induction steps generalizing earlier current with
  | nil =>
      cases made
      exact .refl _
  | cons step rest induction =>
      cases step with
      | up => exact induction made
      | down name =>
          rw [makeDirectories] at made
          split at made
          · rename_i missing
            refine GrowsBy.trans (fun place => ?_) (induction made)
            by_cases here : place = name :: current
            · rw [here, Function.update_self]
              exact .inr ⟨missing, rfl⟩
            · rw [Function.update_of_ne here]
              exact .inl rfl
          · exact induction made
          · cases made
          · split at made
            · split_ifs at made
              exact induction made
            · cases made

end Changes

end FileTree

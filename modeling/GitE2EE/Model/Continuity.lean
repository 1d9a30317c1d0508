import GitE2EE.Model.Manifest

/-!
# The continuity floor

One file per machine and repository root. It names the newest head this machine
accepted, and only this code writes it. Every operation holds its lock from the
read to the last write, so the file is a plain part of the state here.

Any access can fail. A write that fails may have replaced the file (the rename
happened, a later sync did not) or not; which one is decided by `faults`.
-/

namespace GitE2EE

open Wire Effect

def FLOOR_FORMAT : Nat := 1

structure ContinuityFloor where
  formatVersion : Nat
  repositoryRoot : Text
  headId : Text
  generation : Nat
  policyGeneration : Nat
deriving DecidableEq

/-- The floor at a head. -/
def ContinuityFloor.at (headId : Text) (manifest : Manifest) : ContinuityFloor where
  formatVersion := FLOOR_FORMAT
  repositoryRoot := manifest.repositoryRoot
  headId
  generation := manifest.generation
  policyGeneration := manifest.policyGeneration

/-- What happens to one access to the file. -/
inductive Fault where
  | none
  /-- It fails and changes nothing. -/
  | before (error : Error)
  /-- It fails after its effect. -/
  | after (error : Error)

/-- The file, and what will happen to the next accesses. -/
structure FloorFile where
  content : Option ContinuityFloor
  faults : List Fault

namespace FloorFile

/-- The fate of the next access. -/
def next (file : FloorFile) : Fault × FloorFile :=
  match file.faults with
  | [] => (.none, file)
  | fault :: rest => (fault, { file with faults := rest })

/-- An access with the effect `effect` on the content. -/
def access (effect : Option ContinuityFloor → Option ContinuityFloor) :
    Action Error FloorFile Unit := fun file =>
  match file.next with
  | (.none, file) => (.ok (), { file with content := effect file.content })
  | (.before error, file) => (.error error, file)
  | (.after error, file) => (.error error, { file with content := effect file.content })

end FloorFile

namespace FloorGuard

/-- Creates the directory and takes the lock. -/
def acquire : Action Error FloorFile Unit := FloorFile.access id

def read : Action Error FloorFile (Option ContinuityFloor) := do
  FloorFile.access id
  let file ← Action.get
  Action.lift (checkFormat file.content)
where
  checkFormat : Option ContinuityFloor → Result (Option ContinuityFloor)
    | some floor => do
      bailIf (floor.formatVersion ≠ FLOOR_FORMAT)
        s!"unsupported continuity floor format {floor.formatVersion}"
      pure (some floor)
    | none => pure none

/-- Whether `next` replaces `previous`. -/
def advances (previous next : ContinuityFloor) : Result Bool := do
  bailIf (previous.repositoryRoot ≠ next.repositoryRoot) "remote repository root changed"
  if next.generation < previous.generation then pure false
  else do
    bailIf (previous.generation = next.generation ∧ previous.headId ≠ next.headId)
      "remote manifest history forked from the locally pinned head"
    bailIf (next.policyGeneration < previous.policyGeneration) "remote policy rolled back"
    pure (previous ≠ next)

/-- Moves the floor to `next` unless it already stands at a later generation. -/
def advance (next : ContinuityFloor) : Action Error FloorFile Unit := do
  let previous ← read
  let write ← Action.lift (match previous with
    | some previous => advances previous next
    | none => pure true)
  if write then FloorFile.access fun _ => some next else pure ()

end FloorGuard

end GitE2EE

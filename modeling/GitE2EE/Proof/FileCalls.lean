import GitE2EE.Lib.Interference
import GitE2EE.Model.ObjectStage

/-!
# What the directory backend asks of the system

Two facts about every part of the directory backend, read off its calls: which of its
parts can rename a file, and that none of its errors says that storage is occupied.
Storing an object links and removes names; only the replacement of a whole file renames,
and only a swap of HEAD replaces files.
-/

namespace GitE2EE

open Wire Effect Files

/-- The error does not say that storage is occupied. -/
def Error.Plain (e : Error) : Prop := e.isStorageOccupied = false

/-- A failed call is reported as an I/O error, never as occupied storage. -/
theorem plain_ioError (fault : Files.Fault) : (ioError fault).Plain := rfl

/-- Neither is what the code gives up on with a message. -/
theorem plain_of_bail {α : Type} {text : String} {e : Error}
    (h : (bail text : Result α) = .error e) : e.Plain := by
  cases h
  rfl

/-- The same behind a condition. -/
theorem plain_of_bailIf {c : Prop} [Decidable c] {text : String} {e : Error}
    (h : bailIf c text = .error e) : e.Plain := by
  unfold bailIf at h
  split at h
  · exact plain_of_bail h
  · cases h

/-- The same for a value that is missing. -/
theorem plain_of_orBail {α : Type} {value : Option α} {text : String} {e : Error}
    (h : orBail value text = .error e) : e.Plain := by
  cases value with
  | some a => cases h
  | none => exact plain_of_bail h

/-- Calls other than renames. -/
def Host.Quiet : FileCall → Prop
  | .rename _ _ _ => False
  | _ => True

/-- Any call. -/
def Host.Any : FileCall → Prop := fun _ => True

/-- A process that renames nothing and fails plainly. -/
abbrev QuietProcess {α : Type} (x : Process α) : Prop := x.Within Host.Quiet Error.Plain

/-- A process that fails plainly. -/
abbrev PlainProcess {α : Type} (x : Process α) : Prop := x.Within Host.Any Error.Plain

/-- Renaming nothing is more than failing plainly. -/
theorem QuietProcess.plain {α : Type} {x : Process α} (h : QuietProcess x) : PlainProcess x :=
  h.mono fun _ _ => trivial

section

variable {calls : FileCall → Prop}

/-- Raising a failed call is plain, whatever calls are allowed and whatever is said of it. -/
theorem within_raised {α : Type} (describe : Files.Fault → Error)
    (hplain : ∀ fault, (describe fault).Plain) (reply : Except Files.Fault α) :
    (Thread.lift (reply.mapError describe) : Process α).Within calls Error.Plain := by
  refine .lift fun e he => ?_
  cases reply with
  | ok a => cases he
  | error fault =>
    cases he
    exact hplain fault

theorem within_orRaise {α : Type} (reply : Except Files.Fault α) :
    (orRaise reply).Within calls Error.Plain :=
  within_raised ioError plain_ioError reply

theorem within_orRaiseWith {α : Type} (text : String) (reply : Except Files.Fault α) :
    (orRaiseWith text reply).Within calls Error.Plain :=
  within_raised (fun fault => (ioError fault).context text) plain_ioError reply

end

namespace Persist

/-- Looking for the deepest directory that exists only asks. -/
theorem quiet_climb (path : List Text) : QuietProcess (climb path) := by
  induction path with
  | nil =>
    refine .bind (.perform trivial) fun there => ?_
    cases there with
    | true => exact .pure
    | false => exact .fail rfl
  | cons name up ih =>
    refine .bind (.perform trivial) fun there => ?_
    cases there with
    | true => exact .pure
    | false => exact .bind ih fun _ => .pure

/-- Clearing up ignores failures, so it has none. -/
theorem quiet_removeCreatedDirectories (created : List Step) :
    QuietProcess (removeCreatedDirectories created) := by
  induction created with
  | nil => exact .pure
  | cons step created ih => exact .bind (.perform trivial) fun _ => ih

/-- Somebody else creating a directory first is no failure; any other refusal clears up. -/
theorem quiet_createMissing (created missing : List Step) :
    QuietProcess (createMissing created missing) := by
  induction missing generalizing created with
  | nil => exact .pure
  | cons step missing ih =>
    refine .bind (.perform trivial) fun reply => ?_
    -- the replies in order: not found, already exists, another failure, and success
    rcases reply with (_ | _ | _) | _
    · exact .bind (quiet_removeCreatedDirectories created) fun _ => .fail rfl
    · exact ih created
    · exact .bind (quiet_removeCreatedDirectories created) fun _ => .fail rfl
    · exact ih _

/-- Flushing stops at the first failure. -/
theorem quiet_flushCreatedDirectories (preexisting : Path) (missing : List Step) :
    QuietProcess (flushCreatedDirectories preexisting missing) := by
  induction missing with
  | nil => exact .perform trivial
  | cons step missing ih =>
    refine .bind (.perform trivial) fun reply => ?_
    cases reply with
    | error fault => exact .pure
    | ok _ => exact ih

/-- Creating a path durably makes and removes directories, and renames nothing. -/
theorem quiet_createDirAllDurable (path : Path) : QuietProcess (createDirAllDurable path) := by
  refine .bind (quiet_climb path.reverse) fun found => ?_
  refine .bind (.perform trivial) fun there => ?_
  split
  · split
    · exact .pure
    · refine .bind (quiet_createMissing _ _) fun created =>
        .bind (quiet_flushCreatedDirectories _ _) fun flushed => ?_
      cases flushed with
      | ok _ => exact .pure
      | error fault => exact .bind (quiet_removeCreatedDirectories created) fun _ => .fail rfl
  · exact .fail rfl

/-- This is the one place that renames. -/
theorem plain_stageAndRename (directory : Path) (file : Nat) (temporary name : Text)
    (contents : Bytes) : PlainProcess (stageAndRename directory file temporary name contents) := by
  refine .bind (.perform trivial) fun written => ?_
  cases written with
  | error fault => exact .pure
  | ok _ =>
    refine .bind (.perform trivial) fun synced => ?_
    cases synced with
    | error fault => exact .pure
    | ok _ => exact .perform trivial

/-- All three ways in which a replacement fails are I/O errors with a note. -/
theorem plain_replaceFileDurably (directory : Path) (name : Text) (contents random : Bytes) :
    PlainProcess (replaceFileDurably directory name contents random) := by
  refine .bind (.perform trivial) fun created => ?_
  cases created with
  | error fault => exact .fail rfl
  | ok file =>
    refine .bind (plain_stageAndRename _ _ _ _ _) fun renamed => ?_
    cases renamed with
    | error fault => exact .bind (.perform trivial) fun _ => .fail rfl
    | ok _ =>
      refine .bind (.perform trivial) fun synced => ?_
      cases synced with
      | error fault => exact .fail rfl
      | ok _ => exact .pure

end Persist

theorem quiet_createDirAll_settle (path : Path) (reply : Except Files.Fault Unit) :
    QuietProcess (createDirAll.settle path reply) := by
  cases reply with
  | ok _ => exact .pure
  | error fault =>
    refine .bind (.perform trivial) fun there => ?_
    cases there with
    | true => exact .pure
    | false => exact .pure

/-- The standard library's way of creating a path renames nothing either. -/
theorem quiet_createDirAll (path : List Text) : QuietProcess (createDirAll path) := by
  induction path with
  | nil => exact .pure
  | cons name up ih =>
    refine .bind (.perform trivial) fun created => ?_
    -- only a missing parent makes it climb
    rcases created with (_ | _ | _) | _
    · refine .bind ih fun above => ?_
      cases above with
      | error fault => exact .pure
      | ok _ => exact .bind (.perform trivial) fun reply => quiet_createDirAll_settle _ reply
    · exact quiet_createDirAll_settle _ _
    · exact quiet_createDirAll_settle _ _
    · exact .pure

namespace FilesystemStorage

variable (P : Primitives) (storage : FilesystemStorage)

theorem quiet_createDirectory (directory : Path) : QuietProcess (createDirectory directory) := by
  refine .attempt_bind (Persist.quiet_createDirAllDurable directory) (fun _ => .pure)
    (fun e he => .fail he) fun result => ?_
  cases result <;> trivial

/-- Laying out the storage creates two directories. -/
theorem quiet_initializeStorage : QuietProcess storage.initializeStorage :=
  .bind (quiet_createDirectory _) fun _ => quiet_createDirectory _

theorem quiet_readRootFile (name : Text) (limit : Nat) :
    QuietProcess (storage.readRootFile name limit) := by
  refine .bind (.perform trivial) fun _ => .bind (within_orRaiseWith _ _) fun node =>
    .lift fun e he => ?_
  unfold Directory.readRootFile at he
  split at he
  · cases he
  · cases he
  · exact plain_of_bail he
  · exact plain_of_bail he

/-- Storage of another format is refused with a message. -/
theorem plain_checkStorageFormat {location : String} {format : Option Bytes} {headPresent : Bool}
    {e : Error} (h : Directory.checkStorageFormat location format headPresent = .error e) :
    e.Plain := by
  unfold Directory.checkStorageFormat at h
  split at h
  · split at h
    · cases h
    · exact plain_of_bail h
  · split at h
    · exact plain_of_bail h
    · cases h

theorem quiet_checkFormat : QuietProcess storage.checkFormat :=
  .bind (storage.quiet_readRootFile _ _) fun _ => .bind (.perform trivial) fun _ =>
    .lift fun _ => plain_checkStorageFormat

theorem quiet_readStoredHead : QuietProcess storage.readStoredHead :=
  .bind (.perform trivial) fun _ => .bind (within_orRaiseWith _ _) fun _ => .pure

theorem plain_parse {head : StoredHead} {e : Error} (h : head.parse = .error e) : e.Plain := by
  cases head with
  | bytes content => exact plain_of_orBail h
  | notRegular => exact plain_of_bail h
  | oversized => exact plain_of_bail h

/-- Reading the head asks for FORMAT and HEAD, and refuses what is no id. -/
theorem quiet_readHead : QuietProcess storage.readHead := by
  refine .bind storage.quiet_checkFormat fun _ => .bind storage.quiet_readStoredHead fun head => ?_
  cases head with
  | none => exact .pure
  | some head => exact .bind (.lift fun _ => plain_parse) fun _ => .pure

theorem quiet_unlock : QuietProcess unlock := .bind (.perform trivial) fun _ => within_orRaise _

theorem quiet_lockFile : QuietProcess storage.lockFile :=
  .bind storage.quiet_initializeStorage fun _ => .bind (.perform trivial) fun _ =>
    within_orRaiseWith _ _

/-- The lock is released on every way out, and with the error of the body. -/
theorem plain_locked {body : Process Unit} (h : PlainProcess body) :
    PlainProcess (storage.locked body) := by
  refine .bind storage.quiet_lockFile.plain fun _ => .bind (.perform trivial) fun _ =>
    .bind (within_orRaise _) fun _ => .attempt_bind h (fun _ => ?_) (fun e he => ?_)
      fun result => ?_
  · exact .bind (.perform trivial) fun _ => .pure
  · exact .bind (.perform trivial) fun _ => .fail he
  · exact .bind (.perform trivial) fun _ => trivial

/-! ## Objects -/

/-- A stage is a new file in a directory of its own. -/
theorem quiet_beginObject (random : Bytes) (kind : ObjectKind) :
    QuietProcess (storage.beginObject random kind) :=
  .bind storage.quiet_initializeStorage fun _ => .bind (quiet_createDirAll _) fun _ =>
    .bind (within_orRaise _) fun _ => .bind (.perform trivial) fun _ =>
      .bind (within_orRaise _) fun _ => .pure

theorem quiet_writeStage (stage : ObjectStage) (written data : Bytes) :
    QuietProcess (writeStage stage written data) := by
  unfold writeStage
  split
  · exact .fail rfl
  · exact .bind (.perform trivial) fun _ => .bind (within_orRaise _) fun _ => .pure

/-- Pieces are appended until one is refused. -/
theorem quiet_writePieces (stage : ObjectStage) (written : Bytes) (pieces : List Bytes) :
    QuietProcess (writePieces stage written pieces) := by
  induction pieces generalizing written with
  | nil => exact .pure
  | cons piece pieces ih => exact .bind (quiet_writeStage stage written piece) ih

/-- An object that is taken is only read again. -/
theorem quiet_verifyFileId (path : Path) (id : Text) : QuietProcess (verifyFileId P path id) := by
  refine .bind (.perform trivial) fun _ => .bind (within_orRaise _) fun node => ?_
  rcases node with _ | (_ | content)
  · exact .lift fun _ => plain_of_bail
  · exact .lift fun _ => plain_of_bail
  · exact .lift fun _ => plain_of_bailIf

theorem quiet_discardStage (stage : ObjectStage) (parent : Path) :
    QuietProcess (storage.discardStage stage parent) :=
  .bind (.perform trivial) fun _ => .bind (within_orRaise _) fun _ =>
    .bind (.perform trivial) fun _ => within_orRaiseWith _ _

theorem quiet_settleTaken (stage : ObjectStage) (id : Text) :
    QuietProcess (storage.settleTaken P stage id) :=
  .bind (quiet_verifyFileId P _ _) fun _ => storage.quiet_discardStage _ _

/-- An object gets its name by a link, which never replaces one that is there. -/
theorem quiet_publishStage (stage : ObjectStage) (id : Text) :
    QuietProcess (storage.publishStage P stage id) := by
  refine .bind (.perform trivial) fun _ => .bind (within_orRaise _) fun _ =>
    .bind (quiet_createDirectory _) fun _ => .bind (.perform trivial) fun taken => ?_
  split
  · exact storage.quiet_settleTaken P stage id
  · refine .bind (.perform trivial) fun linked => ?_
    -- another process may have linked the same object in between
    rcases linked with (_ | _ | _) | _
    · exact .fail rfl
    · exact storage.quiet_settleTaken P stage id
    · exact .fail rfl
    · exact storage.quiet_discardStage _ _

theorem plain_validateId {id : Text} {e : Error} (h : validateId id = .error e) : e.Plain :=
  plain_of_bailIf h

/-- **Storing an object renames nothing**, and its stage is closed however it ends. -/
theorem quiet_storePieces (stage : ObjectStage) (pieces : List Bytes) (id : Text) :
    QuietProcess (storage.storePieces P stage pieces id) := by
  have hbody : QuietProcess (do
      let written ← writePieces stage [] pieces
      storage.finishStage P stage written id) :=
    .bind (quiet_writePieces stage [] pieces) fun _ => .bind (.lift fun _ => plain_validateId)
      fun _ => .bind (.lift fun _ => plain_of_bailIf) fun _ => storage.quiet_publishStage P stage id
  refine .attempt_bind hbody (fun _ => ?_) (fun e he => ?_) fun result => ?_
  · exact .bind (.perform trivial) fun _ => .pure
  · exact .bind (.perform trivial) fun _ => .fail he
  · exact .bind (.perform trivial) fun _ => trivial

/-! ## Swaps -/

/-- The notice and FORMAT are replaced like any file. -/
theorem plain_writeGenesisFiles (random : Temporaries) :
    PlainProcess (storage.writeGenesisFiles random) := by
  refine .bind (.perform trivial) fun present => ?_
  cases present with
  | true => exact Persist.plain_replaceFileDurably _ _ _ _
  | false =>
    exact .bind (Persist.plain_replaceFileDurably _ _ _ _) fun _ =>
      Persist.plain_replaceFileDurably _ _ _ _

/-- Setting the head replaces HEAD, after the genesis files if there are to be any. -/
theorem plain_publishHead (random : Temporaries) (genesis : Bool) (next : Text) :
    PlainProcess (storage.publishHead random genesis next) := by
  have hhead : PlainProcess (do
      Persist.replaceFileDurably storage.root HEAD (next ++ [10]) random.head
      unlock) :=
    .bind (Persist.plain_replaceFileDurably _ _ _ _) fun _ => quiet_unlock.plain
  -- only a genesis writes FORMAT, and what it fails with is raised behind an unlock
  cases genesis with
  | false => exact hhead
  | true =>
    refine .attempt_bind (storage.plain_writeGenesisFiles random) (fun _ => hhead)
      (fun e he => ?_) fun result => ?_
    · exact .bind quiet_unlock.plain fun _ => .bind (.fail he) fun _ => hhead
    · cases result with
      | ok _ => exact hhead.1
      | error e => exact .bind quiet_unlock.plain.1 fun _ => .bind trivial fun _ => hhead.1

/-- **No swap of a directory says that storage is occupied.** -/
theorem plain_compareAndSwapHead (random : Temporaries) (expected : Option Text) (next : Text) :
    PlainProcess (storage.compareAndSwapHead random expected next) := by
  refine .bind (.lift fun _ => plain_validateId) fun _ => storage.plain_locked ?_
  refine .bind storage.quiet_readHead.plain fun actual => ?_
  dsimp only
  -- a head that is not the expected one is a conflict, which is not `occupied`
  split
  · exact .bind quiet_unlock.plain fun _ => .bind (.fail rfl) fun _ =>
      storage.plain_publishHead _ _ _
  · exact storage.plain_publishHead _ _ _

end FilesystemStorage

end GitE2EE

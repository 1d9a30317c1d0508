import GitE2EE.Model.Directory
import GitE2EE.Model.Host

/-!
# The directory backend, call by call

`persist.rs` and `impl Storage for FilesystemStorage` as processes over the system calls
they make, in the order they make them. `Directory` has the same operations as single
steps; here every call is a point at which another process may run, the platform may
report a failure, or the process may be stopped.

Paths are absolute: they start at the top directory, so the branch of
`create_dir_all_durable` for relative paths and the one for the empty path are left out.
A random name is a parameter of the call that draws it.
-/

namespace GitE2EE

open Wire Effect Files

/-- `Path::display`. -/
def displayPath (path : Path) : String := "/" ++ "/".intercalate (path.map render)

namespace Persist

/-! ## Replacing a file -/

/-- A `ReplaceError`: the destination is untouched. -/
def notPublished (destination : Path) (fault : Files.Fault) : Error :=
  (ioError fault).context s!"replace {displayPath destination}: not published"

/-- A `ReplaceError`: the new bytes may be visible, but the flush failed. -/
def unacknowledged (destination : Path) (fault : Files.Fault) : Error :=
  (ioError fault).context
    s!"replace {displayPath destination}: published but the directory flush failed"

def temporaryName (name random : Bytes) : Text :=
  text "." ++ name ++ text "." ++ hexEncode random ++ text ".tmp"

/-- Writes, flushes and renames the temporary. -/
def stageAndRename (directory : Path) (file : Nat) (temporary name : Text) (contents : Bytes) :
    Process (Except Files.Fault Unit) := do
  match ← Sys.writeAll file contents with
  | .error fault => pure (.error fault)
  | .ok () =>
    match ← Sys.syncAll file with
    | .error fault => pure (.error fault)
    | .ok () => Sys.rename directory temporary name

/-- `replace_file_durably`. Every name it is called with is one path component. -/
def replaceFileDurably (directory : Path) (name : Text) (contents random : Bytes) :
    Process Unit := do
  let temporary := temporaryName name random
  match ← Sys.createNew directory temporary with
  | .error fault => Thread.fail (notPublished (directory ++ [name]) fault)
  | .ok file =>
    match ← stageAndRename directory file temporary name contents with
    | .error fault =>
      let _ ← Sys.removeFile directory temporary
      Thread.fail (notPublished (directory ++ [name]) fault)
    | .ok () =>
      match ← Sys.syncDirectory directory with
      | .error fault => Thread.fail (unacknowledged (directory ++ [name]) fault)
      | .ok () => pure ()

/-! ## Creating directories -/

/-- A directory by the directory it is in and its name. -/
abbrev Step := Path × Text

/-- The climb from a path, given backwards, to the deepest directory that exists: the
missing ones, deepest first, and that directory. -/
def climb : List Text → Process (List Step × Path)
  | [] => do
    if ← Sys.exists [] then pure ([], [])
    else Thread.fail (.of (.io .notFound "no existing ancestor"))
  | name :: up => do
    if ← Sys.exists (name :: up).reverse then pure ([], (name :: up).reverse)
    else do
      let (missing, preexisting) ← climb up
      pure ((up.reverse, name) :: missing, preexisting)

/-- `remove_created_directories`: latest first, failures ignored. -/
def removeCreatedDirectories : List Step → Process Unit
  | [] => pure ()
  | (parent, name) :: created => do
    let _ ← Sys.removeDir parent name
    removeCreatedDirectories created

/-- Creates what is missing, outermost first, and returns what this call created,
latest first. -/
def createMissing (created : List Step) : List Step → Process (List Step)
  | [] => pure created
  | (parent, name) :: missing => do
    match ← Sys.createDir parent name with
    | .ok () => createMissing ((parent, name) :: created) missing
    | .error .alreadyExists => createMissing created missing
    | .error fault => do
      removeCreatedDirectories created
      Thread.fail (ioError fault)

/-- `flush_created_directories`. -/
def flushCreatedDirectories (preexisting : Path) : List Step → Process (Except Files.Fault Unit)
  | [] => Sys.syncDirectory preexisting
  | (parent, name) :: missing => do
    match ← Sys.syncDirectory (parent ++ [name]) with
    | .error fault => pure (.error fault)
    | .ok () => flushCreatedDirectories preexisting missing

/-- `create_dir_all_durable`. -/
def createDirAllDurable (path : Path) : Process Unit := do
  let (missing, preexisting) ← climb path.reverse
  if ← Sys.isDir preexisting then
    if missing = [] then pure ()
    else do
      let created ← createMissing [] missing.reverse
      match ← flushCreatedDirectories preexisting missing with
      | .ok () => pure ()
      | .error fault => do
        removeCreatedDirectories created
        Thread.fail (ioError fault)
  else Thread.fail (.of (.io .other s!"{displayPath preexisting} is not a directory"))

end Persist

/-! ## The backend -/

structure FilesystemStorage where
  root : Path

namespace FilesystemStorage

def HEAD : Text := text "HEAD"
def FORMAT : Text := text "FORMAT"
def README : Text := text "README.md"
def HEAD_LOCK : Text := text "HEAD.lock"
def PACKS : Text := text "packs"
def MANIFESTS : Text := text "manifests"

def kindDirectory : ObjectKind → Text
  | .pack => PACKS
  | .manifest => MANIFESTS

def storageReadme (subject : String) : Bytes :=
  text ("# Encrypted Git repository\n\n"
    ++ subject ++ " holds an end-to-end encrypted Git repository managed by\n"
    ++ "git-remote-e2ee (https://github.com/combinatrix-ai/git-remote-e2ee).\n"
    ++ "Its contents are ciphertext. Do not edit, rename, or delete files here.\n\n"
    ++ "To clone it, install git-remote-e2ee and run:\n\n"
    ++ "    git -c e2ee.key=<your device key> clone e2ee::<this repository's URL>\n")

/-- The random part of the temporary for each file a swap may replace. -/
structure Temporaries where
  readme : Bytes
  format : Bytes
  head : Bytes

def entryOf : Node → FileEntry
  | .directory => .notRegular
  | .file content => .regular content

variable (storage : FilesystemStorage)

/-- `create_dir_all_durable(..).with_context(..)`. -/
def createDirectory (directory : Path) : Process Unit := do
  match ← (Persist.createDirAllDurable directory).attempt with
  | .ok () => pure ()
  | .error e => Thread.fail (e.context s!"create {displayPath directory}")

/-- `FilesystemStorage::initialize`. -/
def initializeStorage : Process Unit := do
  createDirectory (storage.root ++ [PACKS])
  createDirectory (storage.root ++ [MANIFESTS])

def readRootFile (name : Text) (limit : Nat) : Process (Option Bytes) := do
  let path := storage.root ++ [name]
  let node ← orRaiseWith s!"read {displayPath path}" (← Sys.readFile path)
  Thread.lift (Directory.readRootFile (displayPath path) limit (node.map entryOf))

def checkFormat : Process Unit := do
  let format ← storage.readRootFile FORMAT Directory.MAX_STORAGE_FORMAT_BYTES
  let headPresent ← Sys.exists (storage.root ++ [HEAD])
  Thread.lift (Directory.checkStorageFormat (displayPath storage.root) format headPresent)

def readStoredHead : Process (Option StoredHead) := do
  let node ← orRaiseWith "read storage HEAD"
    (← Sys.readFile (storage.root ++ [HEAD]))
  pure (StoredHead.fromBounded (readRegularBounded MAX_HEAD_BYTES (node.map entryOf)))

/-- The id in HEAD. No lock is held: a publisher may be at work. -/
def readHead : Process (Option Text) := do
  storage.checkFormat
  match ← storage.readStoredHead with
  | none => pure none
  | some head => do pure (some (← Thread.lift head.parse))

def observeHead : Process HeadObservation := do
  storage.checkFormat
  let head ← storage.readStoredHead
  pure {
    headId := head.bind StoredHead.headId
    token := (head.map StoredHead.evidence).getD []
    head }

/-- What a first publication writes before HEAD; a README that is there stays. -/
def writeGenesisFiles (random : Temporaries) : Process Unit := do
  let present ← Sys.exists (storage.root ++ [README])
  if !present then
    Persist.replaceFileDurably storage.root README (storageReadme "This directory") random.readme
  Persist.replaceFileDurably storage.root FORMAT Directory.STORAGE_FORMAT random.format

/-- The lock file is opened, not yet locked. -/
def lockFile : Process Unit := do
  storage.initializeStorage
  orRaiseWith "open HEAD lock" (← Sys.openLock storage.root HEAD_LOCK)

/-- `fs2::FileExt::unlock(&lock)?`. -/
def unlock : Process Unit := do orRaise (← Sys.unlock)

/-- Takes the lock for the rest of the call. Wherever the call returns from, the lock
file is closed. -/
def locked (body : Process Unit) : Process Unit := do
  storage.lockFile
  orRaise (← Sys.lockExclusive)
  let result ← body.attempt
  Sys.closeLock
  Thread.lift result

/-- What both swaps do once the head is the expected one. -/
def publishHead (random : Temporaries) (genesis : Bool) (next : Text) : Process Unit := do
  if genesis then
    match ← (storage.writeGenesisFiles random).attempt with
    | .ok () => pure ()
    | .error e => do
      unlock
      Thread.fail e
  Persist.replaceFileDurably storage.root HEAD (next ++ [10]) random.head
  unlock

/-- Replaces HEAD under the lock if it still names what the caller expects. -/
def compareAndSwapHead (random : Temporaries) (expected : Option Text) (next : Text) :
    Process Unit := do
  Thread.lift (validateId next)
  storage.locked do
    let actual ← storage.readHead
    if actual ≠ expected then do
      unlock
      Thread.fail (.of (.casConflict expected actual))
    storage.publishHead random actual.isNone next

/-- Replaces HEAD under the lock if it is still what was observed, valid or not. -/
def compareAndSwapObservedHead (random : Temporaries) (observed : HeadObservation)
    (next : Text) : Process Unit := do
  Thread.lift (validateId next)
  storage.locked do
    match ← storage.readStoredHead.attempt with
    | .error e => do
      unlock
      Thread.fail e
    | .ok actual => do
      if actual ≠ observed.head then do
        unlock
        Thread.fail (.of (.casConflict observed.headId (actual.bind StoredHead.headId)))
      storage.publishHead random actual.isNone next

end FilesystemStorage

end GitE2EE

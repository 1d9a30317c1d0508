import GitE2EE.Model.Storage

/-!
# Storage in a directory

`FilesystemStorage`: objects are files named by their id, HEAD is a file, and FORMAT
says which layout the directory has. A file that is not a regular one, or is longer
than its reader allows, is told apart from its content.

There is no outer history, so the recovery methods are the trait's defaults. The
directory is the whole state: an operation holds the lock on HEAD while it compares
and swaps, and input/output failures are not part of this backend.
-/

namespace GitE2EE

open Wire Effect

/-- What a path of the directory holds. -/
inductive FileEntry where
  | regular (content : Bytes)
  | notRegular
deriving DecidableEq

/-- What a bounded read of a path finds. -/
inductive Bounded where
  | absent
  | within (content : Bytes)
  | oversized
  | notRegular
deriving DecidableEq

/-- `read_regular_bounded`. -/
def readRegularBounded (limit : Nat) : Option FileEntry → Bounded
  | none => .absent
  | some .notRegular => .notRegular
  | some (.regular content) => if limit < content.length then .oversized else .within content

/-- HEAD as it was read, which is nothing where there is no file. -/
def StoredHead.fromBounded : Bounded → Option StoredHead
  | .absent => none
  | .within content => some (.bytes content)
  | .oversized => some .oversized
  | .notRegular => some .notRegular

/-- The directory: FORMAT, HEAD, and the objects of each kind. -/
structure Directory where
  format : Option FileEntry
  head : Option FileEntry
  objects : ObjectKind → Text → Option FileEntry

namespace Directory

def empty : Directory := ⟨none, none, fun _ _ => none⟩

def STORAGE_FORMAT : Bytes := text "git-remote-e2ee storage 6\n"
def STORAGE_FORMAT_PREFIX : Bytes := text "git-remote-e2ee storage "
def MAX_STORAGE_FORMAT_BYTES : Nat := 256

/-- The version a FORMAT file claims, for the message. -/
def claimedFormat (content : Bytes) : String :=
  let trimmed := (StoredHead.trim (codePoints content)).map UInt8.ofNat
  if STORAGE_FORMAT_PREFIX.isPrefixOf trimmed then
    render (trimmed.drop STORAGE_FORMAT_PREFIX.length)
  else quoted trimmed

/-- A directory without FORMAT is new, or older than this layout if it has a HEAD. -/
def checkStorageFormat (location : String) (format : Option Bytes) (headPresent : Bool) :
    Result Unit :=
  match format with
  | some content =>
    if content = STORAGE_FORMAT then pure ()
    else bail (refusal (claimedFormat content))
  | none => if headPresent then bail (refusal "5 or earlier") else pure ()
where
  refusal (found : String) : String :=
    s!"storage at {location} uses format {found}; this git-remote-e2ee reads format 6"

def readRootFile (name : String) (limit : Nat) (file : Option FileEntry) :
    Result (Option Bytes) :=
  match readRegularBounded limit file with
  | .absent => pure none
  | .within content => pure (some content)
  | .oversized => bail s!"{name} exceeds {limit} bytes"
  | .notRegular => bail s!"{name} is not a regular file"

def readStoredHead (directory : Directory) : Option StoredHead :=
  StoredHead.fromBounded (readRegularBounded MAX_HEAD_BYTES directory.head)

section

variable (P : Primitives) (location : String)

def checkFormat (directory : Directory) : Result Unit := do
  let format ← readRootFile "FORMAT" MAX_STORAGE_FORMAT_BYTES directory.format
  checkStorageFormat location format directory.head.isSome

/-- The id in HEAD, once the format is known to be this one. -/
def readHead (directory : Directory) : Result (Option Text) := do
  directory.checkFormat location
  match directory.readStoredHead with
  | none => pure none
  | some head => do pure (some (← head.parse))

/-- `verify_file_id`. -/
def verifyFileId (id : Text) : FileEntry → Result Unit
  | .notRegular => bail s!"stored object {render id} is not a regular file"
  | .regular content =>
    bailIf (objectId P content ≠ id) s!"object id collision for {render id}"

/-- The directory with one more object. -/
def withObject (directory : Directory) (kind : ObjectKind) (id : Text) (content : Bytes) :
    Directory :=
  { directory with
    objects := fun k i =>
      if k = kind ∧ i = id then some (FileEntry.regular content) else directory.objects k i }

/-- Publishes staged bytes under their id, unless the id is taken. -/
def publishObject (kind : ObjectKind) (content : Bytes) (id : Text) :
    Action Error Directory Unit := fun directory =>
  match directory.objects kind id with
  | some entry => (verifyFileId P id entry, directory)
  | none => (.ok (), directory.withObject kind id content)

/-- The checks of a stage before it is published: the size, then the id. -/
def checkStage (kind : ObjectKind) (content : Bytes) (id : Text) : Result Unit := do
  if kind.maxBytes < content.length then
    .error (.of (.io .other (s!"{kind.name} object exceeds the {kind.maxBytes}-byte maximum that "
      ++ "readers accept; splitting larger objects is not supported")))
  else do
    validateId id
    bailIf (objectId P content ≠ id) "staged object hash does not match id"

/-- Publishes staged bytes that are within their size and have their id. -/
def finishObject (kind : ObjectKind) (content : Bytes) (id : Text) :
    Action Error Directory Unit := do
  Action.lift (checkStage P kind content id)
  publishObject P kind content id

/-- Why an object that is there cannot be read. -/
def openEntry (kind : ObjectKind) : Option FileEntry → Except IoKind Reader
  | none => .error .notFound
  | some .notRegular => .error .invalidData
  | some (.regular content) =>
    if kind.maxBytes < content.length then .error .invalidData else .ok ⟨content, none⟩

/-- An object that cannot be read is reported as unavailable, with the path. -/
def openObject (kind : ObjectKind) (id : Text) (directory : Directory) : Result Reader := do
  validateId id
  match openEntry kind (directory.objects kind id) with
  | .ok reader => pure reader
  | .error source =>
    .error ((Error.of (.objectUnavailable "directory" id (some source))).context
      s!"read {location}/{kind.directory}/{render (id.take 2)}/{render id}")

/-- HEAD as this program writes it. -/
def writtenHead (id : Text) : FileEntry := .regular (id ++ [10])

/-- Replaces HEAD, writing FORMAT first where there was no head. -/
def replaceHead (id : Text) (genesis : Bool) (directory : Directory) : Directory :=
  { directory with
    format := if genesis then some (.regular STORAGE_FORMAT) else directory.format
    head := some (writtenHead id) }

/-- Replaces HEAD if it still names what the caller expects. -/
def compareAndSwapHead (expected : Option Text) (next : Text) : Action Error Directory Unit := do
  Action.lift (validateId next)
  let directory ← Action.get
  let actual ← Action.lift (directory.readHead location)
  if actual ≠ expected then Action.fail (.of (.casConflict expected actual))
  else Action.modify (replaceHead next actual.isNone)

/-- HEAD as it is, valid or not, with the bytes that stand for it in evidence. -/
def observeHead (directory : Directory) : Result HeadObservation := do
  directory.checkFormat location
  let head := directory.readStoredHead
  pure {
    headId := head.bind StoredHead.headId
    token := (head.map StoredHead.evidence).getD []
    head }

/-- Replaces HEAD if it is still what was observed. The format is not checked again. -/
def compareAndSwapObservedHead (observed : HeadObservation) (next : Text) :
    Action Error Directory Unit := do
  Action.lift (validateId next)
  let directory ← Action.get
  let actual := directory.readStoredHead
  if actual ≠ observed.head then
    Action.fail (.of (.casConflict observed.headId (actual.bind StoredHead.headId)))
  else Action.modify (replaceHead next actual.isNone)

/-- `impl Storage for FilesystemStorage`. -/
def storage : Storage Directory where
  beginObject _ := pure ()
  finishObject := finishObject P
  openObject kind id := fun directory => (directory.openObject location kind id, directory)
  readHead := fun directory => (directory.readHead location, directory)
  refresh := pure false
  compareAndSwapHead := compareAndSwapHead location
  observeHead := fun directory => (directory.observeHead location, directory)
  compareAndSwapObservedHead := compareAndSwapObservedHead
  recoveryHistory _ _ := pure none
  restoreHistoricalObject _ _ _ := pure false
  prepareRecovery _ _ := pure ()

end

end Directory

end GitE2EE

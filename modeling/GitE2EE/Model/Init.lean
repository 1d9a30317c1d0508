import GitE2EE.Model.Backends
import GitE2EE.Model.Repository

/-!
# `git-e2ee init`

The command makes a key unless it is given one that exists, opens the storage, and
initializes a repository there. It removes a key it has made if it knows that nothing was
published under it, which is what the kinds of `InitializeError` tell apart.

Key files are named by their absolute paths. Any access to one can fail, before or after
its effect.
-/

namespace GitE2EE

open Wire Effect

/-! ## Key files -/

/-- `serde_json` for key files. -/
structure KeyCodec where
  encode : KeyFile → Result Bytes
  decode : Bytes → Option KeyFile

structure KeyFiles where
  content : Text → Option Bytes
  /-- What will happen to the next accesses. -/
  faults : List Fault

namespace KeyFiles

/-- An access with an answer and an effect on the files. -/
def access {α : Type} (effect : (Text → Option Bytes) → Result α × (Text → Option Bytes)) :
    Action Error KeyFiles α := fun files =>
  match files.faults with
  | [] => ((effect files.content).1, { files with content := (effect files.content).2 })
  | .none :: rest => ((effect files.content).1, ⟨(effect files.content).2, rest⟩)
  | .before error :: rest => (.error error, { files with faults := rest })
  | .after error :: rest => (.error error, ⟨(effect files.content).2, rest⟩)

/-- `OpenOptions::new().write(true).create_new(true)`. -/
def createNew (path : Text) : Action Error KeyFiles Unit := access fun content =>
  match content path with
  | some _ => (.error (.of (.io .other "file exists")), content)
  | none => (.ok (), Function.update content path (some []))

/-- `write_all` on the file just created. -/
def writeAll (path : Text) (bytes : Bytes) : Action Error KeyFiles Unit := access fun content =>
  (.ok (), Function.update content path (some bytes))

def syncAll : Action Error KeyFiles Unit := access fun content => (.ok (), content)

/-- `fs::read`. -/
def read (path : Text) : Action Error KeyFiles Bytes := access fun content =>
  match content path with
  | some bytes => (.ok bytes, content)
  | none => (.error (.of (.io .notFound "no such file")), content)

/-- `Path::exists`, which is no when the question fails. -/
def «exists» (path : Text) : Action Error KeyFiles Bool := do
  match ← Action.attempt (access fun content => (.ok (content path).isSome, content)) with
  | .ok present => pure present
  | .error _ => pure false

/-- `fs::remove_file`. -/
def removeFile (path : Text) : Action Error KeyFiles Unit := access fun content =>
  match content path with
  | some _ => (.ok (), Function.update content path none)
  | none => (.error (.of (.io .notFound "no such file")), content)

end KeyFiles

namespace KeyFile

variable (codec : KeyCodec)

/-- An action with a note on its error. -/
def noted {σ α : Type} (note : String) (x : Action Error σ α) : Action Error σ α :=
  Action.mapError (·.context note) x

def writeNew (key : KeyFile) (path : Text) : Action Error KeyFiles Unit := do
  let bytes ← Action.lift (codec.encode key)
  noted s!"create key file {render path}" (KeyFiles.createNew path)
  KeyFiles.writeAll path bytes
  KeyFiles.syncAll

/-- What `KeyFile::read` requires of a key. -/
def check (key : KeyFile) : Result Unit := do
  if key.formatVersion ≠ 3 then
    .error (.of (.unsupported s!"unsupported key file format {key.formatVersion}"))
  else do
    validateRoot key.repositoryRoot
    let _ ← key.signingKey
    let _ ← key.wrappingKey
    pure ()

def read (path : Text) : Action Error KeyFiles KeyFile := do
  let bytes ← noted s!"read key file {render path}" (KeyFiles.read path)
  let key ← Action.lift (orBail (codec.decode bytes) "parse key file")
  Action.lift key.check
  pure key

end KeyFile

/-! ## The command -/

/-- What the command can touch. -/
structure Desk (ι τ υ G : Type) where
  keys : KeyFiles
  directory : DirectoryClient ι τ
  carrier : CarrierClient ι υ
  floor : FloorFile
  git : G

namespace Desk

variable {ι τ υ G : Type} {α : Type}

def onKeys (x : Action Error KeyFiles α) : Action Error (Desk ι τ υ G) α :=
  Action.zoom Desk.keys (fun keys desk => { desk with keys }) x

def onCarrier (x : Action Error (CarrierClient ι υ) α) : Action Error (Desk ι τ υ G) α :=
  Action.zoom Desk.carrier (fun carrier desk => { desk with carrier }) x

/-- The part of the desk a repository in a directory works on. -/
def directoryMachine (desk : Desk ι τ υ G) : Machine (DirectoryClient ι τ) G :=
  ⟨desk.directory, desk.floor, desk.git⟩

def carrierMachine (desk : Desk ι τ υ G) : Machine (CarrierClient ι υ) G :=
  ⟨desk.carrier, desk.floor, desk.git⟩

def putDirectoryMachine (m : Machine (DirectoryClient ι τ) G) (desk : Desk ι τ υ G) :
    Desk ι τ υ G := { desk with directory := m.storage, floor := m.floor, git := m.git }

def putCarrierMachine (m : Machine (CarrierClient ι υ) G) (desk : Desk ι τ υ G) :
    Desk ι τ υ G := { desk with carrier := m.storage, floor := m.floor, git := m.git }

end Desk

/-- The arguments and surroundings of one call. -/
structure InitRequest where
  dir : WorkingDirectory
  url : Text
  /-- `--key`. -/
  key : Option Text
  label : Text
  /-- Whether the Git remote to configure is there already, or cannot be told. -/
  remoteTaken : Result Bool
  /-- The key and the randomness the call draws. -/
  generated : KeyFile
  draws : Draws
  /-- Where a key goes without `--key`, and the state directory, if they are known. -/
  defaultKeyPath : Result Text
  defaultStateDir : Result Unit
  /-- How configuring the Git remote ends. -/
  configured : Result Unit

/-- Storage that has been opened. -/
inductive OpenedStorage where
  | directory (storage : FilesystemStorage)
  | carrier (storage : GitStorage)

section

variable {ι τ υ G : Type} [DecidableEq ι] {i : ι}
  {envD : Host ι → Host ι → Prop} {envC : Carrier ι → Carrier ι → Prop}
  (P : Primitives) (codec : KeyCodec) (D : Adversary Host.platform envD i τ)
  (C : Adversary Carrier.platform envC i υ) (names : Host ι × τ → RandomNames)
  (token : Option Commit → Bytes) (request : InitRequest)

/-- A new key at a path. An empty path names no file. -/
def createKey (path : Text) : Action Error (Desk ι τ υ G) (Text × Bool) := do
  let target ← Action.lift (absolute request.dir path)
  Desk.onKeys (request.generated.writeNew codec target)
  pure (path, true)

def keyExists (path : Text) : Action Error (Desk ι τ υ G) Bool :=
  match absolute request.dir path with
  | .ok target => Desk.onKeys (KeyFiles.exists target)
  | .error _ => pure false

/-- The key to use, and whether this call made it. -/
def chooseKey : Action Error (Desk ι τ υ G) (Text × Bool) := do
  match request.key with
  | some path =>
    if ← keyExists request path then pure (path, false) else createKey codec request path
  | none => createKey codec request (← Action.lift request.defaultKeyPath)

/-- `StorageUrl::Git` is opened by looking at the remote, a directory is not. -/
def openStorage : StorageUrl → Action Error (Desk ι τ υ G) OpenedStorage
  | .directory path => pure (.directory ⟨pathComponents path⟩)
  | .git remote => do
    pure (.carrier (← Desk.onCarrier (GitStorage.connect C remote)))

/-- What `with_repository!` does before its body. -/
def openTarget (url : StorageUrl) (path : Text) :
    Action Error (Desk ι τ υ G) (KeyFile × OpenedStorage) := do
  let path ← Action.lift (absolute request.dir path)
  let key ← Desk.onKeys (KeyFile.read codec path)
  Action.lift request.defaultStateDir
  let storage ← openStorage C url
  pure (key, storage)

/-- `repository.initialize(&label)` on storage that is open, with its outcome as a value. -/
def initializeOn (key : KeyFile) (storage : OpenedStorage) :
    Action Error (Desk ι τ υ G) (Except InitializeError (Accepted Text)) := fun desk =>
  match storage with
  | .directory storage =>
    let (outcome, machine) := initializeRepository P (storage.backend D P names) key
      request.label request.draws desk.directoryMachine
    (.ok outcome, desk.putDirectoryMachine machine)
  | .carrier storage =>
    let (outcome, machine) := initializeRepository P (storage.backend C token) key
      request.label request.draws desk.carrierMachine
    (.ok outcome, desk.putCarrierMachine machine)

/-- The closure that `init` attempts. -/
def initAttempt (url : StorageUrl) (path : Text) :
    Action Error (Desk ι τ υ G) (Except InitializeError (Accepted Text)) := do
  let (key, storage) ← openTarget codec C request url path
  initializeOn P D C names token request key storage

def InitializeError.error : InitializeError → Error
  | .beforePublication error | .publicationUncertain error | .afterPublication _ error => error

/-- What becomes of the key. -/
def settleKey (url : StorageUrl) (path : Text) (created : Bool) :
    Except Error (Except InitializeError (Accepted Text)) →
      Action Error (Desk ι τ υ G) (Accepted Text)
  | .ok (.ok accepted) => pure accepted
  | .ok (.error (.beforePublication error)) | .error error => do
    if created then do
      let _ ← Action.attempt (Desk.onKeys (KeyFiles.removeFile (absolutePath request.dir path)))
      Action.fail error
    else Action.fail error
  | .ok (.error error) => Action.fail (error.error.context
      (s!"kept key {render (absolutePath request.dir path)}; it may be the only owner key for "
        ++ render url.display))

/-- `Command::Init`. -/
def initCommand : Action Error (Desk ι τ υ G) (Accepted Text) := do
  let url ← Action.lift (StorageUrl.parse request.dir request.url)
  Action.lift (validateDeviceLabel request.label)
  let taken ← Action.lift request.remoteTaken
  Action.lift (bailIf taken "Git remote already exists; choose another name with --name")
  let (path, created) ← chooseKey codec request
  let outcome ← Action.attempt (initAttempt P codec D C names token request url path)
  let accepted ← settleKey request url path created outcome
  Action.lift request.configured
  pure accepted

end

end GitE2EE

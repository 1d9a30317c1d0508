import GitE2EE.Lib.Interference
import GitE2EE.Model.GitStorage
import GitE2EE.Model.ObjectStage

/-!
# The two backends as storage

A client of a backend with its memory between two calls: the object it is staging, or the
commit its checkout is based on. Each method runs against an adversary, which settles what
the other processes do between the calls of this one and which of those calls fail, and how.
-/

namespace GitE2EE

open Wire Effect

section

variable {ι τ : Type} [DecidableEq ι] {i : ι}

/-! ## A directory -/

/-- A client of a shared directory, with the object it is staging. -/
structure DirectoryClient (ι τ : Type) where
  host : Host ι × τ
  stage : Option ObjectStage

/-- The names a client draws at random. -/
structure RandomNames where
  stage : Bytes
  files : FilesystemStorage.Temporaries

variable {env : Host ι → Host ι → Prop} (A : Adversary Host.platform env i τ)

def onHost {α : Type} (x : Process α) : Action Error (DirectoryClient ι τ) α :=
  Action.zoom DirectoryClient.host (fun host client => { client with host }) (x.against A)

/-- `impl Storage for FilesystemStorage`. -/
def FilesystemStorage.backend (P : Primitives) (names : Host ι × τ → RandomNames)
    (storage : FilesystemStorage) : Storage (DirectoryClient ι τ) where
  beginObject kind := do
    let client ← Action.get
    let stage ← onHost A (storage.beginObject (names client.host).stage kind)
    Action.modify fun client => { client with stage := some stage }
  finishObject _ content id := do
    let client ← Action.get
    match client.stage with
    | some stage => onHost A (storage.storePieces P stage [content] id)
    | none => Action.fail (.msg "no object was begun")
  openObject kind id := onHost A (storage.openObject kind id)
  readHead := onHost A storage.readHead
  refresh := pure false
  compareAndSwapHead expected next := do
    let client ← Action.get
    onHost A (storage.compareAndSwapHead (names client.host).files expected next)
  observeHead := onHost A storage.observeHead
  compareAndSwapObservedHead observed next := do
    let client ← Action.get
    onHost A (storage.compareAndSwapObservedHead (names client.host).files observed next)
  recoveryHistory _ _ := pure none
  restoreHistoricalObject _ _ _ := pure false
  prepareRecovery _ _ := pure ()

end

section

variable {ι τ : Type} [DecidableEq ι] {i : ι}

/-! ## A carrier -/

/-- A client of a carrier. Its checkout is based on a commit it has seen. -/
structure CarrierClient (ι τ : Type) where
  world : Carrier ι × τ
  /-- The commit the checkout is based on. -/
  base : Option Commit

variable {env : Carrier ι → Carrier ι → Prop} (A : Adversary Carrier.platform env i τ)

def onWorld {α : Type} (x : CarrierProcess α) : Action Error (CarrierClient ι τ) α :=
  Action.zoom CarrierClient.world (fun world client => { client with world }) (x.against A)

def rebase (base : Option Commit) : Action Error (CarrierClient ι τ) Unit :=
  Action.modify fun client => { client with base }

/-- A question about objects, with its answer as the outcome. -/
def onObjects {α : Type} (x : CarrierProcess (Result α)) : Action Error (CarrierClient ι τ) α := do
  Action.lift (← onWorld A x)

/-- `GitStorage::open`. -/
def GitStorage.connect (location : Text) : Action Error (CarrierClient ι τ) GitStorage := do
  let (storage, base) ← onWorld A (GitStorage.open location)
  rebase base
  pure storage

/-- `impl Storage for GitStorage`. -/
def GitStorage.backend (token : Option Commit → Bytes) (storage : GitStorage) :
    Storage (CarrierClient ι τ) where
  beginObject kind := onObjects A (Command.object (.begin kind))
  finishObject kind content id := onObjects A (Command.object (.finish kind content id))
  openObject kind id := onObjects A (Command.object (.open kind id))
  readHead := onWorld A storage.localHead
  refresh := do
    let client ← Action.get
    let (moved, base) ← onWorld A (GitStorage.refresh client.base)
    rebase base
    pure moved
  compareAndSwapHead expected next := do
    let client ← Action.get
    let commit ← onWorld A (storage.compareAndSwapHead client.base expected next)
    rebase (some commit)
  observeHead := do
    let client ← Action.get
    onWorld A (storage.observeHead token client.base)
  compareAndSwapObservedHead observed next := do
    let client ← Action.get
    let commit ← onWorld A (storage.compareAndSwapObservedHead token client.base observed next)
    rebase (some commit)
  recoveryHistory maxCommits maxManifestBytes :=
    onObjects A (Command.object (.recoveryHistory maxCommits maxManifestBytes))
  restoreHistoricalObject kind id maxBytes :=
    onObjects A (Command.object (.restore kind id maxBytes))
  prepareRecovery manifestIds packIds :=
    onObjects A (Command.object (.retain manifestIds packIds))

end

end GitE2EE

import GitE2EE.Model.Chain
import GitE2EE.Model.Continuity
import GitE2EE.Model.Git
import GitE2EE.Model.PackStream

/-!
# Repository operations

Every operation authenticates the chain behind the storage head, requires it to
pass through the machine's floor, does its work, and moves the floor to the head it
accepted or published. Publishing is sealing a successor, storing it, checking that
it opens, and swapping the storage head.

The parts of an operation that touch nothing outside (`prepareTransition`,
`sealNext`, `selfCheck` and the like) are functions of their own, so that the same
definitions describe an operation run alone and its phases among other clients.

Random draws are an argument (`Draws`). An operation returns the chain it
authenticated along with its result, the head it published included.
-/

namespace GitE2EE

open Wire Effect

/-- What an operation can touch: storage, this machine's floor, its checkouts. -/
structure Machine (S G : Type) where
  storage : S
  floor : FloorFile
  git : G

/-- The random draws of one publication. -/
structure Draws where
  generationKey : SecretKey
  linkNonce : Nonce
  packNonce : StreamNonce
  coins : Coins

/-- The result of an operation and the chain it accepted, newest first. -/
structure Accepted (α : Type) where
  value : α
  chain : List (Text × Manifest)

/-- The ids and manifests of a chain. -/
def entriesOf (chain : List OpenedState) : List (Text × Manifest) :=
  chain.map fun s => (s.id, s.manifest)

section

variable {S G : Type} {α : Type}

def onStorage (x : Action Error S α) : Action Error (Machine S G) α :=
  Action.zoom Machine.storage (fun s m => { m with storage := s }) x

def onFloor (x : Action Error FloorFile α) : Action Error (Machine S G) α :=
  Action.zoom Machine.floor (fun f m => { m with floor := f }) x

def onGit (x : Action Error G α) : Action Error (Machine S G) α :=
  Action.zoom Machine.git (fun g m => { m with git := g }) x

end

/-! ## The floor and the chain -/

/-- A chain against the floor it must pass through. -/
def checkFloor (chain : List OpenedState) (current : OpenedState) (floor : ContinuityFloor) :
    Result Unit := do
  bailIf (floor.repositoryRoot ≠ current.manifest.repositoryRoot) "remote repository root changed"
  bailIf (current.manifest.policyGeneration < floor.policyGeneration) "remote policy rolled back"
  bailIf (current.manifest.generation < floor.generation)
    (s!"remote manifest rolled back from generation {floor.generation} to "
      ++ s!"{current.manifest.generation}")
  let pinned ← orBail (chain.find? fun entry => entry.manifest.generation = floor.generation)
    "remote manifest chain ended before pinned generation"
  bailIf (pinned.id ≠ floor.headId) "remote manifest history forked from the locally pinned head"

def validatePinnedHead (chain : List OpenedState) (floor : Option ContinuityFloor) :
    Result Unit := do
  let current ← orBail chain.head? "manifest chain is empty"
  match floor with
  | none => pure ()
  | some floor => checkFloor chain current floor

/-! ## Preparing a manifest -/

/-- A manifest ready to be sealed. -/
structure Prepared where
  policy : PolicyState
  parentPolicy : Option PolicyState
  generationKey : SecretKey
  manifest : Manifest

section

variable (P : Primitives) (key : KeyFile)

/-- The manifest `prepare_genesis` seals. -/
def genesisManifest (ownerLabel : Text) (draws : Draws) : Result Prepared := do
  let (policy, policyBytes) ← PolicyState.genesis P key ownerLabel
  pure ⟨policy, none, draws.generationKey, .genesis key.repositoryRoot policy policyBytes⟩

def requireAdmin (policy : PolicyState) : Result Unit := do
  let deviceId ← key.deviceId P
  bailIf (policy.isActiveAdmin deviceId = false) "device is not an active administrator"

/-- The device list of `add_device`. -/
def addedDevice (pub : PublicDevice) (label : Text) (roles : DeviceRoles)
    (current : OpenedState) : Result (List DeviceRecord) := do
  bailIf ((current.policy.device pub.deviceId).isSome) "device already exists in policy"
  pure (current.policy.body.devices ++ [⟨pub, label, roles, none⟩])

/-- The first active record with the id, revoked at the next policy generation. -/
def revokeFirst (deviceId : Text) (generation : Nat) : List DeviceRecord → List DeviceRecord
  | [] => []
  | device :: rest =>
    if device.pub.deviceId = deviceId ∧ device.active then
      { device with revokedAt := some generation } :: rest
    else device :: revokeFirst deviceId generation rest

/-- The device list of `revoke_device`. -/
def revokedDevice (deviceId : Text) (current : OpenedState) : Result (List DeviceRecord) := do
  let devices := current.policy.body.devices
  bailIf (devices.any (fun d => d.pub.deviceId = deviceId && d.active) = false)
    "device is not active in the current policy"
  let generation ← orBail (checkedAdd current.policy.body.generation 1)
    "policy generation overflow"
  let devices := revokeFirst deviceId generation devices
  bailIf (devices.any DeviceRecord.activeReader = false) "cannot revoke the last active reader"
  bailIf (devices.any DeviceRecord.activeAdministrator = false)
    "cannot revoke the last active administrator"
  pure devices

def transitionManifest (draws : Draws) (current : OpenedState) (policy : PolicyState)
    (policyBytes : Bytes) : Result Manifest := do
  let generation ← orBail (checkedAdd current.manifest.generation 1)
    "manifest generation overflow"
  let wrap ← wrapPredecessorKey P draws.linkNonce draws.generationKey current.generationKey
    current.manifest.repositoryRoot generation current.id
  pure {
    formatVersion := current.manifest.formatVersion
    repositoryRoot := current.manifest.repositoryRoot
    generation
    previous := some current.id
    policyId := policy.id
    policyGeneration := policy.body.generation
    authorization := .policyTransition
    totalPackCount := current.manifest.totalPackCount
    refs := current.manifest.refs
    newPacks := []
    predecessorKeyWrap := some wrap
    introducedPolicy := some policyBytes }

/-- The part of `change_policy` between the pinned head and the commit. -/
def prepareTransition (nextDevices : OpenedState → Result (List DeviceRecord)) (draws : Draws)
    (current : OpenedState) : Result Prepared := do
  requireAdmin P key current.policy
  let devices ← nextDevices current
  let (nextPolicy, policyBytes) ← PolicyState.successor P current.policy devices key
  let next ← transitionManifest P draws current nextPolicy policyBytes
  nextPolicy.validateSuccessor P current.policy
  pure ⟨nextPolicy, some current.policy, draws.generationKey, next⟩

/-- The writer manifest of `publish_refs` for the packs it stored. The count is the
source's unchecked `total_pack_count += 1`, which wraps around in a release build. -/
def prepareRefs (draws : Draws) (current : OpenedState) (generation : Nat)
    (newPacks : List PackDescriptor) (nextRefs : RefMap) : Result Prepared := do
  let wrap ← wrapPredecessorKey P draws.linkNonce draws.generationKey current.generationKey
    current.manifest.repositoryRoot generation current.id
  pure {
    policy := current.policy
    parentPolicy := none
    generationKey := draws.generationKey
    manifest := {
      formatVersion := current.manifest.formatVersion
      repositoryRoot := current.manifest.repositoryRoot
      generation
      previous := some current.id
      policyId := current.policy.id
      policyGeneration := current.policy.body.generation
      authorization := .writer
      totalPackCount := (current.manifest.totalPackCount + newPacks.length) % 2 ^ 64
      refs := nextRefs
      newPacks
      predecessorKeyWrap := some wrap
      introducedPolicy := none } }

/-! ## Sealing and committing -/

/-- The position of a prepared manifest above the head it was prepared from. -/
def validatePosition (previous : Option OpenedState) (prepared : Prepared) : Result Unit :=
  match previous with
  | some previous =>
    prepared.manifest.validateSuccessor P previous.id previous.manifest prepared.policy
  | none => prepared.manifest.validateGenesis P prepared.policy

/-- The bytes `seal_and_store_manifest` stores, and their id. -/
def sealNext (coins : Coins) (previous : Option OpenedState) (prepared : Prepared) :
    Result (Text × Bytes) := do
  validatePosition P previous prepared
  let encrypted ← sealManifest P coins key prepared.policy prepared.generationKey
    prepared.manifest.authorization prepared.manifest
  pure (objectId P encrypted, encrypted)

/-- The new predecessor link leads to the parent's key. -/
def checkLink (generationKey : SecretKey) (opened : OpenedManifest) :
    Option OpenedState → Result Unit
  | none => pure ()
  | some previous => do
    let recovered ← unwrapPredecessorKey P generationKey opened.manifest previous.header
    bailIf (recovered ≠ previous.generationKey)
      "new manifest predecessor link did not recover the parent key"

/-- What `seal_and_store_manifest` checks after storing. -/
def selfCheck (previous : Option OpenedState) (prepared : Prepared) (encrypted : Bytes) :
    Result Unit := do
  let opened ← openManifest P encrypted prepared.generationKey
  verifyManifest P opened prepared.policy prepared.parentPolicy prepared.generationKey
  checkLink P prepared.generationKey opened previous
  bailIf (opened.header.generation ≠ prepared.manifest.generation)
    "new manifest self-check changed generation"

end

section

variable {S G : Type} (P : Primitives) (storage : Storage S) (repo : GitRepository G)
variable (key : KeyFile)

/-- Seals a manifest, stores it as an object, and checks that it opens. No head moves. -/
def sealAndStoreManifest (coins : Coins) (previous : Option OpenedState) (prepared : Prepared) :
    Action Error S Text := do
  let (id, encrypted) ← Action.lift (sealNext P key coins previous prepared)
  storage.putObjectIfAbsent .manifest id encrypted
  Action.lift (selfCheck P previous prepared encrypted)
  pure id

/-- Swaps the head, against an observation if there is one. -/
def swapHead (previous : Option OpenedState) (observation : Option HeadObservation) (id : Text) :
    Action Error S Unit :=
  match observation with
  | some observation => storage.compareAndSwapObservedHead observation id
  | none => storage.compareAndSwapHead (previous.map OpenedState.id) id

def commitManifestWithObservation (coins : Coins) (previous : Option OpenedState)
    (observation : Option HeadObservation) (prepared : Prepared) : Action Error S Text := do
  let id ← sealAndStoreManifest P storage key coins previous prepared
  swapHead storage previous observation id
  pure id

def commitManifest (coins : Coins) (previous : Option OpenedState) (prepared : Prepared) :
    Action Error S Text :=
  commitManifestWithObservation P storage key coins previous none prepared

/-! ## Operations -/

def lockFloor : Action Error (Machine S G) Unit := onFloor FloorGuard.acquire

/-- A view that fails the floor is refreshed once. -/
def refreshedChain (floor : Option ContinuityFloor) (error : Error) :
    Action Error (Machine S G) (List OpenedState) := do
  let refreshed ← onStorage storage.refresh
  if refreshed = false then Action.fail error
  else do
    let chain ← onStorage (currentChain P storage key)
    Action.lift (validatePinnedHead chain floor)
    pure chain

/-- Authenticates the storage chain and requires it to pass through the floor. -/
def pinnedChain : Action Error (Machine S G) (List OpenedState) := do
  let floor ← onFloor FloorGuard.read
  let chain ← onStorage (currentChain P storage key)
  match validatePinnedHead chain floor with
  | .ok () => pure chain
  | .error error => refreshedChain P storage key floor error

/-- The pinned chain and its head. -/
def pinnedState : Action Error (Machine S G) (OpenedState × List OpenedState) := do
  let chain ← pinnedChain P storage key
  let current ← Action.lift (orBail chain.head? "manifest chain is empty")
  pure (current, chain)

def advanceFloor (id : Text) (manifest : Manifest) : Action Error (Machine S G) Unit :=
  onFloor (FloorGuard.advance (ContinuityFloor.at id manifest))

/-- Seals and stores a genesis manifest, on a machine that pins nothing yet and
storage that has no head. -/
def prepareGenesis (ownerLabel : Text) (draws : Draws) :
    Action Error (Machine S G) (Prepared × Text) := do
  lockFloor
  let head ← onStorage storage.readHead
  Action.lift (bailIf head.isSome "encrypted repository is already initialized")
  let floor ← onFloor FloorGuard.read
  Action.lift (bailIf floor.isSome (s!"this machine already pins repository root "
    ++ s!"{render key.repositoryRoot}; refusing to initialize other storage for it"))
  let prepared ← Action.lift (genesisManifest P key ownerLabel draws)
  let id ← onStorage (sealAndStoreManifest P storage key draws.coins none prepared)
  pure (prepared, id)

/-- Where `initialize` stopped. -/
inductive InitializeError where
  | beforePublication (error : Error)
  | publicationUncertain (error : Error)
  | afterPublication (id : Text) (error : Error)

/-- Storage that refused as occupied wrote nothing. -/
def swapFailure (error : Error) : InitializeError :=
  if error.isStorageOccupied then .beforePublication error else .publicationUncertain error

/-- `initialize`. -/
def initializeRepository (ownerLabel : Text) (draws : Draws) :
    Action InitializeError (Machine S G) (Accepted Text) := do
  let (prepared, id) ← Action.mapError .beforePublication
    (prepareGenesis P storage key ownerLabel draws)
  Action.mapError swapFailure (onStorage (storage.compareAndSwapHead none id))
  Action.mapError (.afterPublication id) (advanceFloor id prepared.manifest)
  pure ⟨id, [(id, prepared.manifest)]⟩

def changePolicy (nextDevices : OpenedState → Result (List DeviceRecord)) (draws : Draws) :
    Action Error (Machine S G) (Accepted (Text × Text)) := do
  lockFloor
  let (current, chain) ← pinnedState P storage key
  let prepared ← Action.lift (prepareTransition P key nextDevices draws current)
  let id ← onStorage (commitManifest P storage key draws.coins (some current) prepared)
  advanceFloor id prepared.manifest
  pure ⟨(id, prepared.policy.id), (id, prepared.manifest) :: entriesOf chain⟩

def addDevice (pub : PublicDevice) (label : Text) (roles : DeviceRoles) (draws : Draws) :
    Action Error (Machine S G) (Accepted (Text × Text)) :=
  changePolicy P storage key (addedDevice pub label roles) draws

def revokeDevice (deviceId : Text) (draws : Draws) :
    Action Error (Machine S G) (Accepted (Text × Text)) :=
  changePolicy P storage key (revokedDevice deviceId) draws

def pinnedHead : Action Error (Machine S G) (Accepted OpenedState) := do
  lockFloor
  let (current, chain) ← pinnedState P storage key
  advanceFloor current.id current.manifest
  pure ⟨current, entriesOf chain⟩

def listDevices : Action Error (Machine S G) (Accepted (List DeviceRecord)) := do
  let head ← pinnedHead P storage key
  pure ⟨head.value.policy.body.devices, head.chain⟩

def currentManifest : Action Error (Machine S G) (Accepted (Text × Manifest)) := do
  let head ← pinnedHead P storage key
  pure ⟨(head.value.id, head.value.manifest), head.chain⟩

/-! ### Push -/

structure PushOutcome where
  refs : List RefOutcome
  /-- The head after the batch. Its error fails every accepted ref. -/
  publication : Result Text

/-- Who may push. -/
def requireWriter (policy : PolicyState) : Result Unit := do
  let deviceId ← key.deviceId P
  if policy.isActiveWriter deviceId then pure ()
  else if policy.isActiveReader deviceId then .error (.of .readOnlyDevice)
  else bail "device is not an active writer"

/-- The refs whose targets the local repository holds. -/
def knownRefs : List (Text × Text) → RefMap → Action Error G RefMap
  | [], known => pure known
  | (reference, object) :: rest, known => do
    let present ← repo.objectExists object
    knownRefs rest (if present then known.insert reference object else known)

/-- The descriptor of a stored pack. -/
def describePack (generation ordinal : Nat) (sealed : StreamSealResult) : PackDescriptor where
  id := sealed.objectId
  plaintextSize := sealed.plaintextSize
  generation := generation
  ordinal := ordinal

/-- The pack of a push, encrypted and stored as the manifest's pack 0. -/
def storePack (draws : Draws) (current : OpenedState) (generation : Nat) (packRefs : RefMap) :
    Action Error (Machine S G) PackDescriptor := do
  let exclusions ← onGit (knownRefs repo current.manifest.refs.entries .empty)
  let packKey ← Action.lift (deriveSubkey P draws.generationKey current.manifest.repositoryRoot
    generation .pack 0)
  let source ← onGit (repo.startIncrementalPack packRefs exclusions)
  onStorage (storage.beginObject .pack)
  let sealed ← Action.lift (sealPackStream P packKey draws.packNonce source
    (packAad current.manifest.repositoryRoot generation 0))
  onGit repo.finishPack
  onStorage (storage.finishObject .pack sealed.ciphertext sealed.objectId)
  pure (describePack generation 0 sealed)

/-- The packs of a push: at most one. -/
def storePacks (draws : Draws) (current : OpenedState) (generation : Nat) (packRefs : RefMap) :
    Action Error (Machine S G) (List PackDescriptor) :=
  if packRefs.isEmpty then pure []
  else do
    let pack ← storePack P storage repo draws current generation packRefs
    pure [pack]

/-- What a publication records about the checkout it came from. -/
def recordPublication (parentRefs nextRefs : RefMap) : Action Error G Unit := do
  repo.openCheckout
  let progress ← Checkout.read repo
  let git ← Action.get
  if progress.verifiedRefs = parentRefs ∧ repo.hasCompleteObjectGraph git then
    Checkout.write repo { progress with verifiedRefs := nextRefs }
  else pure ()

/-- `publish_refs`. -/
def publishRefs (draws : Draws) (current : OpenedState) (chain : List OpenedState)
    (nextRefs packRefs : RefMap) : Action Error (Machine S G) (Accepted Text) := do
  let generation ← Action.lift (orBail (checkedAdd current.manifest.generation 1)
    "manifest generation overflow")
  let newPacks ← storePacks P storage repo draws current generation packRefs
  let prepared ← Action.lift (prepareRefs P draws current generation newPacks nextRefs)
  let id ← onStorage (commitManifest P storage key draws.coins (some current) prepared)
  advanceFloor id prepared.manifest
  onGit (recordPublication repo current.manifest.refs nextRefs)
  pure ⟨id, (id, prepared.manifest) :: entriesOf chain⟩

/-- The publication of a batch, as an outcome: its error is not the push's error. -/
def pushPublication (mode : PushMode) (draws : Draws) (current : OpenedState)
    (chain : List OpenedState) (nextRefs packRefs : RefMap) :
    Action Error (Machine S G) (Result (Accepted Text)) :=
  if mode = .dryRun ∨ nextRefs = current.manifest.refs then do
    advanceFloor current.id current.manifest
    pure (.ok ⟨current.id, entriesOf chain⟩)
  else Action.attempt (publishRefs P storage repo key draws current chain nextRefs packRefs)

def push (pushes : List RefPush) (mode : PushMode) (draws : Draws) :
    Action Error (Machine S G) (Accepted PushOutcome) := do
  lockFloor
  let (current, chain) ← pinnedState P storage key
  Action.lift (requireWriter P key current.policy)
  Action.lift (validateInnerRefs current.manifest.refs)
  let batch ← onGit (pushChanges repo current.manifest.refs
    ⟨[], current.manifest.refs, .empty, []⟩ pushes)
  let publication ← pushPublication P storage repo key mode draws current chain batch.nextRefs
    batch.packRefs
  pure ⟨⟨batch.refs, publication.map Accepted.value⟩,
    (publication.map Accepted.chain).toOption.getD (entriesOf chain)⟩

/-- A line of the helper's answer to a push batch. -/
inductive PushReport where
  | ok (destination : Text)
  | error (destination : Text) (error : Error)

/-- What the helper answers for one change of a batch that was checked. -/
def reportChange (publication : Result Text) (push : RefPush) : RefOutcome → PushReport
  | .rejected error => .error push.destination error
  | .accepted =>
    match publication with
    | .ok _ => .ok push.destination
    | .error error => .error push.destination error

/-- The answer of `process_push_batch`, before the empty line that ends it. -/
def reportPush (pushes : List RefPush) : Result PushOutcome → List PushReport
  | .error error => pushes.map fun push => .error push.destination error
  | .ok outcome => (pushes.zip outcome.refs).map fun (push, result) =>
      reportChange outcome.publication push result

/-! ### Fetching and verifying -/

/-- Decrypts one pack of an authenticated chain entry into `write`. -/
def openChainPack (write : Bytes → Action Error (Machine S G) Unit) (entry : OpenedState)
    (descriptor : PackDescriptor) : Action Error (Machine S G) Unit := do
  let encrypted ← onStorage (storage.openObject .pack descriptor.id)
  let packKey ← Action.lift (deriveSubkey P entry.generationKey entry.manifest.repositoryRoot
    descriptor.generation .pack descriptor.ordinal)
  let _ ← openPackStream P write packKey encrypted
    (packAad entry.manifest.repositoryRoot descriptor.generation descriptor.ordinal)
    descriptor.plaintextSize descriptor.id
  pure ()

/-- One pack of an entry, into Git. -/
def importPack (entry : OpenedState) (descriptor : PackDescriptor) :
    Action Error (Machine S G) Unit := do
  onGit repo.startPackImport
  openChainPack P storage (fun plain => onGit (repo.writePackImport plain)) entry descriptor
  onGit repo.finishPackImport

/-- Runs `step` on each element in order. -/
def forEach {σ α : Type} (step : α → Action Error σ Unit) : List α → Action Error σ Unit
  | [] => pure ()
  | a :: rest => do
    step a
    forEach step rest

/-- Imports, oldest first, the packs of every entry newer than `afterGeneration`. -/
def importChainPacks (chain : List OpenedState) (afterGeneration : Option Nat) :
    Action Error (Machine S G) Unit :=
  forEach (fun entry =>
    if afterGeneration.any (fun generation => entry.manifest.generation ≤ generation) then pure ()
    else forEach (importPack P storage repo entry) entry.manifest.newPacks) chain.reverse

/-- What a listing records when the advertised refs are connected already. -/
def recordObservation (current : OpenedState) : Action Error G Unit := do
  let progress ← Checkout.read repo
  let connected ← Action.attempt
    (repo.ensureRefsConnectedSince current.manifest.refs progress.verifiedRefs)
  if connected.isOk then
    Checkout.write repo { progress with
      importedGeneration := some current.manifest.generation
      verifiedRefs := current.manifest.refs }
  else pure ()

def observeManifest : Action Error (Machine S G) (Accepted Manifest) := do
  lockFloor
  onGit repo.openCheckout
  let (current, chain) ← pinnedState P storage key
  Action.lift (validateInnerRefs current.manifest.refs)
  advanceFloor current.id current.manifest
  onGit (recordObservation repo current)
  pure ⟨current.manifest, entriesOf chain⟩

/-- Recorded progress is a cache: when the refs are not connected after all, the whole
chain is imported again. -/
def ensureImported (current : OpenedState) (chain : List OpenedState)
    (progress : CheckoutProgress) : Action Error (Machine S G) Unit := do
  importChainPacks P storage repo chain progress.importedGeneration
  let connected ← onGit (Action.attempt
    (repo.ensureRefsConnectedSince current.manifest.refs progress.verifiedRefs))
  if connected.isOk then pure ()
  else do
    importChainPacks P storage repo chain none
    onGit (repo.ensureRefsConnectedSince current.manifest.refs .empty)

def importPacks : Action Error (Machine S G) (Accepted Manifest) := do
  lockFloor
  onGit repo.openCheckout
  let (current, chain) ← pinnedState P storage key
  Action.lift (validateInnerRefs current.manifest.refs)
  let progress ← onGit (Checkout.read repo)
  ensureImported P storage repo current chain progress
  advanceFloor current.id current.manifest
  onGit (Checkout.write repo
    ⟨CHECKOUT_PROGRESS_FORMAT, some current.manifest.generation, current.manifest.refs⟩)
  pure ⟨current.manifest, entriesOf chain⟩

/-- The packs of one entry, opened into nothing and counted. -/
def countPacks (entry : OpenedState) : Nat → List PackDescriptor → Action Error (Machine S G) Nat
  | count, [] => pure count
  | count, descriptor :: rest => do
    openChainPack P storage (fun _ => pure ()) entry descriptor
    countPacks entry (count + 1) rest

/-- The packs of a chain, oldest first. -/
def countChainPacks : Nat → List OpenedState → Action Error (Machine S G) Nat
  | count, [] => pure count
  | count, entry :: rest => do
    let count ← countPacks P storage entry count entry.manifest.newPacks
    countChainPacks count rest

def verifyCiphertext : Action Error (Machine S G) (Accepted Manifest) := do
  lockFloor
  let (current, chain) ← pinnedState P storage key
  let count ← countChainPacks P storage 0 chain.reverse
  Action.lift (bailIf (count ≠ current.manifest.totalPackCount)
    "manifest delta log pack count mismatch")
  advanceFloor current.id current.manifest
  pure ⟨current.manifest, entriesOf chain⟩

end

end GitE2EE

import GitE2EE.Model.Manifest
import GitE2EE.Model.Storage

/-!
# Reading a manifest chain

`chainFrom` walks from a head to genesis. It opens each manifest with the key its
successor's predecessor link holds, and only then, oldest first, authenticates
what it opened (`verifyOpenedChain`).

The walk is generic in where manifests come from: `readMaterial` is any action on
any state, and `charge` is what a recovery budget does with each manifest before a
key is used on it (nothing at all outside recovery).
-/

namespace GitE2EE

open Wire Effect

/-- What reading one manifest yields: its id, its bytes, its plaintext header. -/
structure Material where
  id : Text
  encrypted : Bytes
  header : ManifestHeader

/-- A manifest that opened but is not yet authenticated. -/
structure Unverified where
  id : Text
  opened : OpenedManifest
  generationKey : SecretKey

structure OpenedState where
  id : Text
  manifest : Manifest
  header : ManifestHeader
  policy : PolicyState
  generationKey : SecretKey
  verifiedSigner : Text
deriving DecidableEq

/-- Marks a failure of authenticated content as proven invalid, unless the content
is merely in a format this implementation does not support. -/
def provenInvalid (e : Error) : Error :=
  if e.isUnsupported then e else { e with notes := .invalidState :: e.notes }

/-- `.map_err(proven_invalid)`. -/
def orInvalid {α : Type} (r : Result α) : Result α := r.mapError provenInvalid

@[simp] theorem orInvalid_eq_ok {α : Type} {r : Result α} {a : α} :
    orInvalid r = .ok a ↔ r = .ok a := by
  cases r <;> simp [orInvalid, Except.mapError]

/-! ## Authentication, oldest first -/

/-- Adds the pack ids of one manifest to the ids seen in the chain. -/
def insertPackIds (seen : List Text) : List PackDescriptor → Result (List Text)
  | [] => pure seen
  | pack :: rest => do
    bailIf (pack.id ∈ seen) s!"manifest chain repeats pack {render pack.id}"
    insertPackIds (pack.id :: seen) rest

/-- The policy a genesis manifest selects. -/
def genesisPolicy (P : Primitives) (root : Text) (manifest : Manifest) : Result PolicyState := do
  let policyBytes ← orBail manifest.introducedPolicy
    "genesis manifest is missing its introduced policy"
  let policy ← PolicyState.parse P policyBytes
  policy.validateGenesis P root
  manifest.validateGenesis P policy
  pure policy

/-- The policy a later manifest names, and the parent policy when it changed. -/
def namedPolicy (P : Primitives) (parent : PolicyState) (manifest : Manifest) :
    Result (PolicyState × Option PolicyState) :=
  match manifest.authorization with
  | .writer => do
    bailIf manifest.introducedPolicy.isSome "ordinary manifest unexpectedly introduces a policy"
    pure (parent, none)
  | .policyTransition => do
    let bytes ← orBail manifest.introducedPolicy
      "policy transition is missing its introduced policy"
    let policy ← PolicyState.parse P bytes
    policy.validateSuccessor P parent
    pure (policy, some parent)
  | .checkpoint =>
    .error (.of (.unsupported "checkpoint transitions are reserved but not implemented"))

/-- The policy a later manifest selects, and the parent policy when it changed. -/
def successorPolicy (P : Primitives) (parent : OpenedState) (manifest : Manifest) :
    Result (PolicyState × Option PolicyState) := do
  let (policy, parentPolicy) ← namedPolicy P parent.policy manifest
  manifest.validateSuccessor P parent.id parent.manifest policy
  pure (policy, parentPolicy)

/-- The policy and parent policy of the next manifest, above `chain`. -/
def selectPolicy (P : Primitives) (root : Text) (chain : List OpenedState) (manifest : Manifest) :
    Result (PolicyState × Option PolicyState) :=
  match chain with
  | [] => do pure (← genesisPolicy P root manifest, none)
  | parent :: _ => successorPolicy P parent manifest

/-- One manifest above the authenticated `chain` (newest first). -/
def verifyEntry (P : Primitives) (root : Text) (chain : List OpenedState) (entry : Unverified) :
    Result OpenedState := do
  let (policy, parentPolicy) ← selectPolicy P root chain entry.opened.manifest
  verifyManifest P entry.opened policy parentPolicy entry.generationKey
  pure {
    id := entry.id
    manifest := entry.opened.manifest
    header := entry.opened.header
    policy
    generationKey := entry.generationKey
    verifiedSigner := entry.opened.claimedSignerId }

/-- The loop of `verify_opened_chain`: the manifests still to check, oldest first,
above the authenticated `chain`, newest first. -/
def verifyEntries (P : Primitives) (root : Text) (chain : List OpenedState)
    (seenPackIds : List Text) : List Unverified → Result (List OpenedState)
  | [] => pure chain
  | entry :: rest => do
    let seenPackIds ← insertPackIds seenPackIds entry.opened.manifest.newPacks
    let state ← verifyEntry P root chain entry
    verifyEntries P root (state :: chain) seenPackIds rest

/-- Authenticates opened manifests, given and returned newest first. -/
def verifyOpenedChain (P : Primitives) (root : Text) (unverified : List Unverified) :
    Result (List OpenedState) :=
  verifyEntries P root [] [] unverified.reverse

/-! ## The walk -/

section

variable {σ : Type} (P : Primitives) (key : KeyFile)
variable (readMaterial : Text → Action Error σ Material)
variable (charge : ManifestHeader → Nat → Action Error σ Unit)

/-- The loop of `chain_from`, from one opened manifest down to genesis. The fuel is
a bound on the manifests left to read; `chainLoop_fuel` shows that one more than
the generation of the opened manifest always suffices. -/
def chainLoop : Nat → List Text → Unverified → Action Error σ (List Unverified)
  | 0, _, _ => Action.fail (.msg "manifest walk bound exceeded")
  | fuel + 1, seen, entry => do
    if entry.id ∈ seen then
      Action.fail (provenInvalid (.msg "manifest chain contains a cycle"))
    else match entry.opened.manifest.previous with
    | none =>
      if entry.opened.manifest.generation ≠ 0 then
        Action.fail (provenInvalid (.msg "manifest chain terminated above generation zero"))
      else pure [entry]
    | some previousId => do
      let parent ← readMaterial previousId
      charge parent.header parent.encrypted.length
      let parentKey ← Action.lift (orInvalid
        (unwrapPredecessorKey P entry.generationKey entry.opened.manifest parent.header))
      let opened ← Action.lift (orInvalid (openManifest P parent.encrypted parentKey))
      if opened.header ≠ parent.header then
        Action.fail (provenInvalid (.msg "predecessor manifest header changed while opening"))
      else do
        let rest ← chainLoop fuel (entry.id :: seen) ⟨parent.id, opened, parentKey⟩
        pure (entry :: rest)

/-- Opens the head of a chain with this device's own envelope. -/
def openHead (head : Text) : Action Error σ Unverified := do
  let material ← readMaterial head
  charge material.header material.encrypted.length
  let generationKey ← Action.lift (unwrapGenerationKey P material.header key)
  let opened ← Action.lift (orInvalid (openManifest P material.encrypted generationKey))
  pure ⟨material.id, opened, generationKey⟩

def chainFrom (head : Text) : Action Error σ (List OpenedState) := do
  let entry ← openHead P key readMaterial charge head
  let unverified ← chainLoop P readMaterial charge
    (entry.opened.manifest.generation + 1) [] entry
  Action.lift (orInvalid (verifyOpenedChain P key.repositoryRoot unverified))

end

/-- No budget. -/
def unbudgeted {σ : Type} (_ : ManifestHeader) (_ : Nat) : Action Error σ Unit := pure ()

/-- What `read_manifest_material` makes of the bytes stored under `id`. -/
def checkMaterial (P : Primitives) (id : Text) (bytes : Bytes) : Result Material :=
  if objectId P bytes ≠ id then .error (provenInvalid (.msg "manifest ciphertext hash mismatch"))
  else do
    let header ← orInvalid (peekManifestHeader P bytes)
    pure ⟨id, bytes, header⟩

def readManifestMaterial {S : Type} (P : Primitives) (storage : Storage S) (id : Text) :
    Action Error S Material := do
  let bytes ← storage.getObject .manifest id
  Action.lift (checkMaterial P id bytes)

def currentChain {S : Type} (P : Primitives) (storage : Storage S) (key : KeyFile) :
    Action Error S (List OpenedState) := do
  let head ← storage.readHead
  let head ← Action.lift (orBail head "encrypted repository is not initialized")
  chainFrom P key (readManifestMaterial P storage) unbudgeted head

end GitE2EE

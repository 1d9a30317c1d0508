import GitE2EE.Model.Carrier
import GitE2EE.Model.Filesystem

/-!
# The carrier backend, command by command

`impl Storage for GitStorage` and the cache it fetches through, as clients over the
commands they run, in the order they run them.

The carrier's branch is seen when the storage is opened and again before every swap: the
swap goes on only if the branch is still where it was. It then writes HEAD into the
checkout, commits it on top of that, and pushes. A push that reports a failure is judged
by a second fetch.

The commit the checkout is based on is memory of the client, so it is an argument here,
and a swap that publishes returns the next one. Command lines in messages are cut short.
-/

namespace GitE2EE

open Wire Effect

/-- `command(..)?` with the action for the message. -/
def orFail {α : Type} (action : String) (reply : Except CommandFailure α) : CarrierProcess α :=
  Thread.lift (reply.mapError (CommandFailure.error action))

/-! ## The cache -/

/-- Why a fetch failed: only with the remote reachable can it be the cache. -/
inductive FetchError where
  | remote (error : Error)
  | «local» (error : Error)

def FetchError.inner : FetchError → Error
  | remote error | «local» error => error

namespace CarrierCache

def lock : CarrierProcess Unit := do
  orFail "lock carrier cache" (← Command.lockCache)

def isCorrupt : CarrierProcess Bool := do
  orFail "git fsck" (← Command.cacheCorrupt)

def rebuild : CarrierProcess Unit := do
  orFail "rebuild carrier cache" (← Command.rebuildCache)

/-- `fetch_carrier_branch`. -/
def fetchCarrierBranch : CarrierProcess (Except FetchError (Option Commit)) := do
  match ← Command.fetch with
  | .ok () =>
    match ← Command.cachedTip with
    | .ok tip => pure (.ok tip)
    | .error failure => pure (.error (.local (failure.error "git rev-parse")))
  | .error (.spawn fault) => pure (.error (.local (ioError fault)))
  | .error (.exit stderr) =>
    match ← Command.lsRemote with
    | .error failure =>
      pure (.error (.remote ((failure.error "git ls-remote carrier branch").context
        s!"git fetch carrier branch failed: {stderr}")))
    | .ok true => pure (.error (.local (.msg s!"git fetch carrier branch failed: {stderr}")))
    | .ok false =>
      match ← Command.setCachedTip none with
      | .ok () => pure (.ok none)
      | .error failure =>
        pure (.error (.local (failure.error "git update-ref delete missing carrier branch")))

/-- The branch on the remote, through a cache that is rebuilt once if it is corrupt. -/
def refresh : CarrierProcess (Option Commit) := do
  orFail "initialize carrier cache" (← Command.initializeCache)
  match ← fetchCarrierBranch with
  | .ok tip => pure tip
  | .error (.remote error) => Thread.fail error
  | .error (.local fetchError) => do
    if ← isCorrupt then do
      rebuild
      match ← fetchCarrierBranch with
      | .ok tip => pure tip
      | .error error => Thread.fail (error.inner.context
          "fetch carrier branch after rebuilding corrupt cache")
    else Thread.fail fetchError

def updatePublishedTip (commit : Commit) : CarrierProcess Unit := do
  orFail "git update-ref" (← Command.setCachedTip (some commit))

end CarrierCache

/-! ## The storage -/

structure GitStorage where
  location : Text
  remote : Text
  branch : Text
  /-- The branch is absent, but the remote has a branch of format 4. -/
  format4Branch : Bool

namespace GitStorage

def FORMAT_4_BRANCH : Text := text "git-remote-e2ee"

/-- `create_carrier_checkout`, once more after rebuilding a corrupt cache. -/
def checkOut (base : Option Commit) : CarrierProcess (Option Commit) := do
  match ← Command.createCheckout base with
  | .ok () => pure base
  | .error failure => do
    if ← CarrierCache.isCorrupt then do
      CarrierCache.rebuild
      let base ← CarrierCache.refresh
      match ← Command.createCheckout base with
      | .ok () => pure base
      | .error failure => Thread.fail ((failure.error "git").context
          "create carrier checkout after rebuilding corrupt cache")
    else Thread.fail ((failure.error "git").context "create carrier checkout")

def hasFormat4Branch (branch : Text) (base : Option Commit) : CarrierProcess Bool := do
  if base.isNone ∧ branch ≠ FORMAT_4_BRANCH then
    orFail "git ls-remote carrier branches" (← Command.lsFormat4)
  else pure false

/-- `GitStorage::open`: the storage, and the commit its checkout is based on. -/
def «open» (location : Text) : CarrierProcess (GitStorage × Option Commit) := do
  let (remote, branch) ← Thread.lift (parseCarrierLocation location)
  CarrierCache.lock
  let base ← CarrierCache.refresh
  let base ← checkOut base
  let format4Branch ← hasFormat4Branch branch base
  pure (⟨location, remote, branch, format4Branch⟩, base)

variable (storage : GitStorage)

/-- `carrier_blob`. -/
def carrierBlob (commit : Commit) (name : Text) (limit : Nat) : CarrierProcess Bounded := do
  let entry ← orFail "git cat-file" (← Command.blob commit name)
  pure (readRegularBounded limit entry)

/-- A root file of the checkout, or of the commit it is based on. -/
def localRootFile (name : Text) (limit : Nat) : CarrierProcess Bounded := do
  let entry ← Thread.lift ((← Command.readWork name).mapError fun failure =>
    (ioError failure.fault).context s!"read carrier {render name}")
  match readRegularBounded limit entry with
  | .absent =>
    match ← orFail "git rev-parse HEAD" (← Command.revParseHead) with
    | none => pure .absent
    | some commit => carrierBlob commit name limit
  | found => pure found

def unsupported (message : String) : Error := .of (.unsupported message)

def formatContent : Bounded → Result (Option Bytes)
  | .absent => pure none
  | .within content => pure (some content)
  | .oversized | .notRegular => bail "carrier FORMAT is not a small regular file"

/-- Where there is neither FORMAT nor HEAD, storage of format 4 is told apart. -/
def checkFormat4 (former : Bounded) : Result Unit :=
  if former ≠ .absent then
    .error (unsupported (s!"branch {render storage.branch} of {render storage.remote} "
      ++ "holds format 4 storage; this git-remote-e2ee reads format 6"))
  else if storage.format4Branch then
    .error (unsupported (s!"{render storage.remote} has no storage on branch "
      ++ s!"{render storage.branch}, but its branch {render FORMAT_4_BRANCH} holds format 4 "
      ++ "storage; this git-remote-e2ee reads format 6. Migrate that storage to format 6 and "
      ++ "delete the branch before using this remote"))
  else .ok ()

def refuseFormat4 : CarrierProcess Unit := do
  let former ← localRootFile (text "e2ee/HEAD") MAX_HEAD_BYTES
  Thread.lift (storage.checkFormat4 former)

def checkFormat : CarrierProcess Unit := do
  let format ← localRootFile FilesystemStorage.FORMAT Directory.MAX_STORAGE_FORMAT_BYTES
  let format ← Thread.lift (formatContent format)
  let head ← localRootFile FilesystemStorage.HEAD MAX_HEAD_BYTES
  let headPresent := decide (head ≠ .absent)
  let check := Directory.checkStorageFormat (render storage.location) format headPresent
  if format.isNone ∧ headPresent = false then do
    storage.refuseFormat4
    Thread.lift check
  else Thread.lift check

def localStoredHead : CarrierProcess (Option StoredHead) := do
  storage.checkFormat
  pure (StoredHead.fromBounded (← localRootFile FilesystemStorage.HEAD MAX_HEAD_BYTES))

def localHead : CarrierProcess (Option Text) := do
  match ← storage.localStoredHead with
  | none => pure none
  | some head => do pure (some (← Thread.lift head.parse))

def storedHeadAtCommit (commit : Commit) : CarrierProcess (Option StoredHead) := do
  pure (StoredHead.fromBounded (← carrierBlob commit FilesystemStorage.HEAD MAX_HEAD_BYTES))

/-- The manifest a conflicting tip names, for messages only. -/
def conflictingHead : Option Commit → CarrierProcess (Option Text)
  | none => pure none
  | some commit => do
    match ← (storedHeadAtCommit commit).attempt with
    | .ok (some head) => pure head.headId
    | _ => pure none

/-- A branch that exists without a HEAD holds someone else's content. -/
def refuseForeignBranch (headless : Bool) (base : Option Commit) : Result Unit :=
  if headless ∧ base.isSome then
    .error (.of (.storageOccupied (s!"branch {render storage.branch} of {render storage.remote} "
      ++ "already exists; use an empty repository or choose another branch with "
      ++ s!"e2ee::{render storage.remote}#<branch>")))
  else .ok ()

/-! ## Publishing -/

def writeWork (name : Text) (content : Bytes) : CarrierProcess Unit := do
  Thread.lift ((← Command.writeWork name content).mapError fun failure =>
    ioError failure.fault)

/-- HEAD, with the notice and FORMAT when this publication creates the branch. -/
def writeCheckoutHead (next : Text) (genesis : Bool) : CarrierProcess Unit := do
  if genesis then do
    writeWork FilesystemStorage.README (FilesystemStorage.storageReadme "This branch")
    writeWork FilesystemStorage.FORMAT Directory.STORAGE_FORMAT
    writeWork FilesystemStorage.HEAD (next ++ [10])
  else writeWork FilesystemStorage.HEAD (next ++ [10])

/-- What a push that reported a failure comes to, by the branch as it is fetched then. -/
def judgePush (expected : Option Text) (base : Option Commit) (commit : Commit)
    (pushError : Error) : CarrierProcess Unit := do
  match ← CarrierCache.refresh.attempt with
  | .error _ => Thread.fail pushError
  | .ok latest =>
    if latest = some commit then pure ()
    else if latest = base then Thread.fail pushError
    else do
      let actual ← conflictingHead latest
      Thread.fail (.of (.casConflict expected actual))

/-- Commits the checkout on top of `base` and points the branch at the commit. -/
def commitHead (next : Text) (base : Option Commit) : CarrierProcess Commit := do
  writeCheckoutHead next base.isNone
  orFail "git add" (← Command.stageCheckout)
  let tree ← orFail "git write-tree" (← Command.writeTree)
  let commit ← orFail "git commit-tree" (← Command.commitTree base tree)
  orFail "git update-ref" (← Command.updateRef (some commit))
  pure commit

/-- Pushes the commit, and judges a push that reported a failure. -/
def pushHead (expected : Option Text) (base : Option Commit) (commit : Commit) :
    CarrierProcess Unit := do
  match ← Command.push with
  | .ok () => pure ()
  | .error (.spawn fault) => Thread.fail (ioError fault)
  | .error (.exit stderr) =>
    judgePush expected base commit (.msg s!"git push carrier branch failed: {stderr}")

def commitAndPushHead (next : Text) (expected : Option Text) (base : Option Commit) :
    CarrierProcess Commit := do
  let commit ← commitHead next base
  pushHead expected base commit
  CarrierCache.updatePublishedTip commit
  pure commit

def removeFiles : List Text → CarrierProcess Unit
  | [] => pure ()
  | name :: names => do
    Thread.lift ((← Command.removeWork name).mapError ioError)
    removeFiles names

/-- Points the branch back at `base`. -/
def resetBranch : Option Commit → CarrierProcess Unit
  | some commit => do orFail "git update-ref" (← Command.updateRef (some commit))
  | none => do
    let head ← orFail "git rev-parse" (← Command.revParseHead)
    if head.isSome then orFail "git update-ref -d" (← Command.updateRef none) else pure ()

/-- A missing HEAD file falls back to the committed one. -/
def removeHead : CarrierProcess Unit := do
  match ← Command.removeWork FilesystemStorage.HEAD with
  | .ok () | .error .notFound => pure ()
  | .error fault => Thread.fail (ioError fault)

/-- `restore_checkout`. -/
def restoreCheckout (base : Option Commit) : CarrierProcess Unit := do
  resetBranch base
  orFail "git read-tree" (← Command.readTree base)
  removeHead
  let untracked ← orFail "git ls-files carrier checkout" (← Command.listUntracked)
  removeFiles untracked

def publishCheckoutHead (next : Text) (expected : Option Text) (base : Option Commit) :
    CarrierProcess Commit := do
  match ← (commitAndPushHead next expected base).attempt with
  | .ok commit => pure commit
  | .error error => do
    match ← (restoreCheckout base).attempt with
    | .ok () => Thread.fail error
    | .error _ => Thread.fail (error.context
        "restoring the carrier checkout after a failed publication also failed")

/-! ## The methods -/

/-- The conflict of a swap whose branch has moved since the checkout was made. -/
def moved (expected : Option Text) (tip : Option Commit) : CarrierProcess Commit := do
  let actual ← conflictingHead tip
  Thread.fail (.of (.casConflict expected actual))

/-- `compare_and_swap_head`: the commit published. -/
def compareAndSwapHead (base : Option Commit) (expected : Option Text) (next : Text) :
    CarrierProcess Commit := do
  Thread.lift (validateId next)
  CarrierCache.lock
  let tip ← CarrierCache.refresh
  if tip ≠ base then moved expected tip
  else do
    let actual ← storage.localHead
    if actual ≠ expected then Thread.fail (.of (.casConflict expected actual))
    else do
      Thread.lift (storage.refuseForeignBranch actual.isNone base)
      publishCheckoutHead next expected base

/-- `observe_head`. The token is the commit the checkout is based on. -/
def observeHead (token : Option Commit → Bytes) (base : Option Commit) :
    CarrierProcess HeadObservation := do
  let head ← storage.localStoredHead
  pure {
    headId := head.bind StoredHead.headId
    token := token base
    head }

def compareAndSwapObservedHead (token : Option Commit → Bytes) (base : Option Commit)
    (observed : HeadObservation) (next : Text) : CarrierProcess Commit := do
  Thread.lift (validateId next)
  Thread.lift (bailIf (observed.token ≠ token base)
    "recovery storage token does not match the opened carrier tip")
  CarrierCache.lock
  let tip ← CarrierCache.refresh
  if tip ≠ base then moved observed.headId tip
  else do
    let actual ← storage.localStoredHead
    if actual ≠ observed.head then
      Thread.fail (.of (.casConflict observed.headId (actual.bind StoredHead.headId)))
    else do
      Thread.lift (storage.refuseForeignBranch actual.isNone base)
      publishCheckoutHead next observed.headId base

/-- What a swap is made against. -/
inductive Expectation where
  | head (expected : Option Text)
  | observation (observed : HeadObservation)

/-- Either swap. -/
def swap (token : Option Commit → Bytes) (base : Option Commit) (next : Text) :
    Expectation → CarrierProcess Commit
  | .head expected => storage.compareAndSwapHead base expected next
  | .observation observed => storage.compareAndSwapObservedHead token base observed next

/-- `refresh`: whether the branch moved, and the commit the checkout is based on now. -/
def refresh (base : Option Commit) : CarrierProcess (Bool × Option Commit) := do
  CarrierCache.lock
  let tip ← CarrierCache.refresh
  if tip = base then pure (false, base)
  else do
    restoreCheckout tip
    pure (true, tip)

end GitStorage

end GitE2EE

import GitE2EE.Model.Storage
import GitE2EE.Model.Manifest

/-!
# The inner repository

What the code asks of Git, as an interface (`GitRepository`), and what it decides
itself: which ref names it accepts, and which ref changes of a push pass preflight.

Everything behind the interface is a process or a file of the checkout. A repository
is one value of the interface, so operations on different checkouts of one machine
are operations with different `GitRepository` values over one state.
-/

namespace GitE2EE

open Wire Effect

/-! ## Ref names -/

/-- The components of a name, split at every `/`. -/
def components (name : Text) : List Text := name.splitOn 47

/-- `u8::is_ascii_control`. -/
def isAsciiControl (b : UInt8) : Bool := b < 32 || b == 127

/-- ` `, `~`, `^`, `:`, `?`, `*`, `[`, `\`. -/
def isForbiddenByte (b : UInt8) : Bool :=
  b == 32 || b == 126 || b == 94 || b == 58 || b == 63 || b == 42 || b == 91 || b == 92

/-- The bytes of a component after `previous`: no control or forbidden byte, no `..`
and no `@` before an opening brace. -/
def validBytesFrom (previous : UInt8) : Text → Bool
  | [] => true
  | b :: rest =>
    !(isAsciiControl b || isForbiddenByte b || (previous == 46 && b == 46)
      || (previous == 64 && b == 123)) && validBytesFrom b rest

def isValidComponent (component : Text) : Bool :=
  !(component.isEmpty || component.head? == some 46 || (text ".lock").isSuffixOf component)
    && validBytesFrom 0 component

/-- Whether `git check-ref-format` accepts the name. -/
def isValidRefName (name : Text) : Bool :=
  !(name == text "@" || !name.contains 47 || name.getLast? == some 46)
    && (components name).all isValidComponent

inductive InnerRefKind where
  | branch
  | tag
deriving DecidableEq

def InnerRefKind.of (reference : Text) : Result InnerRefKind :=
  if (text "refs/heads/").isPrefixOf reference then pure .branch
  else if (text "refs/tags/").isPrefixOf reference then pure .tag
  else bail (s!"unsupported ref namespace for {render reference}; only refs/heads/* and "
    ++ "refs/tags/* are supported")

def validateInnerRef (reference : Text) : Result InnerRefKind := do
  let kind ← InnerRefKind.of reference
  bailIf (isValidRefName reference = false) s!"invalid Git ref name {render reference}"
  pure kind

def validateInnerRefs (refs : RefMap) : Result Unit :=
  refs.entries.forM fun e => do
    let _ ← validateInnerRef e.1
    pure ()

/-! ## The checkout -/

/-- What a checkout imported so far. It records work done, nothing else rests on it. -/
structure CheckoutProgress where
  formatVersion : Nat
  importedGeneration : Option Nat
  verifiedRefs : RefMap
deriving DecidableEq

def CHECKOUT_PROGRESS_FORMAT : Nat := 2

/-- `CheckoutProgress::default()`. -/
def CheckoutProgress.default : CheckoutProgress := ⟨0, none, .empty⟩

/-- A Git checkout. -/
structure GitRepository (G : Type) where
  resolveRef : Text → Action Error G Text
  /-- Whether the object is in the local database. -/
  objectExists : Text → Action Error G Bool
  ensureBranchTarget : Text → Text → Action Error G Unit
  isAncestor : Text → Text → Action Error G Bool
  /-- Starts `git pack-objects` for the first refs without the second ones. -/
  startIncrementalPack : RefMap → RefMap → Action Error G Reader
  finishPack : Action Error G Unit
  startPackImport : Action Error G Unit
  writePackImport : Bytes → Action Error G Unit
  finishPackImport : Action Error G Unit
  ensureRefsConnectedSince : RefMap → RefMap → Action Error G Unit
  /-- Neither shallow nor partial. It answers `false` when it cannot tell. -/
  hasCompleteObjectGraph : G → Bool
  /-- Creates the progress directory and takes its lock. -/
  openCheckout : Action Error G Unit
  readProgress : Action Error G (Option CheckoutProgress)
  writeProgress : CheckoutProgress → Action Error G Unit

namespace Checkout

variable {G : Type} (repo : GitRepository G)

def checkFormat : Option CheckoutProgress → Result CheckoutProgress
  | none => pure .default
  | some progress => do
    bailIf (progress.formatVersion ≠ CHECKOUT_PROGRESS_FORMAT)
      s!"unsupported checkout progress format {progress.formatVersion}"
    pure progress

def read : Action Error G CheckoutProgress := do
  let progress ← repo.readProgress
  Action.lift (checkFormat progress)

def write (progress : CheckoutProgress) : Action Error G Unit :=
  repo.writeProgress { progress with formatVersion := CHECKOUT_PROGRESS_FORMAT }

end Checkout

/-! ## Ref changes -/

inductive RefChange where
  | update (source : Text) (force : Bool)
  | delete

/-- One `push` line of a remote-helper batch. -/
structure RefPush where
  destination : Text
  change : RefChange

inductive RefOutcome where
  | accepted
  | rejected (error : Error)

inductive PushMode where
  | publish
  | dryRun
deriving DecidableEq

section

variable {G : Type} (repo : GitRepository G)

/-- What the old target of a branch still has to allow. -/
def checkBranchUpdate (destination old next : Text) (force : Bool) : Action Error G Unit := do
  let present ← repo.objectExists old
  if present = false then Action.fail (.of (.pushRejection (.fetchFirst destination)))
  else if force then pure ()
  else do
    let ancestor ← repo.isAncestor old next
    if ancestor = false then Action.fail (.of (.pushRejection (.nonFastForward destination)))
    else pure ()

/-- An update whose target differs from the old one. -/
def checkUpdate (kind : InnerRefKind) (destination : Text) (old : Option Text) (next : Text)
    (force : Bool) : Action Error G Unit :=
  match kind with
  | .branch => do
    repo.ensureBranchTarget destination next
    match old with
    | some old => checkBranchUpdate repo destination old next force
    | none => pure ()
  | .tag =>
    if old.isSome ∧ force = false then
      Action.fail (.of (.pushRejection (.alreadyExists destination)))
    else pure ()

/-- Checks one ref change against the parent's refs and returns the object the
destination will point at, or `none` for a deletion. -/
def preflightRefChange (parentRefs : RefMap) (push : RefPush) :
    Action Error G (Option Text) := do
  let kind ← Action.lift (validateInnerRef push.destination)
  let old := parentRefs.get? push.destination
  match push.change with
  | .delete => Action.lift do
    bailIf (old = none) s!"remote ref {render push.destination} does not exist"
    bailIf (push.destination = text "refs/heads/main")
      ("cannot delete refs/heads/main because it is advertised as the remote default "
        ++ "branch")
    pure none
  | .update source force => do
    let next ← repo.resolveRef source
    if old = some next then pure (some next)
    else do
      checkUpdate repo kind push.destination old next force
      pure (some next)

/-- A push batch between two of its changes. -/
structure PushState where
  destinations : List Text
  nextRefs : RefMap
  packRefs : RefMap
  refs : List RefOutcome

/-- What an accepted or rejected change does to the batch. -/
def PushState.record (parentRefs : RefMap) (state : PushState) (destination : Text) :
    Result (Option Text) → PushState
  | .ok (some next) =>
    { state with
      packRefs := if parentRefs.get? destination ≠ some next
        then state.packRefs.insert destination next else state.packRefs
      nextRefs := state.nextRefs.insert destination next
      refs := state.refs ++ [.accepted] }
  | .ok none =>
    { state with
      nextRefs := state.nextRefs.erase destination
      refs := state.refs ++ [.accepted] }
  | .error error => { state with refs := state.refs ++ [.rejected error] }

/-- One change of a batch. -/
def pushChange (parentRefs : RefMap) (state : PushState) (push : RefPush) :
    Action Error G PushState := do
  let preflight ← Action.attempt
    (if push.destination ∈ state.destinations then
      Action.fail (.msg s!"{render push.destination} appears more than once in one push")
    else preflightRefChange repo parentRefs push)
  let state := { state with destinations := push.destination :: state.destinations }
  pure (state.record parentRefs push.destination preflight)

/-- The changes of a batch, in request order. -/
def pushChanges (parentRefs : RefMap) : PushState → List RefPush → Action Error G PushState
  | state, [] => pure state
  | state, push :: rest => do
    let state ← pushChange repo parentRefs state push
    pushChanges parentRefs state rest

end

end GitE2EE

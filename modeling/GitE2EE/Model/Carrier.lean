import GitE2EE.Model.Directory
import GitE2EE.Model.Host
import GitE2EE.Model.Url

/-!
# A Git carrier

What the carrier backend asks of Git and of its checkout, one command at a time. The
remote has one branch for the storage; a client sees it through a cache it fetches into,
and works in a checkout of its own that nobody else touches. The branch takes a push only
when it is a fast-forward, which is what makes a push a compare-and-swap.

A command may fail at any time, and one that reports a failure may have had its effect
all the same: a push can land and its reply be lost. What a commit is named after is its
content, so commits are given by their content here and compared as such.

Objects are staged in the checkout and reach the remote with a push only. How they are
laid out there is not part of this module: the checkout answers for them as it likes.
-/

namespace GitE2EE

open Wire Effect

/-! ## Commits -/

/-- A tree by its paths. A path that is no regular blob is told apart. -/
abbrev CarrierTree := SortedMap Text FileEntry

/-- A commit by what its id is the hash of. The stamp is the time it was made at: message
and identity are the same for every carrier commit. -/
inductive Commit where
  | root (tree : CarrierTree) (stamp : Nat)
  | child (parent : Commit) (tree : CarrierTree) (stamp : Nat)
  | merge (parent other : Commit) (tree : CarrierTree) (stamp : Nat)
deriving DecidableEq

namespace Commit

def tree : Commit → CarrierTree
  | root tree _ | child _ tree _ | merge _ _ tree _ => tree

/-- The commit and everything behind it. -/
def history : Commit → List Commit
  | root tree stamp => [root tree stamp]
  | child parent tree stamp => child parent tree stamp :: parent.history
  | merge parent other tree stamp =>
    merge parent other tree stamp :: (parent.history ++ other.history)

/-- `git commit-tree`, with at most one parent. -/
def onto (parent : Option Commit) (tree : CarrierTree) (stamp : Nat) : Commit :=
  match parent with
  | none => root tree stamp
  | some parent => child parent tree stamp

/-- Everything behind a branch. -/
def reached (tip : Option Commit) : List Commit := (tip.map history).getD []

/-- Whether moving a branch from `tip` to `next` loses no commit. -/
def fastForwards (tip : Option Commit) (next : Commit) : Bool :=
  match tip with
  | none => true
  | some tip => next.history.contains tip

end Commit

/-! ## Commands -/

/-- Why a command did not report success. -/
inductive CommandFailure where
  /-- It could not be run. -/
  | spawn (fault : Files.Fault)
  | exit (stderr : String)

/-- `ensure_git_success(&command.output()?, action)`. -/
def CommandFailure.error (action : String) : CommandFailure → Error
  | spawn fault => ioError fault
  | exit stderr => .msg s!"{action} failed: {stderr}"

/-- The failure of a file access. -/
def CommandFailure.fault : CommandFailure → Files.Fault
  | spawn fault => fault
  | exit _ => .other

/-- What is asked about objects in a checkout. -/
inductive ObjectCall where
  | begin (kind : ObjectKind)
  | finish (kind : ObjectKind) (content : Bytes) (id : Text)
  | «open» (kind : ObjectKind) (id : Text)
  | recoveryHistory (maxCommits maxManifestBytes : Nat)
  | restore (kind : ObjectKind) (id : Text) (maxBytes : Nat)
  | retain (manifestIds packIds : List Text)

def ObjectCall.Reply : ObjectCall → Type
  | «open» _ _ => Result Reader
  | recoveryHistory _ _ => Result (Option RecoveryHistory)
  | restore _ _ _ => Result Bool
  | _ => Result Unit

/-- What a client asks of Git and of its checkout, one command at a time. -/
inductive CarrierCall where
  /-- `CarrierCache::lock`. -/
  | lockCache
  /-- `CarrierCache::ensure_initialized`. -/
  | initializeCache
  | rebuildCache
  /-- `git fsck --full`: whether the cache is corrupt. -/
  | cacheCorrupt
  /-- `git fetch` of the branch into the cache. -/
  | fetch
  /-- `git rev-parse` of the fetched branch. -/
  | cachedTip
  /-- `git ls-remote --heads`: whether the remote has the branch. -/
  | lsRemote
  /-- The same for the branch of format 4. -/
  | lsFormat4
  /-- `git update-ref` of the fetched branch in the cache. -/
  | setCachedTip (commit : Option Commit)
  /-- A temporary directory with a checkout of `base`. -/
  | createCheckout (base : Option Commit)
  /-- A file of the working tree. -/
  | readWork (name : Text)
  /-- `git rev-parse HEAD`. -/
  | revParseHead
  /-- `git cat-file` of a path at a commit. -/
  | blob (commit : Commit) (name : Text)
  | writeWork (name : Text) (content : Bytes)
  | removeWork (name : Text)
  /-- `stage_carrier_checkout`. -/
  | stageCheckout
  | writeTree
  | commitTree (parent : Option Commit) (tree : CarrierTree)
  /-- `git update-ref` of the checkout's branch, or its deletion. -/
  | updateRef (commit : Option Commit)
  /-- `git read-tree`, or `git read-tree --empty`. -/
  | readTree (commit : Option Commit)
  /-- `git ls-files --others`. -/
  | listUntracked
  /-- `git push origin HEAD:refs/heads/<branch>`. -/
  | push
  | object (call : ObjectCall)

def CarrierCall.Reply : CarrierCall → Type
  | cacheCorrupt | lsRemote | lsFormat4 => Except CommandFailure Bool
  | cachedTip | revParseHead => Except CommandFailure (Option Commit)
  | readWork _ | blob _ _ => Except CommandFailure (Option FileEntry)
  | removeWork _ => Except Files.Fault Unit
  | writeTree => Except CommandFailure CarrierTree
  | commitTree _ _ => Except CommandFailure Commit
  | listUntracked => Except CommandFailure (List Text)
  | object call => call.Reply
  | _ => Except CommandFailure Unit

/-! ## What the commands do -/

/-- The working copy of one client: branch, index and files, and its view of the remote. -/
structure Checkout where
  /-- `refs/heads/<branch>`, which HEAD points at. -/
  branch : Option Commit
  index : CarrierTree
  work : CarrierTree
  /-- The branch as last fetched into the cache. -/
  cached : Option Commit

def Checkout.empty : Checkout := ⟨none, .empty, .empty, none⟩

/-- What clients did, for statements about runs. No client reads it. -/
inductive CarrierEvent (ι : Type) where
  | committed (client : ι) (commit : Commit)
  /-- A push that landed, and whether its client was told. -/
  | pushed (client : ι) (commit : Commit) (acknowledged : Bool)
  | fetched (client : ι)
deriving DecidableEq

/-- The remote and every client's checkout. -/
structure Carrier (ι : Type) where
  /-- The storage's branch on the remote. -/
  remote : Option Commit
  /-- Whether the remote has a branch of format 4. -/
  format4 : Bool
  checkouts : ι → Checkout
  /-- Oldest first. -/
  log : List (CarrierEvent ι)

/-- What the platform decides about a command. -/
structure CarrierOutcome where
  failure : Option CommandFailure
  /-- Whether a command that reports a failure had its effect. -/
  applied : Bool
  stamp : Nat
  /-- What the checkout answers about objects, and the index and files it then has. -/
  objects : (call : ObjectCall) → call.Reply
  index : CarrierTree
  work : CarrierTree

def CARRIER_ROOT_ENTRIES : List Text :=
  [text ".gitattributes", text "README.md", text "FORMAT", text "HEAD", text "manifests",
    text "packs"]

def CARRIER_ATTRIBUTES : Bytes := text "* -delta\n"

/-- Whether a path is one of a publication's. -/
def isCarrierPath (path : Text) : Bool :=
  CARRIER_ROOT_ENTRIES.contains (path.takeWhile (· ≠ 47))

/-- `git add` of the paths of a publication. -/
def Checkout.stage (checkout : Checkout) : Checkout :=
  { checkout with
    index := (checkout.work.entries.filter fun entry => isCarrierPath entry.1).foldl
      (fun index entry => index.insert entry.1 entry.2) checkout.index }

/-- Files of a publication that the index does not have. -/
def Checkout.untracked (checkout : Checkout) : List Text :=
  (checkout.work.entries.map Prod.fst).filter fun path =>
    (isCarrierPath path && path != text "HEAD" && path != text ".gitattributes")
      && (checkout.index.get? path).isNone

namespace Carrier

variable {ι : Type}

/-- A command with an effect and an answer, under an outcome. -/
def run {α : Type} (outcome : CarrierOutcome) (effect : Carrier ι → Carrier ι) (value : α)
    (w : Carrier ι) : Option (Except CommandFailure α × Carrier ι) :=
  match outcome.failure with
  | none => some (.ok value, effect w)
  | some failure => some (.error failure, if outcome.applied then effect w else w)

/-- A question. -/
def query {α : Type} (outcome : CarrierOutcome) (value : α) (w : Carrier ι) :
    Option (Except CommandFailure α × Carrier ι) := w.run outcome id value

variable [DecidableEq ι]

/-- The client's checkout, changed. -/
def modify (i : ι) (f : Checkout → Checkout) (w : Carrier ι) : Carrier ι :=
  { w with checkouts := Function.update w.checkouts i (f (w.checkouts i)) }

def record (event : CarrierEvent ι) (w : Carrier ι) : Carrier ι :=
  { w with log := w.log ++ [event] }

/-- The branch moved to `commit` by a push of client `i`. -/
def land (i : ι) (commit : Commit) (acknowledged : Bool) (w : Carrier ι) : Carrier ι :=
  { w with remote := some commit }.record (.pushed i commit acknowledged)

/-- A fetch moves the cached tip of a checkout; an empty remote has nothing to fetch. -/
def performFetch (i : ι) (outcome : CarrierOutcome) (w : Carrier ι) :
    Except CommandFailure Unit × Carrier ι :=
  let seen := w.record (.fetched i)
  match w.remote, outcome.failure with
  | none, failure => (.error (failure.getD (.exit "couldn't find remote ref")), seen)
  | some tip, none => (.ok (), seen.modify i fun c => { c with cached := some tip })
  | some tip, some failure =>
    (.error failure,
      if outcome.applied then seen.modify i fun c => { c with cached := some tip } else seen)

/-- The branch takes what is a fast-forward. -/
def performPush (i : ι) (outcome : CarrierOutcome) (w : Carrier ι) :
    Except CommandFailure Unit × Carrier ι :=
  match (w.checkouts i).branch with
  | none => (.error (outcome.failure.getD (.exit "src refspec HEAD does not match any")), w)
  | some commit =>
    if Commit.fastForwards w.remote commit then
      match outcome.failure with
      | none => (.ok (), w.land i commit true)
      | some failure => (.error failure, if outcome.applied then w.land i commit false else w)
    else (.error (outcome.failure.getD (.exit "non-fast-forward")), w)

/-- `fs::remove_file` in the checkout. -/
def performRemove (i : ι) (outcome : CarrierOutcome) (name : Text) (w : Carrier ι) :
    Except Files.Fault Unit × Carrier ι :=
  let removed := w.modify i fun c => { c with work := c.work.erase name }
  match outcome.failure with
  | none =>
    if ((w.checkouts i).work.get? name).isNone then (.error .notFound, w) else (.ok (), removed)
  | some failure => (.error failure.fault, if outcome.applied then removed else w)

/-- One command of client `i` under an outcome the platform chose. -/
def perform (i : ι) (outcome : CarrierOutcome) :
    (call : CarrierCall) → Carrier ι → Option (call.Reply × Carrier ι)
  | .lockCache, w | .initializeCache, w => w.query outcome ()
  | .rebuildCache, w => w.run outcome (modify i fun c => { c with cached := none }) ()
  -- whether the cache is corrupt is the platform's to say
  | .cacheCorrupt, w => w.query outcome outcome.applied
  | .fetch, w => some (w.performFetch i outcome)
  | .cachedTip, w => w.query outcome (w.checkouts i).cached
  | .lsRemote, w => w.query outcome w.remote.isSome
  | .lsFormat4, w => w.query outcome w.format4
  | .setCachedTip commit, w => w.run outcome (modify i fun c => { c with cached := commit }) ()
  | .createCheckout base, w =>
    w.run outcome (modify i fun c =>
      ⟨base, (base.map Commit.tree).getD .empty,
        SortedMap.empty.insert (text ".gitattributes") (.regular CARRIER_ATTRIBUTES), c.cached⟩) ()
  | .readWork name, w => w.query outcome ((w.checkouts i).work.get? name)
  | .revParseHead, w => w.query outcome (w.checkouts i).branch
  | .blob commit name, w => w.query outcome (commit.tree.get? name)
  | .writeWork name content, w =>
    w.run outcome (modify i fun c => { c with work := c.work.insert name (.regular content) }) ()
  | .removeWork name, w => some (w.performRemove i outcome name)
  | .stageCheckout, w => w.run outcome (modify i Checkout.stage) ()
  | .writeTree, w => w.query outcome (w.checkouts i).index
  | .commitTree parent tree, w =>
    let commit := Commit.onto parent tree outcome.stamp
    w.run outcome (record (.committed i commit)) commit
  | .updateRef commit, w => w.run outcome (modify i fun c => { c with branch := commit }) ()
  | .readTree commit, w =>
    w.run outcome (modify i fun c =>
      { c with index := (commit.map Commit.tree).getD .empty }) ()
  | .listUntracked, w => w.query outcome (w.checkouts i).untracked
  | .push, w => some (w.performPush i outcome)
  | .object call, w =>
    some (outcome.objects call,
      w.modify i fun c => { c with index := outcome.index, work := outcome.work })

/-- A client that is stopped leaves its checkout behind. -/
def platform : Platform ι CarrierCall CarrierCall.Reply CarrierOutcome (Carrier ι) where
  perform := perform
  halt _ w := w

/-- What clients other than `i` do: they move the branch forward and change what is their
own. -/
inductive Others (i : ι) : Carrier ι → Carrier ι → Prop where
  | pushed {j : ι} {commit : Commit} {acknowledged : Bool} {w : Carrier ι} :
    j ≠ i → Commit.fastForwards w.remote commit = true →
      Others i w (w.land j commit acknowledged)
  | fetched {j : ι} {w : Carrier ι} : j ≠ i → Others i w (w.record (.fetched j))
  | committed {j : ι} {commit : Commit} {w : Carrier ι} :
    j ≠ i → Others i w (w.record (.committed j commit))
  | worked {j : ι} {f : Checkout → Checkout} {w : Carrier ι} : j ≠ i → Others i w (w.modify j f)

end Carrier

/-- A client of the carrier. -/
abbrev CarrierProcess := Thread CarrierCall CarrierCall.Reply Error

/-! ## The commands as processes -/

namespace Command

def lockCache : CarrierProcess (Except CommandFailure Unit) := Thread.perform CarrierCall.lockCache

def initializeCache : CarrierProcess (Except CommandFailure Unit) :=
  Thread.perform CarrierCall.initializeCache

def rebuildCache : CarrierProcess (Except CommandFailure Unit) :=
  Thread.perform CarrierCall.rebuildCache

def cacheCorrupt : CarrierProcess (Except CommandFailure Bool) :=
  Thread.perform CarrierCall.cacheCorrupt

def fetch : CarrierProcess (Except CommandFailure Unit) := Thread.perform CarrierCall.fetch

def cachedTip : CarrierProcess (Except CommandFailure (Option Commit)) :=
  Thread.perform CarrierCall.cachedTip

def lsRemote : CarrierProcess (Except CommandFailure Bool) := Thread.perform CarrierCall.lsRemote

def lsFormat4 : CarrierProcess (Except CommandFailure Bool) := Thread.perform CarrierCall.lsFormat4

def setCachedTip (commit : Option Commit) : CarrierProcess (Except CommandFailure Unit) :=
  Thread.perform (CarrierCall.setCachedTip commit)

def createCheckout (base : Option Commit) : CarrierProcess (Except CommandFailure Unit) :=
  Thread.perform (CarrierCall.createCheckout base)

def readWork (name : Text) : CarrierProcess (Except CommandFailure (Option FileEntry)) :=
  Thread.perform (CarrierCall.readWork name)

def revParseHead : CarrierProcess (Except CommandFailure (Option Commit)) :=
  Thread.perform CarrierCall.revParseHead

def blob (commit : Commit) (name : Text) :
    CarrierProcess (Except CommandFailure (Option FileEntry)) :=
  Thread.perform (CarrierCall.blob commit name)

def writeWork (name : Text) (content : Bytes) : CarrierProcess (Except CommandFailure Unit) :=
  Thread.perform (CarrierCall.writeWork name content)

def stageCheckout : CarrierProcess (Except CommandFailure Unit) :=
  Thread.perform CarrierCall.stageCheckout

def writeTree : CarrierProcess (Except CommandFailure CarrierTree) :=
  Thread.perform CarrierCall.writeTree

def commitTree (parent : Option Commit) (tree : CarrierTree) :
    CarrierProcess (Except CommandFailure Commit) :=
  Thread.perform (CarrierCall.commitTree parent tree)

def updateRef (commit : Option Commit) : CarrierProcess (Except CommandFailure Unit) :=
  Thread.perform (CarrierCall.updateRef commit)

def readTree (commit : Option Commit) : CarrierProcess (Except CommandFailure Unit) :=
  Thread.perform (CarrierCall.readTree commit)

def listUntracked : CarrierProcess (Except CommandFailure (List Text)) :=
  Thread.perform CarrierCall.listUntracked

def push : CarrierProcess (Except CommandFailure Unit) := Thread.perform CarrierCall.push

def removeWork (name : Text) : CarrierProcess (Except Files.Fault Unit) :=
  Thread.perform (CarrierCall.removeWork name)

def object (call : ObjectCall) : CarrierProcess call.Reply :=
  Thread.perform (CarrierCall.object call)

end Command

end GitE2EE

import GitE2EE.Lib.SortedMap
import GitE2EE.Model.Policy

/-!
# The storage interface

What the repository code can ask of a backend. A backend is a state type and one
state transformer per method, with no law about any of them: whatever a proof says
for every `Storage S` it says for storage that answers each call as it likes, and
differently on the next one.

Backends that keep a law (an immutable object store, a directory, a Git carrier)
are instances of this interface elsewhere.
-/

namespace GitE2EE

open Wire Effect

def MAX_HEAD_BYTES : Nat := 4096
def MAX_MANIFEST_BYTES : Nat := 16 * 1024 * 1024
def CARRIER_CHUNK_BYTES : Nat := 32 * 1024 * 1024
def MAX_CHUNKS_PER_OBJECT : Nat := 4096
def MAX_OBJECT_BYTES : Nat := CARRIER_CHUNK_BYTES * MAX_CHUNKS_PER_OBJECT

/-- What an object is, which decides where it is kept and how long it may be. -/
inductive ObjectKind where
  | pack
  | manifest
deriving DecidableEq

def ObjectKind.directory : ObjectKind → String
  | .pack => "packs"
  | .manifest => "manifests"

def ObjectKind.name : ObjectKind → String
  | .pack => "pack"
  | .manifest => "manifest"

def ObjectKind.maxBytes : ObjectKind → Nat
  | .pack => MAX_OBJECT_BYTES
  | .manifest => MAX_MANIFEST_BYTES

/-- 64 lowercase hexadecimal digits. -/
def isObjectId (id : Text) : Bool :=
  id.length == 64 && id.all fun b =>
    (48 ≤ b.toNat && b.toNat ≤ 57) || (97 ≤ b.toNat && b.toNat ≤ 102)

def validateId (id : Text) : Result Unit :=
  bailIf (isObjectId id = false) "invalid opaque object id"

/-- An open object: the bytes it yields, and the failure that ends them, if any. -/
structure Reader where
  bytes : Bytes
  failure : Option Error

/-- `read_to_end` on a reader. -/
def Reader.readToEnd (reader : Reader) : Result Bytes :=
  match reader.failure with
  | none => .ok reader.bytes
  | some error => .error error

/-- The contents of storage HEAD. Only `bytes` can name a manifest. -/
inductive StoredHead where
  | bytes (content : Bytes)
  | notRegular
  | oversized
deriving DecidableEq

namespace StoredHead

/-- `str::trim` on the code points of a string. -/
def trim (characters : List Nat) : List Nat :=
  ((characters.dropWhile isWhitespace).reverse.dropWhile isWhitespace).reverse

/-- The id that a HEAD names, without the whitespace around it. -/
def headId : StoredHead → Option Text
  | .bytes content => do
    let characters ← decodeUtf8 content
    -- an id is ASCII, so each of its characters is one byte
    let value := (trim characters).map UInt8.ofNat
    if (trim characters).all (· < 128) ∧ isObjectId value then some value else none
  | _ => none

/-- `headId`, with what is wrong where there is none. -/
def parse : StoredHead → Result Text
  | .bytes content => orBail (headId (.bytes content))
      "storage HEAD is not a valid head: it does not name a manifest object ID"
  | .notRegular => bail "storage HEAD is not a valid head: it is not a regular file"
  | .oversized => bail "storage HEAD is not a valid head: it exceeds 4096 bytes"

/-- Bytes that identify this observation in rejected-head evidence. -/
def evidence : StoredHead → Bytes
  | .bytes content => content
  | .notRegular => text "storage HEAD is not a regular file"
  | .oversized => text "storage HEAD is oversized"

end StoredHead

/-- What an observer saw of HEAD, valid or not, so that it can be replaced only if it is still
that. -/
structure HeadObservation where
  headId : Option Text
  token : Bytes
  /-- What storage holds where HEAD belongs; `none` when nothing is there. -/
  head : Option StoredHead
deriving DecidableEq

/-- A commit of the outer history, with the head it had. -/
structure RecoveryCommit where
  commitId : Text
  headId : Option Text
deriving DecidableEq

/-- The outer history of a carrier: its commits, and the manifests they hold. -/
structure RecoveryHistory where
  commits : List RecoveryCommit
  manifests : SortedMap Text Bytes

/-- `trait Storage`. Writing an object is `beginObject`, then `finishObject` with
the bytes written to the stage and the id they are published under. -/
structure Storage (S : Type) where
  beginObject : ObjectKind → Action Error S Unit
  finishObject : ObjectKind → Bytes → Text → Action Error S Unit
  openObject : ObjectKind → Text → Action Error S Reader
  readHead : Action Error S (Option Text)
  /-- Whether the head may have changed. -/
  refresh : Action Error S Bool
  compareAndSwapHead : Option Text → Text → Action Error S Unit
  observeHead : Action Error S HeadObservation
  compareAndSwapObservedHead : HeadObservation → Text → Action Error S Unit
  recoveryHistory : Nat → Nat → Action Error S (Option RecoveryHistory)
  restoreHistoricalObject : ObjectKind → Text → Nat → Action Error S Bool
  prepareRecovery : List Text → List Text → Action Error S Unit

namespace Storage

variable {S : Type} (storage : Storage S)

/-- A small object, staged and published in one go. -/
def putObjectIfAbsent (kind : ObjectKind) (id : Text) (data : Bytes) : Action Error S Unit := do
  storage.beginObject kind
  storage.finishObject kind data id

/-- What `get_object` makes of an open object: at most one byte beyond the limit is
read, so a failure behind that point is never met. -/
def buffered (reader : Reader) : Result Bytes :=
  if MAX_MANIFEST_BYTES < reader.bytes.length then bail "buffered object exceeds size limit"
  else reader.readToEnd

/-- A whole object in memory, which only manifests are read as. -/
def getObject (kind : ObjectKind) (id : Text) : Action Error S Bytes := do
  let reader ← storage.openObject kind id
  buffered reader

end Storage

end GitE2EE

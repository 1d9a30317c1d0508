import Mathlib.Data.List.Sort
import GitE2EE.Model.Crypto

/-!
# Device policies

A policy lists the devices of a repository, their roles, and when each was
revoked. It is signed by one administrator of the policy before it; the first one
is signed by the owner whose keys the repository root is the hash of.

`create` and `parse` check a policy on its own. `validateGenesis` and
`validateSuccessor` check its place in the policy chain.
-/

namespace GitE2EE

open Wire Effect

def POLICY_SIGNATURE_DOMAIN : Bytes := domain "policy"

/-- What a device may do. A writer or an administrator has to be a reader too
(`validateDevicesFrom`). -/
structure DeviceRoles where
  reader : Bool
  writer : Bool
  administrator : Bool
deriving DecidableEq, Repr

def DeviceRoles.owner : DeviceRoles := ⟨true, true, true⟩

/-- A device of the policy. A revoked one stays in the list, with the policy generation that
revoked it. -/
structure DeviceRecord where
  pub : PublicDevice
  label : Text
  roles : DeviceRoles
  revokedAt : Option Nat
deriving DecidableEq

namespace DeviceRecord

def active (d : DeviceRecord) : Bool := d.revokedAt.isNone

def activeReader (d : DeviceRecord) : Bool := d.active && d.roles.reader

def activeAdministrator (d : DeviceRecord) : Bool := d.active && d.roles.administrator

def activeWriter (d : DeviceRecord) : Bool := d.active && d.roles.writer

end DeviceRecord

/-- What an administrator signs. The threshold is part of the format, but only 1 is supported.
-/
structure PolicyBody where
  formatVersion : Nat
  repositoryRoot : Text
  generation : Nat
  previous : Option Text
  adminThreshold : Nat
  devices : List DeviceRecord
deriving DecidableEq

structure PolicySignature where
  deviceId : Text
  signature : Text
deriving DecidableEq

/-- The serialized policy: the exact bytes of the body in Base64, and the signatures over them.
-/
structure PolicyObject where
  body : Text
  signatures : List PolicySignature

/-- A parsed policy. `exactBody` is kept because the signature is over the bytes, not over the
fields. -/
structure PolicyState where
  id : Text
  body : PolicyBody
  exactBody : Bytes
  signatures : List PolicySignature
deriving DecidableEq

/-! ## Serialized forms -/

/-- `serde_json::from_slice(bytes).context(what)`. -/
def fromSlice {α : Type} (P : Primitives) (read : Json → Option α) (bytes : Bytes)
    (what : String) : Result α :=
  withContext (orBail ((P.parseJson bytes).bind read) "invalid JSON") what

/-- `BASE64.decode(value).context(what)`. -/
def decodeBase64As (value : Text) (what : String) : Result Bytes :=
  withContext (decodeBase64 value) what

def DeviceRoles.toJson (r : DeviceRoles) : Json :=
  .obj [(text "reader", .bool r.reader), (text "writer", .bool r.writer),
    (text "administrator", .bool r.administrator)]

def DeviceRoles.ofJson (v : Json) : Option DeviceRoles := do
  let field ← v.fields [text "reader", text "writer", text "administrator"]
  pure {
    reader := ← Json.required Json.asBool (field (text "reader"))
    writer := ← Json.required Json.asBool (field (text "writer"))
    administrator := ← Json.required Json.asBool (field (text "administrator")) }

/-- The public identity is flattened into the record. -/
def DeviceRecord.toJson (d : DeviceRecord) : Json :=
  .obj [(text "repository_root", .str d.pub.repositoryRoot),
    (text "device_id", .str d.pub.deviceId),
    (text "signing_public_key", .str d.pub.signingPublicKey),
    (text "wrapping_public_key", .str d.pub.wrappingPublicKey),
    (text "label", .str d.label),
    (text "roles", d.roles.toJson),
    (text "revoked_at", Json.orNull .nat d.revokedAt)]

/-- A flattened record is read from an object only. -/
def DeviceRecord.ofJson : Json → Option DeviceRecord
  | .obj members => do
    let field ← (Json.obj members).fields [text "repository_root", text "device_id",
      text "signing_public_key", text "wrapping_public_key", text "label", text "roles",
      text "revoked_at"]
    pure {
      pub := {
        repositoryRoot := ← Json.required Json.asText (field (text "repository_root"))
        deviceId := ← Json.required Json.asText (field (text "device_id"))
        signingPublicKey := ← Json.required Json.asText (field (text "signing_public_key"))
        wrappingPublicKey := ← Json.required Json.asText (field (text "wrapping_public_key")) }
      label := ← Json.required Json.asText (field (text "label"))
      roles := ← Json.required DeviceRoles.ofJson (field (text "roles"))
      revokedAt := ← Json.optional (Json.asUnsigned 64) (field (text "revoked_at")) }
  | _ => none

def PolicyBody.toJson (b : PolicyBody) : Json :=
  .obj [(text "format_version", .nat b.formatVersion),
    (text "repository_root", .str b.repositoryRoot),
    (text "generation", .nat b.generation),
    (text "previous", Json.orNull .str b.previous),
    (text "admin_threshold", .nat b.adminThreshold),
    (text "devices", .arr (b.devices.map DeviceRecord.toJson))]

def PolicyBody.ofJson (v : Json) : Option PolicyBody := do
  let field ← v.fields [text "format_version", text "repository_root", text "generation",
    text "previous", text "admin_threshold", text "devices"]
  pure {
    formatVersion := ← Json.required (Json.asUnsigned 32) (field (text "format_version"))
    repositoryRoot := ← Json.required Json.asText (field (text "repository_root"))
    generation := ← Json.required (Json.asUnsigned 64) (field (text "generation"))
    previous := ← Json.optional Json.asText (field (text "previous"))
    adminThreshold := ← Json.required (Json.asUnsigned 32) (field (text "admin_threshold"))
    devices := ← Json.required (Json.asList DeviceRecord.ofJson) (field (text "devices")) }

def PolicySignature.toJson (s : PolicySignature) : Json :=
  .obj [(text "device_id", .str s.deviceId), (text "signature", .str s.signature)]

def PolicySignature.ofJson (v : Json) : Option PolicySignature := do
  let field ← v.fields [text "device_id", text "signature"]
  pure {
    deviceId := ← Json.required Json.asText (field (text "device_id"))
    signature := ← Json.required Json.asText (field (text "signature")) }

def PolicyObject.toJson (o : PolicyObject) : Json :=
  .obj [(text "body", .str o.body),
    (text "signatures", .arr (o.signatures.map PolicySignature.toJson))]

def PolicyObject.ofJson (v : Json) : Option PolicyObject := do
  let field ← v.fields [text "body", text "signatures"]
  pure {
    body := ← Json.required Json.asText (field (text "body"))
    signatures := ← Json.required (Json.asList PolicySignature.ofJson) (field (text "signatures")) }

/-! ## Checks on a policy by itself -/

def MAX_DEVICE_LABEL_BYTES : Nat := 64

/-- `char::is_whitespace`. -/
def isWhitespace (c : Nat) : Bool :=
  (9 ≤ c && c ≤ 13) || c == 0x20 || c == 0x85 || c == 0xA0 || c == 0x1680
    || (0x2000 ≤ c && c ≤ 0x200A) || c == 0x2028 || c == 0x2029 || c == 0x202F || c == 0x205F
    || c == 0x3000

/-- `char::is_control` or one of the invisible and bidirectional formatting characters. -/
def isControlOrInvisible (c : Nat) : Bool :=
  c < 0x20 || (0x7F ≤ c && c ≤ 0x9F) || c == 0xAD || c == 0x61C || c == 0x180E
    || (0x200B ≤ c && c ≤ 0x200F) || (0x202A ≤ c && c ≤ 0x202E) || (0x2060 ≤ c && c ≤ 0x206F)
    || c == 0xFEFF

/-- A label is short, trimmed, and free of characters that would not show. -/
def validateDeviceLabel (label : Text) : Result Unit := do
  bailIf (label = [] ∨ MAX_DEVICE_LABEL_BYTES < label.length) "device label must be 1 to 64 bytes"
  -- `label.trim() != label`
  bailIf ((codePoints label).head?.any isWhitespace ∨ (codePoints label).getLast?.any isWhitespace)
    "device label must not start or end with whitespace"
  match (codePoints label).find? isControlOrInvisible with
  | some character =>
    bail s!"device label contains control or invisible character U+{codePointName character}"
  | none => pure ()

/-- The loop of `validate_devices`, with the ids and active labels seen so far. -/
def validateDevicesFrom (P : Primitives) (ids activeLabels : List Text) :
    List DeviceRecord → Result Unit
  | [] => pure ()
  | device :: rest => do
    validatePublicDevice P device.pub
    bailIf (device.pub.deviceId ∈ ids) "policy contains a duplicate device id"
    validateDeviceLabel device.label
    bailIf (device.active ∧ device.label ∈ activeLabels)
      s!"device label {quoted device.label} is already used by an active device"
    bailIf (device.roles.writer ∧ ¬ device.roles.reader) "writer devices must also be readers"
    bailIf (device.roles.administrator ∧ ¬ device.roles.reader)
      "administrator devices must also be readers"
    validateDevicesFrom P (device.pub.deviceId :: ids)
      (if device.active then device.label :: activeLabels else activeLabels) rest

def validateDevices (P : Primitives) (devices : List DeviceRecord) : Result Unit :=
  validateDevicesFrom P [] [] devices

/-- Somebody has to be able to read, and somebody to change the policy. -/
def validateActiveRoles (body : PolicyBody) : Result Unit := do
  bailIf (¬ body.devices.any DeviceRecord.activeReader)
    "policy must retain at least one active reader"
  bailIf (¬ body.devices.any DeviceRecord.activeAdministrator)
    "policy must retain at least one active administrator"

/-- Every device names the repository of the policy. -/
def validateDeviceRoots (body : PolicyBody) : Result Unit :=
  bailIf (body.devices.any fun d => d.pub.repositoryRoot ≠ body.repositoryRoot)
    "device public key belongs to a different repository"

namespace PolicyState

/-- Signs a policy with the key of one administrator. Whether the signer is one is for the
reader to check. -/
def create (P : Primitives) (body : PolicyBody) (signer : KeyFile) :
    Result (PolicyState × Bytes) := do
  validateDevices P body.devices
  validateDeviceRoots body
  validateActiveRoles body
  let exactBody := body.toJson.write
  let signature : PolicySignature := {
    deviceId := ← signer.deviceId P
    signature := base64Encode (← signer.signDomain P POLICY_SIGNATURE_DOMAIN exactBody) }
  let object : PolicyObject := { body := base64Encode exactBody, signatures := [signature] }
  let bytes := object.toJson.write
  pure ({ id := objectId P bytes, body, exactBody, signatures := [signature] }, bytes)

/-- The first policy: its only device is the owner. -/
def genesis (P : Primitives) (key : KeyFile) (ownerLabel : Text) :
    Result (PolicyState × Bytes) := do
  let pub ← key.publicDevice P
  create P {
    formatVersion := FORMAT_VERSION
    repositoryRoot := key.repositoryRoot
    generation := 0
    previous := none
    adminThreshold := 1
    devices := [{ pub, label := ownerLabel, roles := .owner, revokedAt := none }] } key

/-- The next policy of a parent, with its devices sorted by id. -/
def successor (P : Primitives) (parent : PolicyState) (devices : List DeviceRecord)
    (signer : KeyFile) : Result (PolicyState × Bytes) := do
  let devices := devices.insertionSort fun a b => lexLe a.pub.deviceId b.pub.deviceId = true
  let generation ← orBail (checkedAdd parent.body.generation 1) "policy generation overflow"
  create P {
    formatVersion := FORMAT_VERSION
    repositoryRoot := parent.body.repositoryRoot
    generation
    previous := some parent.id
    adminThreshold := 1
    devices } signer

/-- Reads a policy and checks it on its own, without its parent and without its signature. -/
def parse (P : Primitives) (bytes : Bytes) : Result PolicyState := do
  -- The version is probed before the full schema, so that a future format is
  -- reported as unsupported instead of malformed.
  let probe ← fromSlice P (fun v => (v.probe (text "body")).bind Json.asText) bytes
    "parse policy object"
  let probeBody ← decodeBase64As probe "decode policy body"
  let version ← fromSlice P
    (fun v => (v.probe (text "format_version")).bind (Json.asUnsigned 64)) probeBody
    "parse policy format version"
  if version ≠ FORMAT_VERSION then
    .error (.of (.unsupported s!"unsupported policy format {version}"))
  else
    let object ← fromSlice P PolicyObject.ofJson bytes "parse policy object"
    let exactBody ← decodeBase64As object.body "decode policy body"
    let body ← fromSlice P PolicyBody.ofJson exactBody "parse policy body"
    bailIf (body.adminThreshold = 0) "policy administrator threshold must be at least one"
    if body.adminThreshold ≠ 1 then
      .error (.of (.unsupported
        s!"unsupported policy administrator threshold {body.adminThreshold}"))
    else
      validateDevices P body.devices
      validateDeviceRoots body
      validateActiveRoles body
      pure { id := objectId P bytes, body, exactBody, signatures := object.signatures }

def device (policy : PolicyState) (deviceId : Text) : Option DeviceRecord :=
  policy.body.devices.find? fun d => d.pub.deviceId = deviceId

def isActiveWriter (policy : PolicyState) (deviceId : Text) : Bool :=
  (policy.device deviceId).any DeviceRecord.activeWriter

def isActiveReader (policy : PolicyState) (deviceId : Text) : Bool :=
  (policy.device deviceId).any DeviceRecord.activeReader

def isActiveAdmin (policy : PolicyState) (deviceId : Text) : Bool :=
  (policy.device deviceId).any DeviceRecord.activeAdministrator

/-! ## Checks on a policy's place in the chain -/

/-- The one signature is by an active administrator of the given devices, over the exact body.
-/
def verifyAgainstAdmins (P : Primitives) (policy : PolicyState) (devices : List DeviceRecord) :
    Result Unit :=
  match policy.signatures with
  | [signature] => do
    let signer ← orBail
      (devices.find? fun d => d.pub.deviceId = signature.deviceId && d.activeAdministrator)
      "policy was not signed by an active parent administrator"
    verifyDomain P signer.pub.signingPublicKey POLICY_SIGNATURE_DOMAIN policy.exactBody
      (← decodeBase64 signature.signature)
  | _ => bail "single-admin policies require exactly one signature"

/-- The device list of a genesis policy is one active owner with the root's keys. -/
def validateOwner (P : Primitives) (devices : List DeviceRecord) (expectedRoot : Text) :
    Result Unit :=
  match devices with
  | [owner] =>
    if owner.roles = .owner ∧ owner.active then do
      bailIf ((← repositoryRootForDevice P owner.pub) ≠ expectedRoot)
        "genesis policy is not bound to the repository owner key"
    else bail "genesis policy is not bound to the repository owner key"
  | _ => bail "genesis policy is not bound to the repository owner key"

/-- A first policy is signed by its own owner; what makes it this repository's is that the root
is the hash of the owner's keys. -/
def validateGenesis (P : Primitives) (policy : PolicyState) (expectedRoot : Text) :
    Result Unit := do
  bailIf (policy.body.generation ≠ 0 ∨ policy.body.previous.isSome)
    "invalid genesis policy position"
  bailIf (policy.body.repositoryRoot ≠ expectedRoot)
    "policy repository root does not match key file"
  validateOwner P policy.body.devices expectedRoot
  bailIf (policy.body.adminThreshold ≠ 1) "only single-admin policy threshold 1 is supported"
  verifyAgainstAdmins P policy policy.body.devices

/-- What a successor may do to a device record it inherits. -/
def validateInherited (policy : PolicyState) (old : DeviceRecord) : Result Unit := do
  let new ← orBail (policy.device old.pub.deviceId) "policy removed a historical device record"
  bailIf (new.pub ≠ old.pub) "policy changed a device's public identity"
  bailIf (new.label ≠ old.label) "policy changed a device's label"
  bailIf (old.revokedAt.isSome ∧ new.revokedAt ≠ old.revokedAt)
    "policy changed or reactivated a revoked device"
  bailIf (old.revokedAt = none ∧ new.revokedAt.isSome
      ∧ new.revokedAt ≠ some policy.body.generation)
    "device revocation generation is invalid"

/-- What a revocation found in a successor may say. -/
def validateRevocation (policy parent : PolicyState) (d : DeviceRecord) : Result Unit :=
  let wasAlreadyRevoked := (parent.device d.pub.deviceId).any fun old =>
    old.revokedAt = d.revokedAt && old.revokedAt.isSome
  bailIf (d.revokedAt.isSome ∧ ¬ wasAlreadyRevoked ∧ d.revokedAt ≠ some policy.body.generation)
    "device revocation generation is invalid"

/-- A successor extends the parent by one and is signed by one of the parent's administrators.
Roles are free to change; identities, labels and past revocations are not. -/
def validateSuccessor (P : Primitives) (policy parent : PolicyState) : Result Unit := do
  bailIf (policy.body.repositoryRoot ≠ parent.body.repositoryRoot) "policy repository root changed"
  bailIf (checkedAdd parent.body.generation 1 ≠ some policy.body.generation)
    "policy generation is not consecutive"
  bailIf (policy.body.previous ≠ some parent.id) "policy previous pointer does not match"
  bailIf (parent.body.adminThreshold ≠ 1 ∨ policy.body.adminThreshold ≠ 1)
    "only single-admin policy threshold 1 is supported"
  verifyAgainstAdmins P policy parent.body.devices
  parent.body.devices.forM (validateInherited policy)
  policy.body.devices.forM (validateRevocation policy parent)
  validateActiveRoles policy.body

end PolicyState

end GitE2EE

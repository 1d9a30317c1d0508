import GitE2EE.Lib.SortedMap
import GitE2EE.Model.Policy

/-!
# Manifests

One manifest per generation. What storage can see of it is the plaintext header:
the position in the chain, the commitment to the generation key, and the padded
list of anonymous envelopes that carry the key. Everything else is in two
ciphertexts under subkeys of the generation key: the sealed header (policy,
signer, authorization, envelope audit, signature) and the body (refs, packs, the
link to the previous generation key, a policy the manifest introduces).

`sealManifest` builds the stored bytes; `openManifest` takes them apart under a
generation key; `verifyManifest` checks who signed them and that every active
reader has an envelope.
-/

namespace GitE2EE

open Wire Effect

def MAX_GENERATION_ENVELOPES : Nat := 4096
def MIN_GENERATION_ENVELOPES : Nat := 4
def MANIFEST_SIGNATURE_DOMAIN : Bytes := domain "manifest"

/-- `BTreeMap<String, String>`, from ref names to object ids. -/
abbrev RefMap := SortedMap Text Text

/-- A pack of a manifest: its place, the size it opens to, and the id of its ciphertext. -/
structure PackDescriptor where
  id : Text
  plaintextSize : Nat
  generation : Nat
  ordinal : Nat
deriving DecidableEq

/-- One HPKE envelope, which does not say whom it is for. -/
structure GenerationKeyEnvelope where
  encapsulatedKey : Text
  ciphertext : Text
deriving DecidableEq

/-- What the sealed header says of an envelope: a reader and the seed to seal it again with, or
padding. -/
inductive EnvelopeAuditEntry where
  | recipient (deviceId encapsulationSeed : Text)
  | dummy
deriving DecidableEq

/-- Which role the signature stands for. -/
inductive ManifestAuthorization where
  | writer
  | policyTransition
  | checkpoint
deriving DecidableEq

/-- All that a manifest says, put together from its header, its sealed header and its body. -/
structure Manifest where
  formatVersion : Nat
  repositoryRoot : Text
  generation : Nat
  previous : Option Text
  policyId : Text
  policyGeneration : Nat
  authorization : ManifestAuthorization
  totalPackCount : Nat
  refs : RefMap
  newPacks : List PackDescriptor
  predecessorKeyWrap : Option Text
  introducedPolicy : Option Bytes
deriving DecidableEq

/-- The complete plaintext part of a manifest. -/
structure ManifestHeader where
  formatVersion : Nat
  repositoryRoot : Text
  generation : Nat
  previous : Option Text
  keyCommitment : Text
  generationKeyEnvelopes : List GenerationKeyEnvelope
  bodyDigest : Text
  sealedHeaderDigest : Text
deriving DecidableEq

/-- The part of the header that only readers see. The signature covers its exact bytes. -/
structure SealedHeaderContent where
  policyId : Text
  policyGeneration : Nat
  signerDeviceId : Text
  authorization : ManifestAuthorization
  totalPackCount : Nat
  envelopeAudit : List EnvelopeAuditEntry
deriving DecidableEq

structure SealedHeaderEnvelope where
  content : Text
  signature : Text

/-- The part of a manifest that changes with every push. -/
structure ManifestBody where
  refs : RefMap
  newPacks : List PackDescriptor
  predecessorKeyWrap : Option Text
  introducedPolicy : Option Text

/-- The stored form: the exact header and two ciphertexts, each in Base64. -/
structure ManifestEnvelope where
  header : Text
  sealedHeaderCiphertext : Text
  bodyCiphertext : Text

/-- A manifest under its generation key, with the exact bytes its signature is over. The signer
is only claimed until `verifyManifest` has passed. -/
structure OpenedManifest where
  header : ManifestHeader
  manifest : Manifest
  claimedSignerId : Text
  exactHeader : Bytes
  exactSealedContent : Bytes
  signature : Bytes
deriving DecidableEq

/-! ## Serialized forms -/

def PackDescriptor.toJson (p : PackDescriptor) : Json :=
  .obj [(text "id", .str p.id), (text "plaintext_size", .nat p.plaintextSize),
    (text "generation", .nat p.generation), (text "ordinal", .nat p.ordinal)]

def PackDescriptor.ofJson (v : Json) : Option PackDescriptor := do
  let field ← v.fields [text "id", text "plaintext_size", text "generation", text "ordinal"]
  pure {
    id := ← Json.required Json.asText (field (text "id"))
    plaintextSize := ← Json.required (Json.asUnsigned 64) (field (text "plaintext_size"))
    generation := ← Json.required (Json.asUnsigned 64) (field (text "generation"))
    ordinal := ← Json.required (Json.asUnsigned 64) (field (text "ordinal")) }

def GenerationKeyEnvelope.toJson (e : GenerationKeyEnvelope) : Json :=
  .obj [(text "encapsulated_key", .str e.encapsulatedKey), (text "ciphertext", .str e.ciphertext)]

def GenerationKeyEnvelope.ofJson (v : Json) : Option GenerationKeyEnvelope := do
  let field ← v.fields [text "encapsulated_key", text "ciphertext"]
  pure {
    encapsulatedKey := ← Json.required Json.asText (field (text "encapsulated_key"))
    ciphertext := ← Json.required Json.asText (field (text "ciphertext")) }

/-- Internally tagged by `kind`. -/
def EnvelopeAuditEntry.toJson : EnvelopeAuditEntry → Json
  | .recipient deviceId seed =>
    .obj [(text "kind", .str (text "recipient")), (text "device_id", .str deviceId),
      (text "encapsulation_seed", .str seed)]
  | .dummy => .obj [(text "kind", .str (text "dummy"))]

/-- From an object, the unit variant ignores the other members and the struct
variant refuses unknown ones. From an array, the tag comes first. -/
def EnvelopeAuditEntry.ofJson (v : Json) : Option EnvelopeAuditEntry := do
  let (kind, content) ← match v with
    | .obj members => do
      let kind ← v.probe (text "kind")
      pure (kind, Json.obj (members.filter fun m => m.1 ≠ text "kind"))
    | .arr (kind :: rest) => some (kind, Json.arr rest)
    | _ => none
  let kind ← kind.asText
  if kind = text "recipient" then
    let field ← content.fields [text "device_id", text "encapsulation_seed"]
    pure (.recipient (← Json.required Json.asText (field (text "device_id")))
      (← Json.required Json.asText (field (text "encapsulation_seed"))))
  else if kind = text "dummy" then
    match content with
    | .arr (_ :: _) => none
    | _ => some .dummy
  else none

def ManifestAuthorization.name : ManifestAuthorization → Text
  | .writer => text "writer"
  | .policyTransition => text "policy_transition"
  | .checkpoint => text "checkpoint"

/-- The variant a name stands for. -/
def ManifestAuthorization.ofName (name : Text) : Option ManifestAuthorization :=
  if name = text "writer" then some .writer
  else if name = text "policy_transition" then some .policyTransition
  else if name = text "checkpoint" then some .checkpoint
  else none

/-- A unit variant is its name, or an object from its name to `null`. -/
def ManifestAuthorization.ofJson : Json → Option ManifestAuthorization
  | .str name => ofName name
  | .obj [(name, .null)] => ofName name
  | _ => none

def ManifestHeader.toJson (h : ManifestHeader) : Json :=
  .obj [(text "format_version", .nat h.formatVersion),
    (text "repository_root", .str h.repositoryRoot),
    (text "generation", .nat h.generation),
    (text "previous", Json.orNull .str h.previous),
    (text "key_commitment", .str h.keyCommitment),
    (text "generation_key_envelopes",
      .arr (h.generationKeyEnvelopes.map GenerationKeyEnvelope.toJson)),
    (text "body_digest", .str h.bodyDigest),
    (text "sealed_header_digest", .str h.sealedHeaderDigest)]

def ManifestHeader.ofJson (v : Json) : Option ManifestHeader := do
  let field ← v.fields [text "format_version", text "repository_root", text "generation",
    text "previous", text "key_commitment", text "generation_key_envelopes", text "body_digest",
    text "sealed_header_digest"]
  pure {
    formatVersion := ← Json.required (Json.asUnsigned 32) (field (text "format_version"))
    repositoryRoot := ← Json.required Json.asText (field (text "repository_root"))
    generation := ← Json.required (Json.asUnsigned 64) (field (text "generation"))
    previous := ← Json.optional Json.asText (field (text "previous"))
    keyCommitment := ← Json.required Json.asText (field (text "key_commitment"))
    generationKeyEnvelopes := ← Json.required (Json.asList GenerationKeyEnvelope.ofJson)
      (field (text "generation_key_envelopes"))
    bodyDigest := ← Json.required Json.asText (field (text "body_digest"))
    sealedHeaderDigest := ← Json.required Json.asText (field (text "sealed_header_digest")) }

def SealedHeaderContent.toJson (c : SealedHeaderContent) : Json :=
  .obj [(text "policy_id", .str c.policyId),
    (text "policy_generation", .nat c.policyGeneration),
    (text "signer_device_id", .str c.signerDeviceId),
    (text "authorization", .str c.authorization.name),
    (text "total_pack_count", .nat c.totalPackCount),
    (text "envelope_audit", .arr (c.envelopeAudit.map EnvelopeAuditEntry.toJson))]

def SealedHeaderContent.ofJson (v : Json) : Option SealedHeaderContent := do
  let field ← v.fields [text "policy_id", text "policy_generation", text "signer_device_id",
    text "authorization", text "total_pack_count", text "envelope_audit"]
  pure {
    policyId := ← Json.required Json.asText (field (text "policy_id"))
    policyGeneration := ← Json.required (Json.asUnsigned 64) (field (text "policy_generation"))
    signerDeviceId := ← Json.required Json.asText (field (text "signer_device_id"))
    authorization := ← Json.required ManifestAuthorization.ofJson (field (text "authorization"))
    totalPackCount := ← Json.required (Json.asUnsigned 64) (field (text "total_pack_count"))
    envelopeAudit := ← Json.required (Json.asList EnvelopeAuditEntry.ofJson)
      (field (text "envelope_audit")) }

def SealedHeaderEnvelope.toJson (e : SealedHeaderEnvelope) : Json :=
  .obj [(text "content", .str e.content), (text "signature", .str e.signature)]

def SealedHeaderEnvelope.ofJson (v : Json) : Option SealedHeaderEnvelope := do
  let field ← v.fields [text "content", text "signature"]
  pure {
    content := ← Json.required Json.asText (field (text "content"))
    signature := ← Json.required Json.asText (field (text "signature")) }

def refsToJson (refs : RefMap) : Json := .obj (refs.entries.map fun e => (e.1, .str e.2))

/-- A map keeps the last binding of a repeated key. -/
def refsOfJson : Json → Option RefMap
  | .obj members => do
    let entries ← members.mapM fun m => (Json.asText m.2).map fun v => (m.1, v)
    pure (SortedMap.ofList entries)
  | _ => none

def ManifestBody.toJson (b : ManifestBody) : Json :=
  .obj [(text "refs", refsToJson b.refs),
    (text "new_packs", .arr (b.newPacks.map PackDescriptor.toJson)),
    (text "predecessor_key_wrap", Json.orNull .str b.predecessorKeyWrap),
    (text "introduced_policy", Json.orNull .str b.introducedPolicy)]

def ManifestBody.ofJson (v : Json) : Option ManifestBody := do
  let field ← v.fields [text "refs", text "new_packs", text "predecessor_key_wrap",
    text "introduced_policy"]
  pure {
    refs := ← Json.required refsOfJson (field (text "refs"))
    newPacks := ← Json.required (Json.asList PackDescriptor.ofJson) (field (text "new_packs"))
    predecessorKeyWrap := ← Json.optional Json.asText (field (text "predecessor_key_wrap"))
    introducedPolicy := ← Json.optional Json.asText (field (text "introduced_policy")) }

def ManifestEnvelope.toJson (e : ManifestEnvelope) : Json :=
  .obj [(text "header", .str e.header),
    (text "sealed_header_ciphertext", .str e.sealedHeaderCiphertext),
    (text "body_ciphertext", .str e.bodyCiphertext)]

def ManifestEnvelope.ofJson (v : Json) : Option ManifestEnvelope := do
  let field ← v.fields [text "header", text "sealed_header_ciphertext", text "body_ciphertext"]
  pure {
    header := ← Json.required Json.asText (field (text "header"))
    sealedHeaderCiphertext := ← Json.required Json.asText (field (text "sealed_header_ciphertext"))
    bodyCiphertext := ← Json.required Json.asText (field (text "body_ciphertext")) }

/-! ## Signed and associated bytes -/

/-- A length-prefixed field; the length is cut to 32 bits. -/
def pushField (value : Bytes) : Bytes := leBytes 4 value.length ++ value

/-- What the signer of a manifest signs. The body enters by the digest of its ciphertext. -/
def manifestSignedBytes (exactHeader exactContent : Bytes) (bodyDigest : Text) : Bytes :=
  pushField exactHeader ++ pushField exactContent ++ pushField bodyDigest

/-- An envelope is bound to its recipient, which it does not name. -/
def generationKeyAad (root : Text) (generation : Nat) (recipientId commitment : Text) : Bytes :=
  domain "generation envelope" ++ pushField root ++ leBytes 4 FORMAT_VERSION
    ++ leBytes 8 generation ++ pushField commitment ++ pushField recipientId

def manifestBodyAad (root : Text) (generation : Nat) : Bytes :=
  domain "manifest body" ++ pushField root ++ leBytes 8 generation

/-- A link is bound to the manifest before, by its id. -/
def predecessorLinkAad (root : Text) (generation : Nat) (previousId : Text) : Bytes :=
  domain "predecessor link" ++ pushField root ++ leBytes 8 generation ++ pushField previousId

/-- A pack is bound to its place, so that it opens nowhere else. -/
def packAad (root : Text) (generation ordinal : Nat) : Bytes :=
  domain "pack" ++ pushField root ++ leBytes 8 generation ++ leBytes 8 ordinal

/-! ## Checks -/

/-- The manifest names the policy it is checked under. -/
def validateManifestPolicy (manifest : Manifest) (policy : PolicyState) : Result Unit :=
  bailIf (manifest.formatVersion ≠ FORMAT_VERSION
      ∨ manifest.repositoryRoot ≠ policy.body.repositoryRoot
      ∨ manifest.policyId ≠ policy.id
      ∨ manifest.policyGeneration ≠ policy.body.generation)
    "manifest does not match policy state"

/-- A transition carries the policy it selects, and nothing else carries one. -/
def validateIntroducedPolicy (P : Primitives) (manifest : Manifest) (selectedPolicy : PolicyState)
    (shouldIntroduce : Bool) : Result Unit :=
  match manifest.introducedPolicy, shouldIntroduce with
  | some bytes, true => do
    let policy ← withContext (PolicyState.parse P bytes) "parse introduced policy"
    bailIf (policy.id ≠ selectedPolicy.id)
      "manifest introduced policy id does not match its sealed header"
  | none, false => pure ()
  | some _, false => bail "ordinary manifest unexpectedly introduces a policy"
  | none, true => bail "policy transition manifest is missing its introduced policy"

/-- 64 hexadecimal digits of either case. -/
def isHex64 (t : Text) : Bool := t.length == 64 && t.all isHexDigit

/-- `usize::is_power_of_two`. -/
def isPowerOfTwo (n : Nat) : Bool := (List.range 64).any fun k => n == 2 ^ k

/-- What can be checked of a header without a key: the version, the form of its hexadecimal
fields, and the number of envelopes. -/
def validatePublicHeader (header : ManifestHeader) : Result Unit := do
  if header.formatVersion ≠ FORMAT_VERSION then
    .error (.of (.unsupported s!"unsupported manifest format {header.formatVersion}"))
  else
    bailIf (isHex64 header.repositoryRoot = false) "invalid manifest repository root"
    bailIf (isHex64 header.keyCommitment = false) "invalid generation key commitment"
    bailIf (isHex64 header.bodyDigest = false ∨ isHex64 header.sealedHeaderDigest = false)
      "invalid manifest part digest"
    let count := header.generationKeyEnvelopes.length
    bailIf (count < MIN_GENERATION_ENVELOPES ∨ MAX_GENERATION_ENVELOPES < count
        ∨ isPowerOfTwo count = false)
      "invalid padded generation envelope count"

/-- The loop of `validate_envelope_layout`, after the encapsulated key `previous`. -/
def validateEnvelopeLayoutFrom (previous : Option Bytes) :
    List GenerationKeyEnvelope → Result Unit
  | [] => pure ()
  | envelope :: rest => do
    let encapsulated ← decodeBase64As envelope.encapsulatedKey "decode HPKE encapsulated key"
    let ciphertext ← decodeBase64As envelope.ciphertext "decode HPKE ciphertext"
    bailIf (encapsulated.length ≠ HPKE_ENCAPSULATED_KEY_SIZE
        ∨ ciphertext.length ≠ HPKE_CIPHERTEXT_SIZE)
      "invalid generation envelope length"
    bailIf (previous.any fun prior => lexLe encapsulated prior)
      "generation envelopes are not sorted by encapsulated-key bytes"
    validateEnvelopeLayoutFrom (some encapsulated) rest

/-- Envelopes are strictly sorted, so that their order says nothing about the readers. -/
def validateEnvelopeLayout (header : ManifestHeader) : Result Unit :=
  validateEnvelopeLayoutFrom none header.generationKeyEnvelopes

/-- The loop of `validate_pack_delta`, at `index` with the ids seen so far. -/
def validatePackDeltaFrom (generation : Nat) (index : Nat) (ids : List Text) :
    List PackDescriptor → Result Unit
  | [] => pure ()
  | pack :: rest => do
    bailIf (pack.generation ≠ generation ∨ pack.ordinal ≠ index)
      "pack delta has a non-dense generation-local ordinal"
    bailIf (pack.plaintextSize = 0) "pack plaintext size must be nonzero"
    bailIf (pack.id ∈ ids) "pack delta contains a duplicate ciphertext id"
    validatePackDeltaFrom generation (index + 1) (pack.id :: ids) rest

/-- The new packs are numbered from zero, nonempty and distinct. -/
def validatePackDelta (manifest : Manifest) : Result Unit :=
  validatePackDeltaFrom manifest.generation 0 [] manifest.newPacks

namespace Manifest

/-- The first manifest, which introduces the first policy. -/
def genesis (repositoryRoot : Text) (policy : PolicyState) (policyBytes : Bytes) : Manifest where
  formatVersion := FORMAT_VERSION
  repositoryRoot := repositoryRoot
  generation := 0
  previous := none
  policyId := policy.id
  policyGeneration := policy.body.generation
  authorization := .policyTransition
  totalPackCount := 0
  refs := .empty
  newPacks := []
  predecessorKeyWrap := none
  introducedPolicy := some policyBytes

/-- A first manifest has nothing before it and no content. -/
def validateGenesis (P : Primitives) (manifest : Manifest) (policy : PolicyState) :
    Result Unit := do
  validateManifestPolicy manifest policy
  validateIntroducedPolicy P manifest policy true
  bailIf (manifest.generation ≠ 0
      ∨ manifest.previous.isSome
      ∨ manifest.authorization ≠ .policyTransition
      ∨ manifest.totalPackCount ≠ 0
      ∨ manifest.refs.isEmpty = false
      ∨ manifest.newPacks ≠ []
      ∨ manifest.predecessorKeyWrap.isSome)
    "invalid genesis manifest"

/-- A manifest that follows `previous`: one generation later, with the packs counted on, and
either the same policy or its direct child and the same content. -/
def validateSuccessor (P : Primitives) (manifest : Manifest) (previousId : Text)
    (previous : Manifest) (selectedPolicy : PolicyState) : Result Unit := do
  validateManifestPolicy manifest selectedPolicy
  bailIf (manifest.repositoryRoot ≠ previous.repositoryRoot) "manifest repository root changed"
  bailIf (checkedAdd previous.generation 1 ≠ some manifest.generation)
    "manifest generation is not consecutive"
  bailIf (manifest.previous ≠ some previousId) "manifest previous pointer does not match"
  bailIf (manifest.predecessorKeyWrap = none)
    "successor manifest is missing its predecessor key link"
  validatePackDelta manifest
  let expectedTotal ← orBail (checkedAdd previous.totalPackCount manifest.newPacks.length)
    "manifest total pack count overflow"
  bailIf (manifest.totalPackCount ≠ expectedTotal)
    "manifest total pack count does not match its delta"
  match manifest.authorization with
  | .writer =>
    validateIntroducedPolicy P manifest selectedPolicy false
    bailIf (manifest.policyId ≠ previous.policyId
        ∨ manifest.policyGeneration ≠ previous.policyGeneration)
      "writer manifest changed policy state"
  | .policyTransition =>
    validateIntroducedPolicy P manifest selectedPolicy true
    bailIf (checkedAdd previous.policyGeneration 1 ≠ some manifest.policyGeneration
        ∨ selectedPolicy.body.previous ≠ some previous.policyId)
      "policy transition did not select the direct policy child"
    bailIf (manifest.refs ≠ previous.refs ∨ manifest.newPacks ≠ [])
      "policy transition changed Git content"
  | .checkpoint =>
    .error (.of (.unsupported "checkpoint transitions are reserved but not implemented"))

end Manifest

/-! ## Envelopes -/

/-- The random draws of one `seal_manifest`. -/
structure Coins where
  /-- `random_seed()` for each reader. -/
  seeds : Nat → Bytes32
  /-- The generator, key and associated data of each padding envelope. -/
  dummyRngs : Nat → Bytes32
  dummyKeys : Nat → Bytes32
  dummyAads : Nat → Bytes32
  bodyNonce : Nonce
  headerNonce : Nonce

/-- `usize::checked_next_power_of_two`, trying `2 ^ k` upwards from `power`. -/
def nextPowerOfTwoFrom : Nat → Nat → Nat → Option Nat
  | 0, _, _ => none
  | fuel + 1, power, n => if n ≤ power then some power else nextPowerOfTwoFrom fuel (2 * power) n

/-- `usize::checked_next_power_of_two`. -/
def checkedNextPowerOfTwo (n : Nat) : Option Nat := nextPowerOfTwoFrom 64 1 n

/-- An envelope under construction: sort key, envelope, audit entry. -/
structure EnvelopePair where
  encapsulated : Bytes
  envelope : GenerationKeyEnvelope
  entry : EnvelopeAuditEntry

/-- The devices that get an envelope. -/
def activeReaders (policy : PolicyState) : List DeviceRecord :=
  policy.body.devices.filter DeviceRecord.activeReader

/-- The envelope of the `index`-th reader. -/
def readerEnvelope (P : Primitives) (coins : Coins) (manifest : Manifest)
    (generationKey : SecretKey) (commitment : Text) (index : Nat) (device : DeviceRecord) :
    Result EnvelopePair := do
  let seed := coins.seeds index
  let aad := generationKeyAad manifest.repositoryRoot manifest.generation device.pub.deviceId
    commitment
  let (encapsulated, ciphertext) ←
    wrapGenerationKeyWithSeed P device.pub.wrappingPublicKey generationKey aad seed
  pure {
    encapsulated
    envelope := {
      encapsulatedKey := base64Encode encapsulated
      ciphertext := base64Encode ciphertext }
    entry := .recipient device.pub.deviceId (base64Encode seed.val) }

/-- The `index`-th padding envelope. -/
def paddingEnvelope (P : Primitives) (coins : Coins) (index : Nat) : Result EnvelopePair := do
  let (encapsulated, ciphertext) ←
    dummyGenerationEnvelope P (coins.dummyRngs index) (coins.dummyKeys index)
      (coins.dummyAads index)
  pure {
    encapsulated
    envelope := {
      encapsulatedKey := base64Encode encapsulated
      ciphertext := base64Encode ciphertext }
    entry := .dummy }

/-- The padded number of envelopes for a number of readers. -/
def paddedEnvelopeCount (readers : Nat) : Result Nat := do
  let power ← orBail (checkedNextPowerOfTwo readers) "active reader count is too large"
  let count := max power MIN_GENERATION_ENVELOPES
  bailIf (MAX_GENERATION_ENVELOPES < count) "padded generation envelope count exceeds 4096"
  pure count

/-- One envelope for each active reader, padded to a power of two and sorted by the encapsulated
key. -/
def buildEnvelopes (P : Primitives) (coins : Coins) (policy : PolicyState) (manifest : Manifest)
    (generationKey : SecretKey) (commitment : Text) :
    Result (List GenerationKeyEnvelope × List EnvelopeAuditEntry) := do
  let readers := activeReaders policy
  bailIf (readers = []) "policy has no active readers"
  let count ← paddedEnvelopeCount readers.length
  let real ← readers.zipIdx.mapM fun (device, index) =>
    readerEnvelope P coins manifest generationKey commitment index device
  let padding ← (List.range (count - real.length)).mapM (paddingEnvelope P coins)
  let pairs := (real ++ padding).insertionSort fun left right =>
    lexLe left.encapsulated right.encapsulated = true
  pure (pairs.map EnvelopePair.envelope, pairs.map EnvelopePair.entry)

/-- The loop of `validate_envelope_audit`, with the device ids audited so far. It
returns all of them. -/
def validateEnvelopeAuditFrom (P : Primitives) (header : ManifestHeader) (policy : PolicyState)
    (generationKey : SecretKey) (active audited : List Text) :
    List (GenerationKeyEnvelope × EnvelopeAuditEntry) → Result (List Text)
  | [] => pure audited
  | (_, .dummy) :: rest =>
    validateEnvelopeAuditFrom P header policy generationKey active audited rest
  | (envelope, .recipient deviceId encapsulationSeed) :: rest => do
    bailIf (deviceId ∉ active) "envelope audit names a device that is not an active reader"
    bailIf (deviceId ∈ audited) "envelope audit contains a duplicate reader"
    let seedBytes ← decodeBase64As encapsulationSeed "decode envelope audit seed"
    let seed ← orBail (toBytes32 seedBytes) "invalid envelope audit seed length"
    let recipient ← orBail (policy.device deviceId) "envelope audit names an unknown device"
    let aad := generationKeyAad header.repositoryRoot header.generation deviceId
      header.keyCommitment
    let (encapsulated, ciphertext) ←
      wrapGenerationKeyWithSeed P recipient.pub.wrappingPublicKey generationKey aad seed
    bailIf (base64Encode encapsulated ≠ envelope.encapsulatedKey
        ∨ base64Encode ciphertext ≠ envelope.ciphertext)
      "generation envelope does not match its sealed audit entry"
    validateEnvelopeAuditFrom P header policy generationKey active (deviceId :: audited) rest

/-- Seals every audited envelope again, and compares the audited devices with the active
readers. A padding entry is taken at its word. -/
def validateEnvelopeAudit (P : Primitives) (header : ManifestHeader)
    (audit : List EnvelopeAuditEntry) (policy : PolicyState) (generationKey : SecretKey) :
    Result Unit := do
  bailIf (audit.length ≠ header.generationKeyEnvelopes.length)
    "envelope audit count does not match the envelope list"
  let active := (activeReaders policy).map fun d => d.pub.deviceId
  let audited ← validateEnvelopeAuditFrom P header policy generationKey active []
    (header.generationKeyEnvelopes.zip audit)
  -- the two sets of ids are equal
  bailIf (¬ (∀ id ∈ active, id ∈ audited) ∨ ¬ (∀ id ∈ audited, id ∈ active))
    "envelope audit must match active readers exactly"

/-! ## Sealing -/

/-- What a manifest to be sealed must introduce. -/
def validateIntroduction (P : Primitives) (authorization : ManifestAuthorization)
    (manifest : Manifest) (policy : PolicyState) : Result Unit :=
  match authorization with
  | .writer => validateIntroducedPolicy P manifest policy false
  | .policyTransition => validateIntroducedPolicy P manifest policy true
  | .checkpoint =>
    .error (.of (.unsupported "checkpoint transitions are reserved but not implemented"))

/-- Builds the stored bytes. The header holds the digests of the body's ciphertext and of the
sealed content, and is itself the associated data of the sealed header. -/
def sealManifest (P : Primitives) (coins : Coins) (key : KeyFile) (policy : PolicyState)
    (generationKey : SecretKey) (authorization : ManifestAuthorization) (manifest : Manifest) :
    Result Bytes := do
  validateManifestPolicy manifest policy
  bailIf (manifest.authorization ≠ authorization)
    "manifest authorization does not match its transition"
  validateIntroduction P authorization manifest policy
  validatePackDelta manifest
  let commitment := commitKey P generationKey
  let (generationKeyEnvelopes, envelopeAudit) ←
    buildEnvelopes P coins policy manifest generationKey commitment
  let body := (ManifestBody.toJson {
    refs := manifest.refs
    newPacks := manifest.newPacks
    predecessorKeyWrap := manifest.predecessorKeyWrap
    introducedPolicy := manifest.introducedPolicy.map base64Encode }).write
  let bodyKey ← deriveSubkey P generationKey manifest.repositoryRoot manifest.generation
    .manifestBody 0
  let bodyCiphertext ← sealWithKey P bodyKey coins.bodyNonce body
    (manifestBodyAad manifest.repositoryRoot manifest.generation)
  let bodyDigest := hexEncode (P.sha256 bodyCiphertext).val
  let content : SealedHeaderContent := {
    policyId := manifest.policyId
    policyGeneration := manifest.policyGeneration
    signerDeviceId := ← key.deviceId P
    authorization
    totalPackCount := manifest.totalPackCount
    envelopeAudit }
  let exactSealedContent := content.toJson.write
  let header : ManifestHeader := {
    formatVersion := manifest.formatVersion
    repositoryRoot := manifest.repositoryRoot
    generation := manifest.generation
    previous := manifest.previous
    keyCommitment := commitment
    generationKeyEnvelopes
    bodyDigest
    sealedHeaderDigest := hexEncode (P.sha256 exactSealedContent).val }
  validatePublicHeader header
  validateEnvelopeLayout header
  let exactHeader := header.toJson.write
  let signedBytes := manifestSignedBytes exactHeader exactSealedContent header.bodyDigest
  let sealedBytes := (SealedHeaderEnvelope.toJson {
    content := base64Encode exactSealedContent
    signature := base64Encode (← key.signDomain P MANIFEST_SIGNATURE_DOMAIN signedBytes) }).write
  let sealedKey ← deriveSubkey P generationKey header.repositoryRoot header.generation
    .sealedHeader 0
  let sealedHeaderCiphertext ← sealWithKey P sealedKey coins.headerNonce sealedBytes exactHeader
  pure (ManifestEnvelope.toJson {
    header := base64Encode exactHeader
    sealedHeaderCiphertext := base64Encode sealedHeaderCiphertext
    bodyCiphertext := base64Encode bodyCiphertext }).write

/-! ## Opening -/

/-- Checks the format version before the full schema. -/
def requireSupportedFormat (P : Primitives) (encrypted : Bytes) : Result Unit := do
  let envelope ← fromSlice P (fun v => (v.probe (text "header")).bind Json.asText) encrypted
    "parse manifest envelope"
  let header ← decodeBase64As envelope "decode manifest header"
  let version ← fromSlice P
    (fun v => (v.probe (text "format_version")).bind (Json.asUnsigned 64)) header
    "parse manifest format version"
  if version ≠ FORMAT_VERSION then
    .error (.of (.unsupported s!"unsupported manifest format {version}"))
  else pure ()

/-- Checks the transition discriminator before the full sealed-header schema. -/
def requireSupportedAuthorization (P : Primitives) (exactSealedContent : Bytes) :
    Result Unit := do
  let authorization ← fromSlice P
    (fun v => (v.probe (text "authorization")).bind Json.asText) exactSealedContent
    "parse sealed manifest authorization"
  if ManifestAuthorization.ofName authorization = none then
    .error (.of (.unsupported s!"unsupported manifest authorization {quoted authorization}"))
  else pure ()

/-- The header without a key. -/
def peekManifestHeader (P : Primitives) (encrypted : Bytes) : Result ManifestHeader := do
  requireSupportedFormat P encrypted
  let envelope ← fromSlice P ManifestEnvelope.ofJson encrypted "parse manifest envelope"
  let exactHeader ← decodeBase64As envelope.header "decode manifest header"
  let header ← fromSlice P ManifestHeader.ofJson exactHeader "parse manifest header"
  validatePublicHeader header
  pure header

/-- The trial-decryption loop of `unwrap_generation_key`. -/
def tryEnvelopes (P : Primitives) (header : ManifestHeader) (key : KeyFile) (deviceId : Text) :
    List GenerationKeyEnvelope → Result SecretKey
  | [] => .error (.of .notActiveReader)
  | envelope :: rest =>
    match base64Decode envelope.encapsulatedKey, base64Decode envelope.ciphertext with
    | some encapsulatedKey, some ciphertext =>
      let aad := generationKeyAad header.repositoryRoot header.generation deviceId
        header.keyCommitment
      match key.unwrapEnvelope P encapsulatedKey ciphertext aad with
      | .ok generationKey =>
        if (verifyKeyCommitment P generationKey header.keyCommitment).isOk then .ok generationKey
        else tryEnvelopes P header key deviceId rest
      | .error _ => tryEnvelopes P header key deviceId rest
    | _, _ => tryEnvelopes P header key deviceId rest

/-- The generation key for one device, by trying every envelope. A key of another repository is
told apart from one without access. -/
def unwrapGenerationKey (P : Primitives) (header : ManifestHeader) (key : KeyFile) :
    Result SecretKey :=
  if key.repositoryRoot ≠ header.repositoryRoot then .error (.of .foreignRepository)
  else do
    validatePublicHeader header
    let deviceId ← key.deviceId P
    tryEnvelopes P header key deviceId header.generationKeyEnvelopes

def decodeIntroduced : Option Text → Result (Option Bytes)
  | none => pure none
  | some encoded => do pure (some (← decodeBase64As encoded "decode introduced policy"))

/-- The manifest that the three parts of an opened envelope describe. -/
def assembleManifest (header : ManifestHeader) (content : SealedHeaderContent)
    (body : ManifestBody) (introducedPolicy : Option Bytes) : Manifest where
  formatVersion := header.formatVersion
  repositoryRoot := header.repositoryRoot
  generation := header.generation
  previous := header.previous
  policyId := content.policyId
  policyGeneration := content.policyGeneration
  authorization := content.authorization
  totalPackCount := content.totalPackCount
  refs := body.refs
  newPacks := body.newPacks
  predecessorKeyWrap := body.predecessorKeyWrap
  introducedPolicy := introducedPolicy

/-- Takes stored bytes apart under a generation key, and checks all that does not need a policy.
-/
def openManifest (P : Primitives) (encrypted : Bytes) (generationKey : SecretKey) :
    Result OpenedManifest := do
  requireSupportedFormat P encrypted
  let envelope ← fromSlice P ManifestEnvelope.ofJson encrypted "parse manifest envelope"
  let exactHeader ← decodeBase64As envelope.header "decode manifest header"
  let header ← fromSlice P ManifestHeader.ofJson exactHeader "parse manifest header"
  validatePublicHeader header
  verifyKeyCommitment P generationKey header.keyCommitment
  let sealedHeaderCiphertext ←
    decodeBase64As envelope.sealedHeaderCiphertext "decode sealed manifest header"
  let bodyCiphertext ← decodeBase64As envelope.bodyCiphertext "decode manifest body"
  bailIf (hexEncode (P.sha256 bodyCiphertext).val ≠ header.bodyDigest)
    "manifest body digest mismatch"
  let sealedKey ← deriveSubkey P generationKey header.repositoryRoot header.generation
    .sealedHeader 0
  let sealedBytes ← withContext (openWithKey P sealedKey sealedHeaderCiphertext exactHeader)
    "open sealed manifest header"
  let sealedHeader ← fromSlice P SealedHeaderEnvelope.ofJson sealedBytes
    "parse sealed manifest header"
  let exactSealedContent ← decodeBase64As sealedHeader.content "decode sealed manifest content"
  bailIf (hexEncode (P.sha256 exactSealedContent).val ≠ header.sealedHeaderDigest)
    "sealed manifest header digest mismatch"
  requireSupportedAuthorization P exactSealedContent
  let content ← fromSlice P SealedHeaderContent.ofJson exactSealedContent
    "parse sealed manifest content"
  bailIf (content.toJson.write ≠ exactSealedContent)
    "sealed manifest content is not canonically encoded"
  let signature ← decodeBase64As sealedHeader.signature "decode manifest signature"
  let bodyKey ← deriveSubkey P generationKey header.repositoryRoot header.generation
    .manifestBody 0
  let bodyBytes ← openWithKey P bodyKey bodyCiphertext
    (manifestBodyAad header.repositoryRoot header.generation)
  let body ← fromSlice P ManifestBody.ofJson bodyBytes "parse manifest body"
  let introducedPolicy ← decodeIntroduced body.introducedPolicy
  let manifest := assembleManifest header content body introducedPolicy
  validatePackDelta manifest
  bailIf ((manifest.generation == 0) ≠ manifest.predecessorKeyWrap.isNone)
    "manifest predecessor key link does not match its generation"
  bailIf (manifest.generation = 0 ∧ manifest.previous.isSome
      ∨ 0 < manifest.generation ∧ manifest.previous.isNone)
    "manifest previous pointer does not match its generation"
  pure {
    header
    manifest
    claimedSignerId := content.signerDeviceId
    exactHeader
    exactSealedContent
    signature }

/-! ## Verifying -/

/-- The device whose signature authorizes a manifest. -/
def authorizingDevice (content : SealedHeaderContent) (selectedPolicy : PolicyState)
    (parentPolicy : Option PolicyState) : Result DeviceRecord :=
  match content.authorization with
  | .writer =>
    orBail ((selectedPolicy.device content.signerDeviceId).filter DeviceRecord.activeWriter)
      "manifest was not signed by an active writer"
  | .policyTransition =>
    let authorizing := parentPolicy.getD selectedPolicy
    orBail ((authorizing.device content.signerDeviceId).filter DeviceRecord.activeAdministrator)
      "policy transition manifest was not signed by a parent administrator"
  | .checkpoint =>
    .error (.of (.unsupported "checkpoint transitions are reserved but not implemented"))

/-- Checks an opened manifest under a policy: who signed it, and that every active reader can
open it. -/
def verifyManifest (P : Primitives) (opened : OpenedManifest) (selectedPolicy : PolicyState)
    (parentPolicy : Option PolicyState) (generationKey : SecretKey) : Result Unit := do
  let manifest := opened.manifest
  validateManifestPolicy manifest selectedPolicy
  validatePublicHeader opened.header
  validateEnvelopeLayout opened.header
  bailIf (manifest.formatVersion ≠ opened.header.formatVersion
      ∨ manifest.repositoryRoot ≠ opened.header.repositoryRoot
      ∨ manifest.generation ≠ opened.header.generation
      ∨ manifest.previous ≠ opened.header.previous)
    "sealed manifest metadata does not match its plaintext header"
  let content ← fromSlice P SealedHeaderContent.ofJson opened.exactSealedContent
    "parse sealed manifest content"
  bailIf (content.toJson.write ≠ opened.exactSealedContent
      ∨ content.policyId ≠ manifest.policyId
      ∨ content.policyGeneration ≠ manifest.policyGeneration
      ∨ content.authorization ≠ manifest.authorization
      ∨ content.totalPackCount ≠ manifest.totalPackCount)
    "opened manifest fields do not match the signed sealed header"
  let authorizing ← authorizingDevice content selectedPolicy parentPolicy
  verifyDomain P authorizing.pub.signingPublicKey MANIFEST_SIGNATURE_DOMAIN
    (manifestSignedBytes opened.exactHeader opened.exactSealedContent opened.header.bodyDigest)
    opened.signature
  validateEnvelopeAudit P opened.header content.envelopeAudit selectedPolicy generationKey

/-! ## The link to the previous generation key -/

/-- The previous generation key under a subkey of this one, by which a reader goes back along
the chain. -/
def wrapPredecessorKey (P : Primitives) (nonce : Nonce) (generationKey previousKey : SecretKey)
    (repositoryRoot : Text) (generation : Nat) (previousManifestId : Text) : Result Text := do
  let linkKey ← deriveSubkey P generationKey repositoryRoot generation .predecessorLink 0
  let wrapped ← sealWithKey P linkKey nonce previousKey.val
    (predecessorLinkAad repositoryRoot generation previousManifestId)
  pure (base64Encode wrapped)

/-- The previous generation key, which has to be the one the previous header commits to. -/
def unwrapPredecessorKey (P : Primitives) (generationKey : SecretKey) (manifest : Manifest)
    (parentHeader : ManifestHeader) : Result SecretKey := do
  let previousId ← orBail manifest.previous "genesis manifest has no predecessor key"
  let encrypted ← orBail manifest.predecessorKeyWrap
    "successor manifest is missing predecessor key link"
  bailIf (checkedAdd parentHeader.generation 1 ≠ some manifest.generation
      ∨ parentHeader.repositoryRoot ≠ manifest.repositoryRoot)
    "predecessor header does not match manifest generation"
  let linkKey ← deriveSubkey P generationKey manifest.repositoryRoot manifest.generation
    .predecessorLink 0
  let plaintext ← openWithKey P linkKey (← decodeBase64 encrypted)
    (predecessorLinkAad manifest.repositoryRoot manifest.generation previousId)
  let key ← orBail (toBytes32 plaintext) "invalid predecessor generation key length"
  verifyKeyCommitment P key parentHeader.keyCommitment
  pure key

end GitE2EE

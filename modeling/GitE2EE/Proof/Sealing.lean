import GitE2EE.Proof.Codec
import GitE2EE.Proof.Opened
import GitE2EE.Proof.Policy

/-!
# Sealed manifests open

`sealManifest` and `openManifest` check different things in different orders.
`SealParts` names the pieces the sealer computed; the lemmas below follow each
piece through the reader's checks.

What the libraries promise is `Lawful`: an AEAD opens what it sealed, HPKE opens
for the recipient it sealed to, a signature verifies under its own key, and the
JSON reader reads this program's documents back.
-/

namespace GitE2EE

open Wire Effect

/-- What the libraries promise. -/
structure Lawful (P : Primitives) : Prop where
  json : ReadsJson P
  aead_open : ∀ {key nonce plaintext aad ciphertext},
    P.aeadSeal key nonce plaintext aad = some ciphertext →
      P.aeadOpen key nonce ciphertext aad = some plaintext
        ∧ ciphertext.length = plaintext.length + 16
  sign_verify : ∀ key message,
    P.ed25519Verify (P.ed25519Public key) message (P.ed25519Sign key message) = true
      ∧ (P.ed25519Sign key message).length = 64
  hpke_open : ∀ {secret info plaintext aad rng encapsulated ciphertext},
    secret.length = 32 → P.hpkeSeal (P.x25519Public secret) info plaintext aad rng
      = some (encapsulated, ciphertext) →
      P.hpkeOpen secret encapsulated info ciphertext aad = some plaintext
  hpke_length : ∀ {recipient info plaintext aad rng encapsulated ciphertext},
    P.hpkeSeal recipient info plaintext aad rng = some (encapsulated, ciphertext) →
      encapsulated.length = 32 ∧ ciphertext.length = plaintext.length + 16
  x25519_length : ∀ secret : Bytes, secret.length = 32 → (P.x25519Public secret).length = 32

variable {P : Primitives}

/-! ## Framed ciphertexts -/

section

variable (nonce : Nonce) (ciphertext : Bytes)

/-- Behind the magic comes the nonce. -/
theorem drop_frame_magic :
    (SYMMETRIC_MAGIC ++ nonce.val ++ ciphertext).drop 8 = nonce.val ++ ciphertext := by
  rw [List.append_assoc]
  exact List.drop_left' rfl

/-- Behind the nonce comes the ciphertext. -/
theorem drop_frame : (SYMMETRIC_MAGIC ++ nonce.val ++ ciphertext).drop 32 = ciphertext := by
  rw [show 32 = 8 + 24 from rfl, ← List.drop_drop, drop_frame_magic,
    List.drop_left' nonce.property]

/-- A frame comes apart into what it was put together from. -/
theorem splitEnvelope_frame (h : 16 ≤ ciphertext.length) :
    splitEnvelope (SYMMETRIC_MAGIC ++ nonce.val ++ ciphertext) = some (nonce, ciphertext) := by
  have hmagic : SYMMETRIC_MAGIC.length = 8 := rfl
  have htake : (SYMMETRIC_MAGIC ++ nonce.val ++ ciphertext).take 8 = SYMMETRIC_MAGIC := by
    rw [List.append_assoc]
    exact List.take_left' rfl
  have hnonce : (nonce.val ++ ciphertext).take 24 = nonce.val := List.take_left' nonce.property
  have hlength : ¬ (SYMMETRIC_MAGIC ++ nonce.val ++ ciphertext).length < 8 + 24 + 16 := by
    simp only [List.length_append, hmagic, nonce.property]
    omega
  unfold splitEnvelope
  rw [if_neg (by rw [htake]; push Not; exact ⟨Nat.le_of_not_lt hlength, rfl⟩)]
  rw [dif_pos (by rw [drop_frame_magic, hnonce]; exact nonce.property)]
  simp only [drop_frame_magic, hnonce, drop_frame]

end

/-- **What was sealed under a key opens under it**, with the same associated data. -/
theorem openWithKey_sealWithKey (hP : Lawful P) {key : SecretKey} {nonce : Nonce}
    {plaintext aad envelope : Bytes}
    (h : sealWithKey P key nonce plaintext aad = .ok envelope) :
    openWithKey P key envelope aad = .ok plaintext := by
  simp only [sealWithKey, except_bind_eq_ok, orBail_eq_ok] at h
  obtain ⟨ciphertext, hseal, h⟩ := h
  cases h
  obtain ⟨hopen, hlength⟩ := hP.aead_open hseal
  simp only [openWithKey, except_bind_eq_ok, orBail_eq_ok]
  exact ⟨(nonce, ciphertext), splitEnvelope_frame nonce ciphertext (by omega), hopen⟩

@[simp] theorem verifyKeyCommitment_commitKey (key : SecretKey) :
    verifyKeyCommitment P key (commitKey P key) = .ok () := by
  simp [verifyKeyCommitment, commitKey, except_bind_eq_ok]

theorem decodeBase64As_encode (bytes : Bytes) (what : String) :
    decodeBase64As (base64Encode bytes) what = .ok bytes := by
  simp [decodeBase64As, decodeBase64]

/-! ## The parts of a sealed manifest -/

/-- What the sealer computed on the way to the stored bytes. -/
structure SealParts where
  envelopes : List GenerationKeyEnvelope
  audit : List EnvelopeAuditEntry
  bodyCiphertext : Bytes
  signerId : Text
  signature : Bytes
  sealedHeaderCiphertext : Bytes

/-- What is sealed under the body key. -/
def SealParts.body (manifest : Manifest) : ManifestBody where
  refs := manifest.refs
  newPacks := manifest.newPacks
  predecessorKeyWrap := manifest.predecessorKeyWrap
  introducedPolicy := manifest.introducedPolicy.map base64Encode

/-- What the signer vouches for. -/
def SealParts.content (parts : SealParts) (manifest : Manifest) : SealedHeaderContent where
  policyId := manifest.policyId
  policyGeneration := manifest.policyGeneration
  signerDeviceId := parts.signerId
  authorization := manifest.authorization
  totalPackCount := manifest.totalPackCount
  envelopeAudit := parts.audit

/-- What everybody can read. -/
def SealParts.header (P : Primitives) (parts : SealParts) (generationKey : SecretKey)
    (manifest : Manifest) : ManifestHeader where
  formatVersion := manifest.formatVersion
  repositoryRoot := manifest.repositoryRoot
  generation := manifest.generation
  previous := manifest.previous
  keyCommitment := commitKey P generationKey
  generationKeyEnvelopes := parts.envelopes
  bodyDigest := hexEncode (P.sha256 parts.bodyCiphertext).val
  sealedHeaderDigest := hexEncode (P.sha256 (parts.content manifest).toJson.write).val

/-- What is sealed under the header key. -/
def SealParts.sealedHeader (parts : SealParts) (manifest : Manifest) : SealedHeaderEnvelope where
  content := base64Encode (parts.content manifest).toJson.write
  signature := base64Encode parts.signature

/-- The stored bytes. -/
def SealParts.encrypted (P : Primitives) (parts : SealParts) (generationKey : SecretKey)
    (manifest : Manifest) : Bytes :=
  (ManifestEnvelope.toJson {
    header := base64Encode (parts.header P generationKey manifest).toJson.write
    sealedHeaderCiphertext := base64Encode parts.sealedHeaderCiphertext
    bodyCiphertext := base64Encode parts.bodyCiphertext }).write

/-- How `sealManifest` came by its parts. -/
structure Sealed (P : Primitives) (coins : Coins) (key : KeyFile) (policy : PolicyState)
    (generationKey : SecretKey) (manifest : Manifest) (parts : SealParts) : Prop where
  matchesPolicy : validateManifestPolicy manifest policy = .ok ()
  introduction : validateIntroduction P manifest.authorization manifest policy = .ok ()
  delta : validatePackDelta manifest = .ok ()
  envelopes : buildEnvelopes P coins policy manifest generationKey (commitKey P generationKey)
    = .ok (parts.envelopes, parts.audit)
  body : ∃ bodyKey, deriveSubkey P generationKey manifest.repositoryRoot manifest.generation
      .manifestBody 0 = .ok bodyKey
    ∧ sealWithKey P bodyKey coins.bodyNonce (SealParts.body manifest).toJson.write
      (manifestBodyAad manifest.repositoryRoot manifest.generation) = .ok parts.bodyCiphertext
  signer : key.deviceId P = .ok parts.signerId
  publicHeader : validatePublicHeader (parts.header P generationKey manifest) = .ok ()
  layout : validateEnvelopeLayout (parts.header P generationKey manifest) = .ok ()
  signature : key.signDomain P MANIFEST_SIGNATURE_DOMAIN (manifestSignedBytes
      (parts.header P generationKey manifest).toJson.write (parts.content manifest).toJson.write
      (parts.header P generationKey manifest).bodyDigest) = .ok parts.signature
  sealedHeader : ∃ sealedKey, deriveSubkey P generationKey manifest.repositoryRoot
      manifest.generation .sealedHeader 0 = .ok sealedKey
    ∧ sealWithKey P sealedKey coins.headerNonce (parts.sealedHeader manifest).toJson.write
      (parts.header P generationKey manifest).toJson.write = .ok parts.sealedHeaderCiphertext

/-- What opening the stored bytes depends on. -/
structure Framed (P : Primitives) (generationKey : SecretKey) (manifest : Manifest)
    (parts : SealParts) : Prop where
  delta : validatePackDelta manifest = .ok ()
  header : (parts.header P generationKey manifest).Encodable
  publicHeader : validatePublicHeader (parts.header P generationKey manifest) = .ok ()
  body : ∃ bodyKey nonce, deriveSubkey P generationKey manifest.repositoryRoot
      manifest.generation .manifestBody 0 = .ok bodyKey
    ∧ sealWithKey P bodyKey nonce (SealParts.body manifest).toJson.write
      (manifestBodyAad manifest.repositoryRoot manifest.generation) = .ok parts.bodyCiphertext
  sealedHeader : ∃ sealedKey nonce, deriveSubkey P generationKey manifest.repositoryRoot
      manifest.generation .sealedHeader 0 = .ok sealedKey
    ∧ sealWithKey P sealedKey nonce (parts.sealedHeader manifest).toJson.write
      (parts.header P generationKey manifest).toJson.write = .ok parts.sealedHeaderCiphertext

/-- **Sealing, taken apart and put together.** -/
theorem sealManifest_eq_ok {coins : Coins} {key : KeyFile} {policy : PolicyState}
    {generationKey : SecretKey} {authorization : ManifestAuthorization} {manifest : Manifest}
    {encrypted : Bytes} :
    sealManifest P coins key policy generationKey authorization manifest = .ok encrypted ↔
      manifest.authorization = authorization ∧ ∃ parts,
        Sealed P coins key policy generationKey manifest parts
          ∧ encrypted = parts.encrypted P generationKey manifest := by
  simp only [sealManifest, except_bind_eq_ok, bailIf_eq_ok]
  constructor
  · rintro ⟨⟨⟩, hpolicy, ⟨⟩, hauth, ⟨⟩, hintro, ⟨⟩, hdelta, ⟨envelopes, audit⟩, henv, bodyKey, hbk,
      bodyCt, hbody, signerId, hsigner, ⟨⟩, hpublic, ⟨⟩, hlayout, signature, hsig, sealedKey, hsk,
      sealedCt, hsealed, h⟩
    -- the authorization asked for is the one in the manifest
    push Not at hauth
    subst hauth
    cases h
    exact ⟨rfl, ⟨envelopes, audit, bodyCt, signerId, signature, sealedCt⟩,
      ⟨hpolicy, hintro, hdelta, henv, ⟨bodyKey, hbk, hbody⟩, hsigner, hpublic, hlayout, hsig,
        ⟨sealedKey, hsk, hsealed⟩⟩, rfl⟩
  · rintro ⟨rfl, parts, h, rfl⟩
    obtain ⟨bodyKey, hbk, hbody⟩ := h.body
    obtain ⟨sealedKey, hsk, hsealed⟩ := h.sealedHeader
    exact ⟨(), h.matchesPolicy, (), by simp, (), h.introduction, (), h.delta,
      (parts.envelopes, parts.audit), h.envelopes, bodyKey, hbk, parts.bodyCiphertext, hbody,
      parts.signerId, h.signer, (), h.publicHeader, (), h.layout, parts.signature, h.signature,
      sealedKey, hsk, parts.sealedHeaderCiphertext, hsealed, rfl⟩

/-! ## The envelopes -/

/-- An envelope for an active reader, sealed with the seed its audit entry records. -/
def ReaderPair (P : Primitives) (policy : PolicyState) (manifest : Manifest)
    (generationKey : SecretKey) (commitment : Text) (device : DeviceRecord) (pair : EnvelopePair) :
    Prop :=
  device ∈ activeReaders policy ∧ ∃ (seed : Bytes32) (ciphertext : Bytes),
    wrapGenerationKeyWithSeed P device.pub.wrappingPublicKey generationKey
        (generationKeyAad manifest.repositoryRoot manifest.generation device.pub.deviceId
          commitment) seed = .ok (pair.encapsulated, ciphertext)
      ∧ pair.envelope = ⟨base64Encode pair.encapsulated, base64Encode ciphertext⟩
      ∧ pair.entry = .recipient device.pub.deviceId (base64Encode seed.val)

/-- A padding envelope. -/
def PaddingPair (pair : EnvelopePair) : Prop :=
  (∃ ciphertext, pair.envelope = ⟨base64Encode pair.encapsulated, base64Encode ciphertext⟩)
    ∧ pair.entry = .dummy

/-- What `buildEnvelopes` returns, before it is split into two lists. -/
structure BuiltEnvelopes (P : Primitives) (policy : PolicyState) (manifest : Manifest)
    (generationKey : SecretKey) (commitment : Text) (pairs : List EnvelopePair) : Prop where
  split : ∃ real padding, pairs.Perm (real ++ padding)
    ∧ List.Forall₂ (ReaderPair P policy manifest generationKey commitment)
        (activeReaders policy) real
    ∧ ∀ pair ∈ padding, PaddingPair pair
  count : paddedEnvelopeCount (activeReaders policy).length = .ok pairs.length

theorem readerEnvelope_ok {coins : Coins} {policy : PolicyState} {manifest : Manifest}
    {generationKey : SecretKey} {commitment : Text} {index : Nat} {device : DeviceRecord}
    {pair : EnvelopePair} (hd : device ∈ activeReaders policy)
    (h : readerEnvelope P coins manifest generationKey commitment index device = .ok pair) :
    ReaderPair P policy manifest generationKey commitment device pair := by
  simp only [readerEnvelope, except_bind_eq_ok] at h
  obtain ⟨⟨encapsulated, ciphertext⟩, hwrap, h⟩ := h
  cases h
  exact ⟨hd, coins.seeds index, ciphertext, hwrap, rfl, rfl⟩

theorem paddingEnvelope_ok {coins : Coins} {index : Nat} {pair : EnvelopePair}
    (h : paddingEnvelope P coins index = .ok pair) : PaddingPair pair := by
  simp only [paddingEnvelope, except_bind_eq_ok] at h
  obtain ⟨⟨encapsulated, ciphertext⟩, -, h⟩ := h
  cases h
  exact ⟨⟨ciphertext, rfl⟩, rfl⟩

theorem nextPowerOfTwoFrom_le {fuel power n k : Nat}
    (h : nextPowerOfTwoFrom fuel power n = some k) :
    n ≤ k := by
  induction fuel generalizing power with
  | zero => cases h
  | succ fuel ih =>
    simp only [nextPowerOfTwoFrom] at h
    split at h
    · cases h; assumption
    · exact ih h

theorem paddedEnvelopeCount_le {readers count : Nat} (h : paddedEnvelopeCount readers = .ok count) :
    readers ≤ count := by
  simp only [paddedEnvelopeCount, except_bind_eq_ok, orBail_eq_ok] at h
  obtain ⟨power, hpower, ⟨⟩, -, h⟩ := h
  cases h
  exact Nat.le_trans (nextPowerOfTwoFrom_le hpower) (Nat.le_max_left _ _)

/-- The padding leaves room for every reader, within the limits of a header. -/
theorem paddedEnvelopeCount_bounds {readers count : Nat}
    (h : paddedEnvelopeCount readers = .ok count) :
    readers ≤ count ∧ MIN_GENERATION_ENVELOPES ≤ count ∧ count ≤ MAX_GENERATION_ENVELOPES := by
  refine ⟨paddedEnvelopeCount_le h, ?_⟩
  simp only [paddedEnvelopeCount, except_bind_eq_ok, bailIf_eq_ok] at h
  obtain ⟨power, -, ⟨⟩, hmax, h⟩ := h
  cases h
  exact ⟨Nat.le_max_right _ _, Nat.le_of_not_lt hmax⟩

/-- One envelope for each reader, in the order of the policy. -/
theorem readerEnvelopes_ok {coins : Coins} {policy : PolicyState} {manifest : Manifest}
    {generationKey : SecretKey} {commitment : Text} {devices : List DeviceRecord} {start : Nat}
    {real : List EnvelopePair} (hd : ∀ d ∈ devices, d ∈ activeReaders policy)
    (h : List.Forall₂ (fun x pair =>
      readerEnvelope P coins manifest generationKey commitment x.2 x.1 = .ok pair)
        (devices.zipIdx start) real) :
    List.Forall₂ (ReaderPair P policy manifest generationKey commitment) devices real := by
  induction devices generalizing start real with
  | nil =>
    rw [List.zipIdx_nil, List.forall₂_nil_left_iff] at h
    rw [h]
    exact .nil
  | cons device devices ih =>
    rw [List.zipIdx_cons, List.forall₂_cons_left_iff] at h
    obtain ⟨pair, rest, hpair, hrest, rfl⟩ := h
    exact .cons (readerEnvelope_ok (hd device List.mem_cons_self) hpair)
      (ih (fun d hmem => hd d (List.mem_cons_of_mem _ hmem)) hrest)

/-- **The envelopes**: those of the readers and the padding, shuffled by the sort. -/
theorem buildEnvelopes_ok {coins : Coins} {policy : PolicyState} {manifest : Manifest}
    {generationKey : SecretKey} {commitment : Text} {envelopes : List GenerationKeyEnvelope}
    {audit : List EnvelopeAuditEntry}
    (h : buildEnvelopes P coins policy manifest generationKey commitment
      = .ok (envelopes, audit)) :
    ∃ pairs, BuiltEnvelopes P policy manifest generationKey commitment pairs
      ∧ envelopes = pairs.map EnvelopePair.envelope ∧ audit = pairs.map EnvelopePair.entry := by
  simp only [buildEnvelopes, except_bind_eq_ok] at h
  obtain ⟨⟨⟩, -, count, hcount, real, hreal, padding, hpadding, h⟩ := h
  cases h
  have hreal' : List.Forall₂ (ReaderPair P policy manifest generationKey commitment)
      (activeReaders policy) real := readerEnvelopes_ok (fun _ hd => hd) (mapM_eq_ok.mp hreal)
  have hlength : real.length = (activeReaders policy).length := hreal'.length_eq.symm
  -- the padding is what the readers leave of the count
  have hle := paddedEnvelopeCount_le hcount
  refine ⟨_, ⟨⟨real, padding, List.perm_insertionSort _ _, hreal', fun pair hp => ?_⟩, ?_⟩,
    rfl, rfl⟩
  · obtain ⟨index, -, hi⟩ := forall₂_exists_left (mapM_eq_ok.mp hpadding) hp
    exact paddingEnvelope_ok hi
  · rw [(List.perm_insertionSort _ _).length_eq, List.length_append,
      ← (mapM_eq_ok.mp hpadding).length_eq, List.length_range, hcount]
    congr 1
    omega

/-! ## What a reader without the key sees -/

theorem isHex64_hexEncode (bytes : Bytes32) : isHex64 (hexEncode bytes.val) = true := by
  rw [isHex64, isHexDigit_hexEncode, length_hexEncode, bytes.property]
  rfl

theorem IsDigest.isHex64 {t : Text} (h : IsDigest t) : GitE2EE.isHex64 t = true := by
  obtain ⟨digest, rfl⟩ := h
  exact isHex64_hexEncode digest

theorem isUtf8_of_isHex64 {t : Text} (h : isHex64 t = true) : isUtf8 t = true := by
  simp only [isHex64, Bool.and_eq_true, List.all_eq_true] at h
  refine isUtf8_of_ascii fun b hb => ?_
  have hdigit := h.2 b hb
  unfold isHexDigit hexValue at hdigit
  split at hdigit
  · omega
  · split at hdigit
    · omega
    · split at hdigit
      · omega
      · cases hdigit

/-- A header that passes has this version and a root that is a digest. -/
theorem validatePublicHeader_ok {header : ManifestHeader}
    (h : validatePublicHeader header = .ok ()) :
    header.formatVersion = FORMAT_VERSION ∧ isHex64 header.repositoryRoot = true := by
  unfold validatePublicHeader at h
  split at h
  · cases h
  · rename_i hversion
    push Not at hversion
    simp only [except_bind_eq_ok, bailIf_eq_ok, Bool.not_eq_false] at h
    obtain ⟨⟨⟩, hroot, -⟩ := h
    exact ⟨hversion, hroot⟩

/-- Real or not, an envelope is two texts in base64. -/
theorem builtEnvelopes_form {policy : PolicyState} {manifest : Manifest}
    {generationKey : SecretKey} {commitment : Text} {pairs : List EnvelopePair}
    (h : BuiltEnvelopes P policy manifest generationKey commitment pairs) :
    ∀ pair ∈ pairs, ∃ ciphertext, pair.envelope
      = ⟨base64Encode pair.encapsulated, base64Encode ciphertext⟩ := by
  intro pair hpair
  obtain ⟨real, padding, hperm, hreal, hpadding⟩ := h.split
  rcases List.mem_append.mp (hperm.mem_iff.mp hpair) with hr | hp
  · obtain ⟨device, -, -, seed, ciphertext, -, henvelope, -⟩ := forall₂_exists_left hreal hr
    exact ⟨ciphertext, henvelope⟩
  · exact (hpadding pair hp).1

theorem builtEnvelopes_encodable {policy : PolicyState} {manifest : Manifest}
    {generationKey : SecretKey} {commitment : Text} {pairs : List EnvelopePair}
    (h : BuiltEnvelopes P policy manifest generationKey commitment pairs) :
    ∀ pair ∈ pairs, pair.envelope.Encodable := by
  intro pair hpair
  obtain ⟨ciphertext, henvelope⟩ := builtEnvelopes_form h pair hpair
  rw [henvelope]
  exact ⟨isUtf8_base64Encode _, isUtf8_base64Encode _⟩

section

variable {coins : Coins} {key : KeyFile} {policy : PolicyState} {generationKey : SecretKey}
variable {manifest : Manifest} {parts : SealParts}

/-- The header survives JSON. -/
theorem Sealed.header_encodable (h : Sealed P coins key policy generationKey manifest parts)
    (hgen : manifest.generation < 2 ^ 64)
    (hprev : ∀ t, manifest.previous = some t → isUtf8 t = true) :
    (parts.header P generationKey manifest).Encodable := by
  obtain ⟨hversion, hroot⟩ := validatePublicHeader_ok h.publicHeader
  obtain ⟨pairs, hbuilt, henvelopes, -⟩ := buildEnvelopes_ok h.envelopes
  exact {
    formatVersion := by rw [hversion]; decide
    repositoryRoot := isUtf8_of_isHex64 hroot
    generation := hgen
    previous := hprev
    keyCommitment := isUtf8_hexEncode _
    envelopes := by
      intro e he
      have he' : e ∈ parts.envelopes := he
      rw [henvelopes] at he'
      obtain ⟨pair, hpair, rfl⟩ := List.mem_map.mp he'
      exact builtEnvelopes_encodable hbuilt pair hpair
    bodyDigest := isUtf8_hexEncode _
    sealedHeaderDigest := isUtf8_hexEncode _ }

/-- What was sealed can be opened. -/
theorem Sealed.framed (h : Sealed P coins key policy generationKey manifest parts)
    (hgen : manifest.generation < 2 ^ 64)
    (hprev : ∀ t, manifest.previous = some t → isUtf8 t = true) :
    Framed P generationKey manifest parts := by
  obtain ⟨bodyKey, hbk, hbody⟩ := h.body
  obtain ⟨sealedKey, hsk, hsealed⟩ := h.sealedHeader
  exact ⟨h.delta, h.header_encodable hgen hprev, h.publicHeader,
    ⟨bodyKey, coins.bodyNonce, hbk, hbody⟩, ⟨sealedKey, coins.headerNonce, hsk, hsealed⟩⟩

/-- The check of the version comes first, and passes. -/
theorem requireSupportedFormat_encrypted (hP : ReadsJson P)
    (h : Framed P generationKey manifest parts) :
    requireSupportedFormat P (parts.encrypted P generationKey manifest) = .ok () := by
  have hversion : manifest.formatVersion = FORMAT_VERSION :=
    (validatePublicHeader_ok h.publicHeader).1
  simp only [requireSupportedFormat, except_bind_eq_ok]
  refine ⟨_, fromSlice_write hP (ManifestEnvelope.readable (isUtf8_base64Encode _)
    (isUtf8_base64Encode _) (isUtf8_base64Encode _) 125) rfl, _, decodeBase64As_encode _ _,
    manifest.formatVersion, fromSlice_write hP (ManifestHeader.readable h.header 123) ?_, ?_⟩
  · show Json.asUnsigned 64 (.nat manifest.formatVersion) = some manifest.formatVersion
    rw [hversion]
    rfl
  · rw [if_neg (by simp [hversion])]
    rfl

/-- **The plaintext header of a sealed manifest is the one the sealer wrote.** -/
theorem Framed.peek (hP : ReadsJson P) (h : Framed P generationKey manifest parts) :
    peekManifestHeader P (parts.encrypted P generationKey manifest)
      = .ok (parts.header P generationKey manifest) := by
  simp only [peekManifestHeader, except_bind_eq_ok]
  exact ⟨(), requireSupportedFormat_encrypted hP h, _,
    fromSlice_write hP (ManifestEnvelope.readable (isUtf8_base64Encode _)
      (isUtf8_base64Encode _) (isUtf8_base64Encode _) 125) (ManifestEnvelope.ofJson_toJson _),
    _, decodeBase64As_encode _ _, _,
    fromSlice_write hP (ManifestHeader.readable h.header 123)
      (ManifestHeader.ofJson_toJson h.header), (), h.publicHeader, rfl⟩

/-! ## What a reader with the key sees -/

/-- What the types of the source guarantee about a manifest. -/
structure Manifest.Encodable (manifest : Manifest) : Prop where
  generation : manifest.generation < 2 ^ 64
  previous : ∀ t, manifest.previous = some t → isUtf8 t = true
  policyId : isUtf8 manifest.policyId = true
  policyGeneration : manifest.policyGeneration < 2 ^ 64
  totalPackCount : manifest.totalPackCount < 2 ^ 64
  refs : RefMap.Encodable manifest.refs
  newPacks : ∀ p ∈ manifest.newPacks, p.Encodable
  predecessorKeyWrap : ∀ t, manifest.predecessorKeyWrap = some t → isUtf8 t = true

/-- Exactly the successors name a predecessor and carry a link to its key. -/
def Manifest.Positioned (manifest : Manifest) : Prop :=
  (manifest.generation = 0 ↔ manifest.predecessorKeyWrap = none)
    ∧ (manifest.generation = 0 ↔ manifest.previous = none)

/-- The manifest a reader opens. -/
def SealParts.opened (P : Primitives) (parts : SealParts) (generationKey : SecretKey)
    (manifest : Manifest) : OpenedManifest where
  header := parts.header P generationKey manifest
  manifest := manifest
  claimedSignerId := parts.signerId
  exactHeader := (parts.header P generationKey manifest).toJson.write
  exactSealedContent := (parts.content manifest).toJson.write
  signature := parts.signature

/-- The authorization is one of the known ones. -/
theorem requireSupportedAuthorization_content (hP : ReadsJson P)
    (hc : (parts.content manifest).Encodable) :
    requireSupportedAuthorization P (parts.content manifest).toJson.write = .ok () := by
  simp only [requireSupportedAuthorization, except_bind_eq_ok]
  refine ⟨manifest.authorization.name,
    fromSlice_write hP (SealedHeaderContent.readable hc 123) rfl, ?_⟩
  rw [if_neg (by rw [ManifestAuthorization.ofName_name]; simp)]
  rfl

theorem decodeIntroduced_encode (policy : Option Bytes) :
    decodeIntroduced (policy.map base64Encode) = .ok policy := by
  cases policy with
  | none => rfl
  | some bytes =>
    simp only [Option.map_some, decodeIntroduced, decodeBase64As_encode]
    rfl

/-- **A sealed manifest opens to itself.** -/
theorem Framed.opens (hP : Lawful P) (h : Framed P generationKey manifest parts)
    (hm : manifest.Encodable)
    (hc : (parts.content manifest).Encodable) (hpos : manifest.Positioned) :
    openManifest P (parts.encrypted P generationKey manifest) generationKey
      = .ok (parts.opened P generationKey manifest) := by
  have hbody : (SealParts.body manifest).Encodable :=
    ⟨hm.refs, hm.newPacks, hm.predecessorKeyWrap, fun t ht => by
      obtain ⟨bytes, -, rfl⟩ := Option.map_eq_some_iff.mp ht
      exact isUtf8_base64Encode _⟩
  obtain ⟨bodyKey, _, hbk, hbodyCt⟩ := h.body
  obtain ⟨sealedKey, _, hsk, hsealedCt⟩ := h.sealedHeader
  simp only [openManifest, except_bind_eq_ok, withContext_eq_ok, bailIf_eq_ok]
  refine ⟨(), requireSupportedFormat_encrypted hP.json h, _,
    fromSlice_write hP.json (ManifestEnvelope.readable (isUtf8_base64Encode _)
      (isUtf8_base64Encode _) (isUtf8_base64Encode _) 125) (ManifestEnvelope.ofJson_toJson _),
    _, decodeBase64As_encode _ _, _,
    fromSlice_write hP.json (ManifestHeader.readable h.header 123)
      (ManifestHeader.ofJson_toJson h.header), (), h.publicHeader, (),
        verifyKeyCommitment_commitKey generationKey,
    _, decodeBase64As_encode _ _, _, decodeBase64As_encode _ _, (), by simp [SealParts.header],
    sealedKey, hsk, _, openWithKey_sealWithKey hP hsealedCt, _,
    fromSlice_write hP.json (SealedHeaderEnvelope.readable (isUtf8_base64Encode _)
      (isUtf8_base64Encode _) 125) (SealedHeaderEnvelope.ofJson_toJson _),
    _, decodeBase64As_encode _ _, (), by simp [SealParts.header],
    (), requireSupportedAuthorization_content hP.json hc, _,
    fromSlice_write hP.json (SealedHeaderContent.readable hc 123)
      (SealedHeaderContent.ofJson_toJson hc), (), by simp, _, decodeBase64As_encode _ _,
    bodyKey, hbk, _, openWithKey_sealWithKey hP hbodyCt, _,
    fromSlice_write hP.json (ManifestBody.readable hbody 123) (ManifestBody.ofJson_toJson hbody),
    _, decodeIntroduced_encode manifest.introducedPolicy, (), h.delta, (), ?_, (), ?_, rfl⟩
  · -- the two checks of the position, on the key link and on the parent
    show ¬ (manifest.generation == 0) ≠ manifest.predecessorKeyWrap.isNone
    have := hpos.1
    by_cases h0 : manifest.generation = 0
    · simp [h0, this.mp h0]
    · have hw : manifest.predecessorKeyWrap.isNone = false := by
        cases hwrap : manifest.predecessorKeyWrap with
        | none => exact absurd (this.mpr hwrap) h0
        | some _ => rfl
      simp [h0, hw]
  · show ¬ (manifest.generation = 0 ∧ manifest.previous.isSome = true
      ∨ 0 < manifest.generation ∧ manifest.previous.isNone = true)
    have := hpos.2
    rintro (⟨h0, hs⟩ | ⟨h0, hn⟩)
    · rw [this.mp h0] at hs
      cases hs
    · have := this.mpr (Option.isNone_iff_eq_none.mp hn)
      omega

/-! ## What a verifier accepts -/

/-- The device an audit entry names. -/
def EnvelopeAuditEntry.recipient? : EnvelopeAuditEntry → Option Text
  | .recipient deviceId _ => some deviceId
  | .dummy => none

/-- The devices an audit names, in its order. -/
def recipients (pairs : List EnvelopePair) : List Text :=
  pairs.filterMap fun pair => pair.entry.recipient?

/-- The audit seals every envelope of a reader again and finds it in its place. -/
theorem validateEnvelopeAuditFrom_built {header : ManifestHeader} {active audited : List Text}
    {pairs : List EnvelopePair} (hpolicy : PolicyOk policy)
    (hroot : header.repositoryRoot = manifest.repositoryRoot)
    (hgen : header.generation = manifest.generation)
    (hactive : active = (activeReaders policy).map fun d => d.pub.deviceId)
    (hpairs : ∀ pair ∈ pairs, PaddingPair pair
      ∨ ∃ d, ReaderPair P policy manifest generationKey header.keyCommitment d pair)
    (hnd : (recipients pairs).Nodup) (hnew : ∀ id ∈ recipients pairs, id ∉ audited) :
    validateEnvelopeAuditFrom P header policy generationKey active audited
      (pairs.map fun pair => (pair.envelope, pair.entry))
      = .ok ((recipients pairs).reverse ++ audited) := by
  induction pairs generalizing audited with
  | nil => rfl
  | cons pair rest ih =>
    have hrest : ∀ p ∈ rest, PaddingPair p
        ∨ ∃ d, ReaderPair P policy manifest generationKey header.keyCommitment d p :=
      fun p hp => hpairs p (List.mem_cons_of_mem _ hp)
    rcases hpairs pair List.mem_cons_self with
      ⟨-, hentry⟩ | ⟨d, hd, seed, ciphertext, hwrap, henv, hentry⟩
    · -- padding names nobody
      have hsame : recipients (pair :: rest) = recipients rest := by
        simp [recipients, hentry, EnvelopeAuditEntry.recipient?]
      rw [hsame] at hnd hnew ⊢
      rw [List.map_cons, hentry, validateEnvelopeAuditFrom]
      exact ih hrest hnd hnew
    · -- a reader: sealing with the recorded seed gives the envelope again
      have hcons : recipients (pair :: rest) = d.pub.deviceId :: recipients rest := by
        simp [recipients, hentry, EnvelopeAuditEntry.recipient?]
      rw [hcons] at hnd hnew ⊢
      obtain ⟨hnotin, hnd'⟩ := List.nodup_cons.mp hnd
      have hmem : d.pub.deviceId ∈ active := by
        rw [hactive]; exact List.mem_map_of_mem hd
      have hdevice : policy.device d.pub.deviceId = some d :=
        hpolicy.device_eq (List.mem_filter.mp hd).1
      rw [List.map_cons, hentry]
      simp only [validateEnvelopeAuditFrom]
      refine except_bind_eq_ok.mpr ⟨(), by simpa using hmem, except_bind_eq_ok.mpr ⟨(),
        by simpa using hnew _ List.mem_cons_self, except_bind_eq_ok.mpr ⟨seed.val,
        decodeBase64As_encode _ _, except_bind_eq_ok.mpr ⟨seed, by simp,
        except_bind_eq_ok.mpr ⟨d, by simp [hdevice], except_bind_eq_ok.mpr
        ⟨(pair.encapsulated, ciphertext), by rw [hroot, hgen]; exact hwrap,
        except_bind_eq_ok.mpr ⟨(), by simp [henv], ?_⟩⟩⟩⟩⟩⟩⟩
      rw [ih hrest hnd' fun id hid => ?_]
      · simp
      · rw [List.mem_cons, not_or]
        exact ⟨fun heq => hnotin (heq ▸ hid), hnew id (List.mem_cons_of_mem _ hid)⟩

/-- The audit of built envelopes names exactly the active readers. -/
theorem recipients_built {commitment : Text} {pairs : List EnvelopePair}
    (h : BuiltEnvelopes P policy manifest generationKey commitment pairs) :
    (recipients pairs).Perm ((activeReaders policy).map fun d => d.pub.deviceId) := by
  obtain ⟨real, padding, hperm, hreal, hpadding⟩ := h.split
  have hpad : recipients padding = [] := by
    rw [recipients, List.filterMap_eq_nil_iff]
    intro pair hp
    rw [(hpadding pair hp).2]
    rfl
  have hids : recipients real = (activeReaders policy).map fun d => d.pub.deviceId := by
    clear hperm
    generalize activeReaders policy = readers at hreal
    induction hreal with
    | nil => rfl
    | cons hpair _ ih =>
      obtain ⟨-, seed, ciphertext, -, -, hentry⟩ := hpair
      rw [List.map_cons, ← ih]
      simp [recipients, hentry, EnvelopeAuditEntry.recipient?]
  have := hperm.filterMap fun pair => pair.entry.recipient?
  rw [List.filterMap_append] at this
  have happ : recipients real ++ recipients padding
      = (activeReaders policy).map fun d => d.pub.deviceId := by rw [hpad, List.append_nil, hids]
  rw [← happ]
  exact this

/-- **The audit passes** for envelopes as they were built. -/
theorem validateEnvelopeAudit_built (hpolicy : PolicyOk policy)
    (h : Sealed P coins key policy generationKey manifest parts) :
    validateEnvelopeAudit P (parts.header P generationKey manifest) parts.audit policy
      generationKey = .ok () := by
  obtain ⟨pairs, hbuilt, henvelopes, haudit⟩ := buildEnvelopes_ok h.envelopes
  have hperm := recipients_built hbuilt
  have hreaders_nodup : ((activeReaders policy).map fun d => d.pub.deviceId).Nodup :=
    (hpolicy.ids_nodup.sublist (List.filter_sublist.map _))
  have hpairs : ∀ pair ∈ pairs, PaddingPair pair
      ∨ ∃ d, ReaderPair P policy manifest generationKey (commitKey P generationKey) d pair := by
    intro pair hpair
    obtain ⟨real, padding, hsplit, hreal, hpadding⟩ := hbuilt.split
    rcases List.mem_append.mp (hsplit.mem_iff.mp hpair) with hr | hp
    · obtain ⟨d, -, hd⟩ := forall₂_exists_left hreal hr
      exact .inr ⟨d, hd⟩
    · exact .inl (hpadding pair hp)
  have hzip : (parts.header P generationKey manifest).generationKeyEnvelopes.zip parts.audit
      = pairs.map fun pair => (pair.envelope, pair.entry) := by
    show parts.envelopes.zip parts.audit = _
    rw [henvelopes, haudit, List.zip_map']
  simp only [validateEnvelopeAudit]
  refine except_bind_eq_ok.mpr ⟨(), ?_, except_bind_eq_ok.mpr
    ⟨(recipients pairs).reverse ++ [], ?_, ?_⟩⟩
  · show bailIf (parts.audit.length ≠ parts.envelopes.length) _ = _
    simp [henvelopes, haudit]
  · rw [hzip]
    have hroot : (parts.header P generationKey manifest).repositoryRoot
        = manifest.repositoryRoot := rfl
    exact validateEnvelopeAuditFrom_built hpolicy hroot rfl rfl hpairs
      (hperm.nodup_iff.mpr hreaders_nodup) (fun _ _ => List.not_mem_nil)
  · -- nobody is missing and nobody is named beside the readers
    rw [bailIf_eq_ok, List.append_nil]
    rintro (hmissing | hextra)
    · exact hmissing fun id hid => List.mem_reverse.mpr (hperm.mem_iff.mpr hid)
    · exact hextra fun id hid => hperm.mem_iff.mp (List.mem_reverse.mp hid)

/-- A device id is a digest. -/
theorem deviceId_digest {id : Text} (h : key.deviceId P = .ok id) :
    ∃ digest : Bytes32, id = hexEncode digest.val := by
  simp only [KeyFile.deviceId, KeyFile.publicDevice, except_bind_eq_ok] at h
  obtain ⟨device, ⟨signing, -, wrapping, -, hdevice⟩, hid⟩ := h
  cases hdevice
  cases hid
  exact ⟨_, rfl⟩

/-- The signature under a device's own public key. -/
theorem verifyDomain_signDomain (hP : Lawful P) {secret : Bytes32} {domain bytes signature : Bytes}
    (hkey : key.signingKey = .ok secret)
    (h : key.signDomain P domain bytes = .ok signature) :
    verifyDomain P (base64Encode (P.ed25519Public secret).val) domain bytes signature = .ok () := by
  simp only [KeyFile.signDomain, hkey, except_bind_eq_ok] at h
  obtain ⟨secret', hsecret, h⟩ := h
  cases hsecret
  cases h
  obtain ⟨hverify, hlength⟩ := hP.sign_verify secret (domain ++ (P.sha256 bytes).val)
  simp only [verifyDomain, decodeBase64, except_bind_eq_ok, orBail_eq_ok, bailIf_eq_ok]
  exact ⟨_, base64Decode_base64Encode _, _, toBytes32_val _, (), by simp [hlength],
    by simp [hverify]⟩

/-- **A sealed manifest verifies**, when the sealing device holds the role. -/
theorem Sealed.verifies (hP : Lawful P)
    (h : Sealed P coins key policy generationKey manifest parts) (hpolicy : PolicyOk policy)
    (hc : (parts.content manifest).Encodable) {parentPolicy : Option PolicyState}
    {device : DeviceRecord} {secret : Bytes32}
    (hdevice : authorizingDevice (parts.content manifest) policy parentPolicy = .ok device)
    (hkey : key.signingKey = .ok secret)
    (hpub : device.pub.signingPublicKey = base64Encode (P.ed25519Public secret).val) :
    verifyManifest P (parts.opened P generationKey manifest) policy parentPolicy generationKey
      = .ok () := by
  simp only [verifyManifest, except_bind_eq_ok, bailIf_eq_ok]
  refine ⟨(), h.matchesPolicy, (), h.publicHeader, (), h.layout, (), ?_, _,
    fromSlice_write hP.json (SealedHeaderContent.readable hc 123)
      (SealedHeaderContent.ofJson_toJson hc), (), ?_, device, hdevice, (), ?_,
    validateEnvelopeAudit_built hpolicy h⟩
  · simp [SealParts.opened, SealParts.header]
  · simp [SealParts.opened, SealParts.content]
  · rw [hpub]
    exact verifyDomain_signDomain hP hkey h.signature

end

end GitE2EE

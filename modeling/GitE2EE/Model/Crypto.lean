import GitE2EE.Lib.Record
import GitE2EE.Model.Error

/-!
# Keys, commitments, subkeys and sealed bytes

The cryptographic libraries are parameters (`Primitives`): SHA-256, Ed25519, HPKE,
XChaCha20-Poly1305, HKDF, and the JSON reader. What this program builds from them
is translated here: what it hashes, which domain string and which info each use
gets, how a ciphertext is framed, and which decoding failure is reported how.

Randomness is an argument wherever the program draws it.
-/

namespace GitE2EE

open Wire Effect

/-- The one format number. -/
def FORMAT_VERSION : Nat := 6

/-- Domain-separation tag `git-remote-e2ee <purpose> v<format>\0`. -/
def domain (purpose : String) : Bytes :=
  text "git-remote-e2ee " ++ text purpose ++ text " v6" ++ [0]

/-- `[u8; 32]`. -/
abbrev Bytes32 := { b : Bytes // b.length = 32 }

/-- `try_into::<[u8; 32]>`. -/
def toBytes32 (b : Bytes) : Option Bytes32 := if h : b.length = 32 then some ⟨b, h⟩ else none

abbrev SecretKey := Bytes32

/-- `[u8; 24]`, an XChaCha20-Poly1305 nonce. -/
abbrev Nonce := { b : Bytes // b.length = 24 }

@[simp] theorem toBytes32_val (k : Bytes32) : toBytes32 k.val = some k := by
  simp [toBytes32, k.property]

/-- Only the length is checked. -/
theorem toBytes32_eq_some {b : Bytes} {k : Bytes32} : toBytes32 b = some k ↔ b = k.val := by
  unfold toBytes32
  split
  · rename_i h
    constructor
    · intro e; injection e with e; rw [← e]
    · rintro rfl; rfl
  · rename_i h
    constructor
    · intro e; cases e
    · rintro rfl; exact absurd k.property h

/-- The libraries the program calls. -/
structure Primitives where
  sha256 : Bytes → Bytes32
  /-- The syntax of a JSON document; `none` when it is not one. -/
  parseJson : Bytes → Option Json
  /-- `SigningKey::verifying_key().to_bytes()`. -/
  ed25519Public : Bytes32 → Bytes32
  /-- `SigningKey::sign(message).to_bytes()`. -/
  ed25519Sign : Bytes32 → Bytes → Bytes
  /-- `VerifyingKey::from_bytes` and `verify_strict`. -/
  ed25519Verify : Bytes32 → Bytes → Bytes → Bool
  /-- `HpkeKem::sk_to_pk`. -/
  x25519Public : Bytes → Bytes
  /-- `single_shot_seal` to a public key: recipient, info, plaintext, associated
  data, and the state of the generator it draws from. -/
  hpkeSeal : Bytes → Bytes → Bytes → Bytes → Bytes → Option (Bytes × Bytes)
  /-- `single_shot_open`: private key, encapsulated key, info, ciphertext,
  associated data. -/
  hpkeOpen : Bytes → Bytes → Bytes → Bytes → Bytes → Option Bytes
  /-- `gen_keypair` from a generator: the public key and the generator afterwards. -/
  hpkeKeypair : Bytes → Bytes × Bytes
  /-- XChaCha20-Poly1305 encryption: key, nonce, plaintext, associated data. -/
  aeadSeal : Bytes32 → Nonce → Bytes → Bytes → Option Bytes
  aeadOpen : Bytes32 → Nonce → Bytes → Bytes → Option Bytes
  /-- HKDF-SHA-256 with a salt, to 32 bytes. -/
  hkdf : Bytes → Bytes32 → Bytes → Bytes32

def SYMMETRIC_MAGIC : Bytes := text "E2EES06" ++ [0]
def HPKE_INFO : Bytes := text "git-remote-e2ee generation key v6"
def HPKE_ENCAPSULATED_KEY_SIZE : Nat := 32
def HPKE_CIPHERTEXT_SIZE : Nat := 32 + 16

/-- The uses of a generation key, each of which has a subkey of its own. -/
inductive SubkeyKind where
  | manifestBody
  | pack
  | predecessorLink
  | sealedHeader
deriving DecidableEq, Repr

/-- `kind as u8`. -/
def SubkeyKind.code : SubkeyKind → UInt8
  | manifestBody => 1
  | pack => 2
  | predecessorLink => 3
  | sealedHeader => 4

/-- The public half of a key file. The id is the hash of the two keys. -/
structure PublicDevice where
  repositoryRoot : Text
  deviceId : Text
  signingPublicKey : Text
  wrappingPublicKey : Text
deriving DecidableEq

/-- The private keys of a device in Base64, and the repository they belong to. -/
structure KeyFile where
  formatVersion : Nat
  repositoryRoot : Text
  signingPrivateKey : Text
  wrappingPrivateKey : Text

/-- A 32-byte lowercase hexadecimal value. -/
def validateRoot (root : Text) : Result Unit :=
  bailIf (root.length ≠ 64 ∨ ¬ root.all (fun b =>
      (48 ≤ b.toNat && b.toNat ≤ 57) || (97 ≤ b.toNat && b.toNat ≤ 102)) = true)
    "repository root must be a 32-byte lowercase hexadecimal value"

/-- `BASE64.decode(value)?`. -/
def decodeBase64 (value : Text) : Result Bytes := orBail (base64Decode value) "invalid base64"

section

variable (P : Primitives)

/-- The name of stored bytes is their hash. -/
def objectId (bytes : Bytes) : Text := hexEncode (P.sha256 bytes).val

/-- The root is the hash of the owner's two public keys. -/
def repositoryRootForPublicKeys (signing wrapping : Bytes) : Text :=
  hexEncode (P.sha256 (text "git-remote-e2ee repository root v2" ++ [0] ++ signing ++ wrapping)).val

def deviceIdForPublicKeys (signing wrapping : Bytes) : Text :=
  hexEncode (P.sha256 (text "git-remote-e2ee device id v3" ++ [0] ++ signing ++ wrapping)).val

end

/-- A public key, of which only the length is checked. -/
def decodePublicKey (value : Text) : Result Bytes32 := do
  orBail (toBytes32 (← decodeBase64 value)) "invalid public key length"

/-- The id of a device is the one its keys give. -/
def validatePublicDevice (P : Primitives) (device : PublicDevice) : Result Unit := do
  validateRoot device.repositoryRoot
  let signing ← decodePublicKey device.signingPublicKey
  let wrapping ← decodePublicKey device.wrappingPublicKey
  bailIf (device.deviceId ≠ deviceIdForPublicKeys P signing.val wrapping.val)
    "device id does not match its public keys"

def repositoryRootForDevice (P : Primitives) (device : PublicDevice) : Result Text := do
  let signing ← decodePublicKey device.signingPublicKey
  let wrapping ← decodePublicKey device.wrappingPublicKey
  pure (repositoryRootForPublicKeys P signing.val wrapping.val)

namespace KeyFile

def signingKey (key : KeyFile) : Result Bytes32 := do
  orBail (toBytes32 (← decodeBase64 key.signingPrivateKey)) "invalid signing key length"

/-- An X25519 private key is any 32 bytes. -/
def wrappingKey (key : KeyFile) : Result Bytes := do
  let bytes ← decodeBase64 key.wrappingPrivateKey
  bailIf (bytes.length ≠ 32) "invalid HPKE private key"
  pure bytes

/-- The identity that others know this key file by. -/
def publicDevice (P : Primitives) (key : KeyFile) : Result PublicDevice := do
  let signingPublic := P.ed25519Public (← key.signingKey)
  let wrappingPublic := P.x25519Public (← key.wrappingKey)
  pure {
    repositoryRoot := key.repositoryRoot
    deviceId := deviceIdForPublicKeys P signingPublic.val wrappingPublic
    signingPublicKey := base64Encode signingPublic.val
    wrappingPublicKey := base64Encode wrappingPublic }

def deviceId (P : Primitives) (key : KeyFile) : Result Text := do
  pure (← key.publicDevice P).deviceId

/-- A signature over a domain and the hash of the exact bytes. -/
def signDomain (P : Primitives) (key : KeyFile) (domain exactBytes : Bytes) : Result Bytes := do
  let message := domain ++ (P.sha256 exactBytes).val
  pure (P.ed25519Sign (← key.signingKey) message)

/-- `KeyFile::unwrap_generation_key`: one HPKE envelope with this device's key. -/
def unwrapEnvelope (P : Primitives) (key : KeyFile) (encapsulatedKey ciphertext aad : Bytes) :
    Result SecretKey := do
  bailIf (encapsulatedKey.length ≠ HPKE_ENCAPSULATED_KEY_SIZE) "invalid HPKE encapsulated key"
  let secret ← key.wrappingKey
  let plaintext ← orBail (P.hpkeOpen secret encapsulatedKey HPKE_INFO ciphertext aad)
    "device is not able to unwrap the generation key"
  orBail (toBytes32 plaintext) "invalid generation key length"

end KeyFile

/-- The counterpart of `signDomain`, for a public key in Base64. -/
def verifyDomain (P : Primitives) (publicKey domain exactBytes signature : Bytes) :
    Result Unit := do
  let publicBytes ← orBail (toBytes32 (← decodeBase64 publicKey))
    "invalid Ed25519 public key length"
  bailIf (signature.length ≠ 64) "invalid Ed25519 signature"
  let message := domain ++ (P.sha256 exactBytes).val
  bailIf (P.ed25519Verify publicBytes message signature = false) "signature verification failed"

/-- One HPKE envelope with the generation key, from a seed that an auditor can seal it again
with. -/
def wrapGenerationKeyWithSeed (P : Primitives) (publicKey : Text) (generationKey : SecretKey)
    (aad : Bytes) (seed : Bytes32) : Result (Bytes × Bytes) := do
  let publicBytes ← decodeBase64 publicKey
  bailIf (publicBytes.length ≠ 32) "invalid HPKE public key"
  orBail (P.hpkeSeal publicBytes HPKE_INFO generationKey.val aad seed.val)
    "HPKE generation-key wrapping failed"

/-- A genuine seal of a random key to a throwaway recipient. -/
def dummyGenerationEnvelope (P : Primitives) (rng key aad : Bytes32) : Result (Bytes × Bytes) :=
  let (recipient, rng') := P.hpkeKeypair rng.val
  orBail (P.hpkeSeal recipient HPKE_INFO key.val aad.val rng') "HPKE dummy envelope sealing failed"

/-- The commitment to a generation key, which anyone with the key can check. -/
def commitKey (P : Primitives) (key : SecretKey) : Text :=
  hexEncode (P.sha256 (domain "generation key commitment" ++ key.val)).val

/-- The generation key is the one that the header commits to. -/
def verifyKeyCommitment (P : Primitives) (key : SecretKey) (commitment : Text) : Result Unit := do
  let expected ← orBail (hexDecode commitment) "decode generation key commitment"
  let actual := (P.sha256 (domain "generation key commitment" ++ key.val)).val
  bailIf (expected ≠ actual) "generation key does not match the signed commitment"

/-- The HKDF info of a subkey. -/
def subkeyInfo (root : Bytes) (generation : Nat) (kind : SubkeyKind) (ordinal : Nat) : Bytes :=
  root ++ leBytes 8 generation ++ [kind.code] ++ leBytes 8 ordinal

/-- A subkey is bound to the repository, the generation, its use and an ordinal. -/
def deriveSubkey (P : Primitives) (generationKey : SecretKey) (repositoryRoot : Text)
    (generation : Nat) (kind : SubkeyKind) (ordinal : Nat) : Result SecretKey := do
  let root ← orBail (hexDecode repositoryRoot) "decode repository root for HKDF"
  bailIf (root.length ≠ 32) "invalid repository root length for HKDF"
  pure (P.hkdf (domain "subkey derivation") generationKey
    (subkeyInfo root generation kind ordinal))

/-- A framed ciphertext: the magic, the nonce, and what the cipher returned. -/
def sealWithKey (P : Primitives) (key : SecretKey) (nonce : Nonce) (plaintext aad : Bytes) :
    Result Bytes := do
  let ciphertext ← orBail (P.aeadSeal key nonce plaintext aad) "encryption failed"
  pure (SYMMETRIC_MAGIC ++ nonce.val ++ ciphertext)

/-- The nonce and the ciphertext of a framed ciphertext. -/
def splitEnvelope (envelope : Bytes) : Option (Nonce × Bytes) :=
  if envelope.length < 8 + 24 + 16 ∨ envelope.take 8 ≠ SYMMETRIC_MAGIC then none
  else if h : ((envelope.drop 8).take 24).length = 24 then
    some (⟨(envelope.drop 8).take 24, h⟩, envelope.drop 32)
  else none

/-- Opens a framed ciphertext. A wrong frame and a failed authentication are told apart. -/
def openWithKey (P : Primitives) (key : SecretKey) (envelope aad : Bytes) : Result Bytes := do
  let (nonce, ciphertext) ← orBail (splitEnvelope envelope) "invalid encrypted object envelope"
  orBail (P.aeadOpen key nonce ciphertext aad) "encrypted object authentication failed"

end GitE2EE

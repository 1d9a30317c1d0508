import GitE2EE.Model.Manifest

/-!
# Reading back what was written

Every record this program stores is read back as it was written, by a reader that
reads every readable document back (`ReadsJson`). `Encodable` is what the types of
the source guarantee about a record and plain lists of bytes do not: strings are
valid UTF-8 and integers fit their width.
-/

namespace GitE2EE

open Wire Effect

/-- What the JSON reader promises about documents this program's writer produces. -/
def ReadsJson (P : Primitives) : Prop :=
  ∀ v : Json, v.readable 127 = true → P.parseJson v.write = some v

/-- What was written is read back whole. -/
theorem fromSlice_write {P : Primitives} (hP : ReadsJson P) {α : Type} {read : Json → Option α}
    {v : Json} {a : α} {what : String} (hv : v.readable 127 = true) (hr : read v = some a) :
    fromSlice P read v.write what = .ok a := by
  simp [fromSlice, hP v hv, hr]

/-- An array is read back if each of its elements is. -/
theorem asList_map {α : Type} {write : α → Json} {read : Json → Option α} {xs : List α}
    (h : ∀ x ∈ xs, read (write x) = some x) :
    Json.asList read (.arr (xs.map write)) = some xs := by
  simp only [Json.asList]
  induction xs with
  | nil => rfl
  | cons x xs ih =>
    rw [List.map_cons, List.mapM_cons, h x List.mem_cons_self,
      ih fun y hy => h y (List.mem_cons_of_mem _ hy)]
    rfl

/-- An optional string, as a document. -/
theorem readable_orNull (depth : Nat) {value : Option Text}
    (h : ∀ t, value = some t → isUtf8 t = true) :
    (Json.orNull .str value).readable (depth + 1) = true := by
  cases value with
  | none => rfl
  | some t => exact h t rfl

/-! ## Manifests -/

/-- An id that is a string and three `u64`. -/
def PackDescriptor.Encodable (p : PackDescriptor) : Prop :=
  isUtf8 p.id = true ∧ p.plaintextSize < 2 ^ 64 ∧ p.generation < 2 ^ 64 ∧ p.ordinal < 2 ^ 64

theorem PackDescriptor.ofJson_toJson {p : PackDescriptor} (h : p.Encodable) :
    PackDescriptor.ofJson p.toJson = some p := by
  obtain ⟨-, hs, hg, ho⟩ := h
  -- only the numbers can be refused
  have hread : PackDescriptor.ofJson p.toJson = (do
      let plaintextSize ← Json.asUnsigned 64 (.nat p.plaintextSize)
      let generation ← Json.asUnsigned 64 (.nat p.generation)
      let ordinal ← Json.asUnsigned 64 (.nat p.ordinal)
      pure ⟨p.id, plaintextSize, generation, ordinal⟩) := rfl
  simp [-Nat.reducePow, hread, hs, hg, ho]

/-- As a document it is an object of plain values, so it needs two levels. -/
theorem PackDescriptor.readable {p : PackDescriptor} (h : p.Encodable) (depth : Nat) :
    p.toJson.readable (depth + 2) = true := by
  obtain ⟨hi, hs, hg, ho⟩ := h
  simp [-Nat.reducePow, PackDescriptor.toJson, Json.readable, hi, hs, hg, ho]

/-- Both fields are base64 text. -/
def GenerationKeyEnvelope.Encodable (e : GenerationKeyEnvelope) : Prop :=
  isUtf8 e.encapsulatedKey = true ∧ isUtf8 e.ciphertext = true

theorem GenerationKeyEnvelope.ofJson_toJson (e : GenerationKeyEnvelope) :
    GenerationKeyEnvelope.ofJson e.toJson = some e := rfl

theorem GenerationKeyEnvelope.readable {e : GenerationKeyEnvelope} (h : e.Encodable)
    (depth : Nat) : e.toJson.readable (depth + 2) = true := by
  simp [GenerationKeyEnvelope.toJson, Json.readable, h.1, h.2]

/-- A recipient has two strings, a dummy nothing. -/
def EnvelopeAuditEntry.Encodable : EnvelopeAuditEntry → Prop
  | .recipient deviceId seed => isUtf8 deviceId = true ∧ isUtf8 seed = true
  | .dummy => True

theorem EnvelopeAuditEntry.ofJson_toJson (e : EnvelopeAuditEntry) :
    EnvelopeAuditEntry.ofJson e.toJson = some e := by
  cases e <;> rfl

theorem EnvelopeAuditEntry.readable {e : EnvelopeAuditEntry} (h : e.Encodable) (depth : Nat) :
    e.toJson.readable (depth + 2) = true := by
  cases e with
  | recipient deviceId seed =>
    simp [EnvelopeAuditEntry.toJson, Json.readable, h.1, h.2]
  | dummy =>
    simp [EnvelopeAuditEntry.toJson, Json.readable]

/-- The header's strings, its version as a `u32` and its generation as a `u64`. -/
structure ManifestHeader.Encodable (h : ManifestHeader) : Prop where
  formatVersion : h.formatVersion < 2 ^ 32
  repositoryRoot : isUtf8 h.repositoryRoot = true
  generation : h.generation < 2 ^ 64
  previous : ∀ t, h.previous = some t → isUtf8 t = true
  keyCommitment : isUtf8 h.keyCommitment = true
  envelopes : ∀ e ∈ h.generationKeyEnvelopes, e.Encodable
  bodyDigest : isUtf8 h.bodyDigest = true
  sealedHeaderDigest : isUtf8 h.sealedHeaderDigest = true

/-- The header in the clear comes back as it was, optional parent and envelopes included. -/
theorem ManifestHeader.ofJson_toJson {h : ManifestHeader} (he : h.Encodable) :
    ManifestHeader.ofJson h.toJson = some h := by
  -- the reader, with every field that is taken as it stands already in place
  have hread : ManifestHeader.ofJson h.toJson = (do
      let formatVersion ← Json.asUnsigned 32 (.nat h.formatVersion)
      let generation ← Json.asUnsigned 64 (.nat h.generation)
      let previous ← Json.optional Json.asText (some (Json.orNull .str h.previous))
      let envelopes ← Json.asList GenerationKeyEnvelope.ofJson
        (.arr (h.generationKeyEnvelopes.map GenerationKeyEnvelope.toJson))
      pure ⟨formatVersion, h.repositoryRoot, generation, previous, h.keyCommitment, envelopes,
        h.bodyDigest, h.sealedHeaderDigest⟩) := rfl
  rw [hread, asList_map fun e _ => GenerationKeyEnvelope.ofJson_toJson e]
  simp [-Nat.reducePow, he.formatVersion, he.generation, Json.optional_text]

/-- The envelopes are an array of objects inside the header: four levels. -/
theorem ManifestHeader.readable {h : ManifestHeader} (he : h.Encodable) (depth : Nat) :
    h.toJson.readable (depth + 4) = true := by
  have hfv : h.formatVersion < 2 ^ 64 := Nat.lt_trans he.formatVersion (by decide)
  have hprev := readable_orNull (depth + 2) he.previous
  have henv : ∀ e ∈ h.generationKeyEnvelopes, e.toJson.readable (depth + 2) = true :=
    fun e hmem => GenerationKeyEnvelope.readable (he.envelopes e hmem) depth
  simp [-Nat.reducePow, ManifestHeader.toJson, Json.readable, he.repositoryRoot, he.generation,
    he.keyCommitment,
    he.bodyDigest, he.sealedHeaderDigest, hfv, hprev]
  -- what is left is the array
  exact henv

/-- What the sealed header says, as strings and two `u64`. -/
structure SealedHeaderContent.Encodable (c : SealedHeaderContent) : Prop where
  policyId : isUtf8 c.policyId = true
  policyGeneration : c.policyGeneration < 2 ^ 64
  signerDeviceId : isUtf8 c.signerDeviceId = true
  totalPackCount : c.totalPackCount < 2 ^ 64
  envelopeAudit : ∀ e ∈ c.envelopeAudit, e.Encodable

/-- The three authorizations have three names. -/
theorem ManifestAuthorization.ofName_name (a : ManifestAuthorization) :
    ManifestAuthorization.ofName a.name = some a := by
  cases a <;> rfl

/-- The signed part of the sealed header comes back with its authorization and its audit. -/
theorem SealedHeaderContent.ofJson_toJson {c : SealedHeaderContent} (h : c.Encodable) :
    SealedHeaderContent.ofJson c.toJson = some c := by
  have hread : SealedHeaderContent.ofJson c.toJson = (do
      let policyGeneration ← Json.asUnsigned 64 (.nat c.policyGeneration)
      let authorization ← ManifestAuthorization.ofName c.authorization.name
      let totalPackCount ← Json.asUnsigned 64 (.nat c.totalPackCount)
      let audit ← Json.asList EnvelopeAuditEntry.ofJson
        (.arr (c.envelopeAudit.map EnvelopeAuditEntry.toJson))
      pure ⟨c.policyId, policyGeneration, c.signerDeviceId, authorization, totalPackCount,
        audit⟩) := rfl
  rw [hread, asList_map fun e _ => EnvelopeAuditEntry.ofJson_toJson e]
  simp [-Nat.reducePow, h.policyGeneration, h.totalPackCount, ManifestAuthorization.ofName_name]

theorem SealedHeaderContent.readable {c : SealedHeaderContent} (h : c.Encodable) (depth : Nat) :
    c.toJson.readable (depth + 4) = true := by
  -- the name is one of three literals
  have hname : isUtf8 c.authorization.name = true := by
    cases c.authorization <;> exact isUtf8_text _
  have haudit : ∀ e ∈ c.envelopeAudit, e.toJson.readable (depth + 2) = true :=
    fun e hmem => EnvelopeAuditEntry.readable (h.envelopeAudit e hmem) depth
  simp [-Nat.reducePow, SealedHeaderContent.toJson, Json.readable, h.policyId, h.policyGeneration,
    h.signerDeviceId, h.totalPackCount, hname]
  exact haudit

theorem SealedHeaderEnvelope.ofJson_toJson (e : SealedHeaderEnvelope) :
    SealedHeaderEnvelope.ofJson e.toJson = some e := rfl

theorem SealedHeaderEnvelope.readable {e : SealedHeaderEnvelope} (hc : isUtf8 e.content = true)
    (hs : isUtf8 e.signature = true) (depth : Nat) : e.toJson.readable (depth + 2) = true := by
  simp [SealedHeaderEnvelope.toJson, Json.readable, hc, hs]

theorem ManifestEnvelope.ofJson_toJson (e : ManifestEnvelope) :
    ManifestEnvelope.ofJson e.toJson = some e := rfl

theorem ManifestEnvelope.readable {e : ManifestEnvelope} (hh : isUtf8 e.header = true)
    (hs : isUtf8 e.sealedHeaderCiphertext = true) (hb : isUtf8 e.bodyCiphertext = true)
    (depth : Nat) : e.toJson.readable (depth + 2) = true := by
  simp [ManifestEnvelope.toJson, Json.readable, hh, hs, hb]

/-- Names and targets of refs are strings. -/
def RefMap.Encodable (refs : RefMap) : Prop :=
  ∀ e ∈ refs.entries, isUtf8 e.1 = true ∧ isUtf8 e.2 = true

/-- Refs are written in order, so reading them sorts nothing. -/
theorem refsOfJson_refsToJson (refs : RefMap) : refsOfJson (refsToJson refs) = some refs := by
  -- the members one by one; the map itself is rebuilt by the last line
  have hmap : ∀ entries : List (Text × Text),
      (entries.map fun e => (e.1, Json.str e.2)).mapM
        (fun m => (Json.asText m.2).map fun v => (m.1, v)) = some entries := by
    intro entries
    induction entries with
    | nil => rfl
    | cons e entries ih => rw [List.map_cons, List.mapM_cons, ih]; rfl
  simp only [refsToJson, refsOfJson, hmap]
  exact congrArg some (SortedMap.ofList_entries refs)

/-- Refs, packs, and two optional strings. -/
structure ManifestBody.Encodable (b : ManifestBody) : Prop where
  refs : RefMap.Encodable b.refs
  newPacks : ∀ p ∈ b.newPacks, p.Encodable
  predecessorKeyWrap : ∀ t, b.predecessorKeyWrap = some t → isUtf8 t = true
  introducedPolicy : ∀ t, b.introducedPolicy = some t → isUtf8 t = true

/-- The body comes back; a missing field and `null` are the same. -/
theorem ManifestBody.ofJson_toJson {b : ManifestBody} (h : b.Encodable) :
    ManifestBody.ofJson b.toJson = some b := by
  have hread : ManifestBody.ofJson b.toJson = (do
      let refs ← refsOfJson (refsToJson b.refs)
      let newPacks ← Json.asList PackDescriptor.ofJson
        (.arr (b.newPacks.map PackDescriptor.toJson))
      let wrap ← Json.optional Json.asText (some (Json.orNull .str b.predecessorKeyWrap))
      let policy ← Json.optional Json.asText (some (Json.orNull .str b.introducedPolicy))
      pure ⟨refs, newPacks, wrap, policy⟩) := rfl
  rw [hread, refsOfJson_refsToJson,
    asList_map fun p hp => PackDescriptor.ofJson_toJson (h.newPacks p hp)]
  simp [Json.optional_text]

theorem ManifestBody.readable {b : ManifestBody} (h : b.Encodable) (depth : Nat) :
    b.toJson.readable (depth + 4) = true := by
  have hwrap := readable_orNull (depth + 2) h.predecessorKeyWrap
  have hpolicy := readable_orNull (depth + 2) h.introducedPolicy
  have hpacks : ∀ p ∈ b.newPacks, p.toJson.readable (depth + 2) = true :=
    fun p hp => PackDescriptor.readable (h.newPacks p hp) depth
  have hrefs : (refsToJson b.refs).readable (depth + 3) = true := by
    simp only [refsToJson, Json.readable, List.all_map, List.all_eq_true]
    intro e he
    simp [Json.readable, (h.refs e he).1, (h.refs e he).2]
  simp [ManifestBody.toJson, Json.readable, hrefs, hwrap, hpolicy]
  exact hpacks

/-! ## Policies -/

/-- A device's keys and label, and the generation it was revoked at. -/
structure DeviceRecord.Encodable (d : DeviceRecord) : Prop where
  repositoryRoot : isUtf8 d.pub.repositoryRoot = true
  deviceId : isUtf8 d.pub.deviceId = true
  signingPublicKey : isUtf8 d.pub.signingPublicKey = true
  wrappingPublicKey : isUtf8 d.pub.wrappingPublicKey = true
  label : isUtf8 d.label = true
  revokedAt : ∀ g, d.revokedAt = some g → g < 2 ^ 64

/-- An optional `u64` is a number or `null`. -/
theorem optional_generation {value : Option Nat} (h : ∀ g, value = some g → g < 2 ^ 64) :
    Json.optional (Json.asUnsigned 64) (some (Json.orNull .nat value)) = some value := by
  cases value with
  | none => rfl
  | some g => simp [-Nat.reducePow, Json.orNull, Json.optional, h g rfl]

theorem DeviceRecord.ofJson_toJson {d : DeviceRecord} (h : d.Encodable) :
    DeviceRecord.ofJson d.toJson = some d := by
  have hread : DeviceRecord.ofJson d.toJson = (do
      let revokedAt ← Json.optional (Json.asUnsigned 64) (some (Json.orNull .nat d.revokedAt))
      pure ⟨d.pub, d.label, d.roles, revokedAt⟩) := rfl
  rw [hread, optional_generation h.revokedAt]
  rfl

theorem DeviceRecord.readable {d : DeviceRecord} (h : d.Encodable) (depth : Nat) :
    d.toJson.readable (depth + 3) = true := by
  have hrevoked : (Json.orNull .nat d.revokedAt).readable (depth + 2) = true := by
    cases hr : d.revokedAt with
    | none => rfl
    | some g => simp [-Nat.reducePow, Json.orNull, Json.readable, h.revokedAt g hr]
  simp [DeviceRecord.toJson, DeviceRoles.toJson, Json.readable, h.repositoryRoot, h.deviceId,
    h.signingPublicKey, h.wrappingPublicKey, h.label, hrevoked]

/-- A policy's strings, its two `u32`, its generation and its devices. -/
structure PolicyBody.Encodable (b : PolicyBody) : Prop where
  formatVersion : b.formatVersion < 2 ^ 32
  repositoryRoot : isUtf8 b.repositoryRoot = true
  generation : b.generation < 2 ^ 64
  previous : ∀ t, b.previous = some t → isUtf8 t = true
  adminThreshold : b.adminThreshold < 2 ^ 32
  devices : ∀ d ∈ b.devices, d.Encodable

/-- A policy comes back with all of its devices, the revoked ones too. -/
theorem PolicyBody.ofJson_toJson {b : PolicyBody} (h : b.Encodable) :
    PolicyBody.ofJson b.toJson = some b := by
  have hread : PolicyBody.ofJson b.toJson = (do
      let formatVersion ← Json.asUnsigned 32 (.nat b.formatVersion)
      let generation ← Json.asUnsigned 64 (.nat b.generation)
      let previous ← Json.optional Json.asText (some (Json.orNull .str b.previous))
      let adminThreshold ← Json.asUnsigned 32 (.nat b.adminThreshold)
      let devices ← Json.asList DeviceRecord.ofJson (.arr (b.devices.map DeviceRecord.toJson))
      pure ⟨formatVersion, b.repositoryRoot, generation, previous, adminThreshold, devices⟩) := rfl
  rw [hread, asList_map fun d hd => DeviceRecord.ofJson_toJson (h.devices d hd)]
  simp [-Nat.reducePow, h.formatVersion, h.generation, h.adminThreshold, Json.optional_text]

/-- Devices are objects in an array, with roles in an object of their own: five levels. -/
theorem PolicyBody.readable {b : PolicyBody} (h : b.Encodable) (depth : Nat) :
    b.toJson.readable (depth + 5) = true := by
  -- a `u32` is written as any other number
  have hfv : b.formatVersion < 2 ^ 64 := Nat.lt_trans h.formatVersion (by decide)
  have hthreshold : b.adminThreshold < 2 ^ 64 := Nat.lt_trans h.adminThreshold (by decide)
  have hprev := readable_orNull (depth + 3) h.previous
  have hdevices : ∀ d ∈ b.devices, d.toJson.readable (depth + 3) = true :=
    fun d hd => DeviceRecord.readable (h.devices d hd) depth
  simp [-Nat.reducePow, PolicyBody.toJson, Json.readable, h.repositoryRoot, h.generation, hfv,
    hthreshold, hprev]
  exact hdevices

/-- A signed policy comes back with every signature. -/
theorem PolicyObject.ofJson_toJson (o : PolicyObject) : PolicyObject.ofJson o.toJson = some o := by
  have hread : PolicyObject.ofJson o.toJson = (do
      let signatures ← Json.asList PolicySignature.ofJson
        (.arr (o.signatures.map PolicySignature.toJson))
      pure ⟨o.body, signatures⟩) := rfl
  rw [hread, asList_map fun s _ => show PolicySignature.ofJson s.toJson = some s from rfl]
  rfl

/-- The body of a signed policy is text, whatever it holds. -/
theorem PolicyObject.readable {o : PolicyObject} (hb : isUtf8 o.body = true)
    (hs : ∀ s ∈ o.signatures, isUtf8 s.deviceId = true ∧ isUtf8 s.signature = true)
    (depth : Nat) : o.toJson.readable (depth + 4) = true := by
  have hsig : ∀ s ∈ o.signatures, s.toJson.readable (depth + 2) = true := by
    intro s hmem
    simp [PolicySignature.toJson, Json.readable, (hs s hmem).1, (hs s hmem).2]
  simp [PolicyObject.toJson, Json.readable, hb]
  exact hsig

end GitE2EE

import GitE2EE.Proof.Samples

/-!
# What padding hides

The envelopes of a manifest are padded to a power of two, so their number says little
about the number of readers. The length of the sealed header says all of it: its audit
has one entry for each envelope, and the entry of a reader is longer than the entry of
a dummy.
-/

namespace GitE2EE

open Wire Effect

variable {P : Primitives}

/-- What storage can measure of a stored manifest without a key. -/
structure Measurements where
  /-- The decoded lengths of the two parts of each envelope. -/
  envelopes : List (Option Nat × Option Nat)
  header : Nat
  sealedHeader : Nat
  body : Nat
  object : Nat
deriving DecidableEq

def GenerationKeyEnvelope.lengths (e : GenerationKeyEnvelope) : Option Nat × Option Nat :=
  ((base64Decode e.encapsulatedKey).map List.length, (base64Decode e.ciphertext).map List.length)

/-- The measurements of stored bytes. -/
def measure (P : Primitives) (stored : Bytes) : Result Measurements := do
  let envelope ← fromSlice P ManifestEnvelope.ofJson stored "parse manifest envelope"
  let exactHeader ← decodeBase64As envelope.header "decode manifest header"
  let header ← fromSlice P ManifestHeader.ofJson exactHeader "parse manifest header"
  let sealedHeader ← decodeBase64As envelope.sealedHeaderCiphertext "decode sealed header"
  let body ← decodeBase64As envelope.bodyCiphertext "decode manifest body"
  pure {
    envelopes := header.generationKeyEnvelopes.map GenerationKeyEnvelope.lengths
    header := exactHeader.length
    sealedHeader := sealedHeader.length
    body := body.length
    object := stored.length }

/-- Two manifests that differ in their policies only. -/
structure Manifest.Alike (m m' : Manifest) : Prop where
  repositoryRoot : m.repositoryRoot = m'.repositoryRoot
  generation : m.generation = m'.generation
  previous : m.previous = m'.previous
  authorization : m.authorization = m'.authorization
  policyGeneration : m.policyGeneration = m'.policyGeneration
  totalPackCount : m.totalPackCount = m'.totalPackCount
  body : SealParts.body m = SealParts.body m'

section

variable {coins : Coins} {key : KeyFile} {policy : PolicyState} {generationKey : SecretKey}
variable {manifest : Manifest} {parts : SealParts}

/-- The measurements of a sealed manifest, in terms of what was sealed. -/
theorem Sealed.measure (hP : Lawful P)
    (h : Sealed P coins key policy generationKey manifest parts)
    (hgen : manifest.generation < 2 ^ 64)
    (hprev : ∀ t, manifest.previous = some t → isUtf8 t = true) :
    measure P (parts.encrypted P generationKey manifest) = .ok {
      envelopes := List.replicate parts.envelopes.length
        (some HPKE_ENCAPSULATED_KEY_SIZE, some HPKE_CIPHERTEXT_SIZE)
      header := (parts.header P generationKey manifest).toJson.write.length
      sealedHeader := parts.sealedHeaderCiphertext.length
      body := parts.bodyCiphertext.length
      object := (parts.encrypted P generationKey manifest).length } := by
  have hheader := (h.framed hgen hprev).header
  have henvelopes : parts.envelopes.map GenerationKeyEnvelope.lengths
      = List.replicate parts.envelopes.length
        (some HPKE_ENCAPSULATED_KEY_SIZE, some HPKE_CIPHERTEXT_SIZE) := by
    rw [List.eq_replicate_iff]
    refine ⟨List.length_map _, fun l hl => ?_⟩
    obtain ⟨e, he, rfl⟩ := List.mem_map.mp hl
    obtain ⟨encapsulated, ciphertext, rfl, hencapsulated, hciphertext⟩ := h.envelope_lengths e he
    simp [GenerationKeyEnvelope.lengths, hencapsulated, hciphertext]
  -- measuring takes no key: it parses the object as its reader would
  simp only [GitE2EE.measure, except_bind_eq_ok]
  refine ⟨_, fromSlice_write hP.json (ManifestEnvelope.readable (isUtf8_base64Encode _)
      (isUtf8_base64Encode _) (isUtf8_base64Encode _) 125) (ManifestEnvelope.ofJson_toJson _),
    _, decodeBase64As_encode _ _, _, fromSlice_write hP.json (ManifestHeader.readable hheader 123)
      (ManifestHeader.ofJson_toJson hheader), _, decodeBase64As_encode _ _, _,
    decodeBase64As_encode _ _, ?_⟩
  rw [← henvelopes]
  rfl

end

/-- The sealed header gives the number of readers away, and nothing else does. -/
theorem measure_eq_of_sealed (hP : Lawful P) {coins coins' : Coins} {key key' : KeyFile}
    {policy policy' : PolicyState} {generationKey generationKey' : SecretKey}
    {manifest manifest' : Manifest} {parts parts' : SealParts}
    (hsealed : Sealed P coins key policy generationKey manifest parts)
    (hsealed' : Sealed P coins' key' policy' generationKey' manifest' parts')
    (halike : manifest.Alike manifest')
    (hpadded : paddedEnvelopeCount (activeReaders policy).length
      = paddedEnvelopeCount (activeReaders policy').length)
    (hids : isHex64 manifest.policyId = true
      ∧ ∀ d ∈ activeReaders policy, isHex64 d.pub.deviceId = true)
    (hids' : isHex64 manifest'.policyId = true
      ∧ ∀ d ∈ activeReaders policy', isHex64 d.pub.deviceId = true)
    (hgen : manifest.generation < 2 ^ 64)
    (hprev : ∀ t, manifest.previous = some t → isUtf8 t = true) :
    measure P (parts.encrypted P generationKey manifest)
        = measure P (parts'.encrypted P generationKey' manifest')
      ↔ (activeReaders policy).length = (activeReaders policy').length := by
  have hcount : parts.envelopes.length = parts'.envelopes.length := by
    have := hsealed.envelopeCount.symm.trans (hpadded.trans hsealed'.envelopeCount)
    exact Except.ok.inj this
  have hheader : (parts.header P generationKey manifest).toJson.write.length
      = (parts'.header P generationKey' manifest').toJson.write.length := by
    rw [length_header hsealed, length_header hsealed', halike.repositoryRoot, halike.generation,
      halike.previous, hcount]
  have hbody : parts.bodyCiphertext.length = parts'.bodyCiphertext.length := by
    rw [length_body hP hsealed, length_body hP hsealed', halike.body]
  have hcontent := length_content hsealed hids.1 hids.2
  have hcontent' := length_content hsealed' hids'.1 hids'.2
  rw [halike.policyGeneration, halike.authorization, halike.totalPackCount, hcount] at hcontent
  rw [hsealed.measure hP hgen hprev, hsealed'.measure hP (halike.generation ▸ hgen)
    (halike.previous ▸ hprev)]
  constructor
  · -- the sealed header has a length for each number of readers
    intro heq
    have hsealedLength := congrArg Measurements.sealedHeader (Except.ok.inj heq)
    simp only [length_sealedHeader hP hsealed, length_sealedHeader hP hsealed', hcontent, hcontent',
      contentLength] at hsealedLength
    omega
  · intro hreaders
    have hsealedLength : parts.sealedHeaderCiphertext.length
        = parts'.sealedHeaderCiphertext.length := by
      rw [length_sealedHeader hP hsealed, length_sealedHeader hP hsealed', hcontent, hcontent',
        hreaders]
    have hobject : (parts.encrypted P generationKey manifest).length
        = (parts'.encrypted P generationKey' manifest').length := by
      rw [length_encrypted, length_encrypted, hheader, hsealedLength, hbody]
    rw [hcount, hheader, hsealedLength, hbody, hobject]

namespace Reference

/-- A push at generation 1 without packs or refs, under a policy. -/
def emptyPush (wrap : Text) (policy : PolicyState) : Manifest where
  formatVersion := FORMAT_VERSION
  repositoryRoot := root
  generation := 1
  previous := some (hexEncode (number 0).val)
  policyId := policy.id
  policyGeneration := 0
  authorization := .writer
  totalPackCount := 0
  refs := .empty
  newPacks := []
  predecessorKeyWrap := some wrap
  introducedPolicy := none

/-- A policy of these devices, and a push sealed for its readers. -/
theorem emptyPush_sealed {devices : List DeviceRecord}
    (hchecked : validateDevices primitives devices = .ok ())
    (hroots : ∀ d ∈ devices, d.pub.repositoryRoot = root) (howner : ownerRecord ∈ devices)
    (hcount : paddedEnvelopeCount (devices.filter DeviceRecord.activeReader).length = .ok 4) :
    ∃ policy, policy.body.devices = devices ∧ PolicyOk policy
      ∧ ∀ (wrap : Text) (generationKey : SecretKey), ∃ stored,
        sealManifest primitives coins ownerKey
        policy generationKey .writer (emptyPush wrap policy) = .ok stored := by
  obtain ⟨policy, bytes, hcreate, hbody⟩ := create_total (g := 0) (p := none) hchecked hroots howner
  have hreaders : activeReaders policy = devices.filter DeviceRecord.activeReader := by
    rw [activeReaders, hbody]
  rw [← hreaders] at hcount
  obtain ⟨hne, -, hkeys⟩ := equipped_create hcreate hcount
  refine ⟨policy, by rw [hbody], policyOk_create hcreate, fun wrap generationKey => ?_⟩
  have hmatches : validateManifestPolicy (emptyPush wrap policy) policy = .ok () := by
    simp [validateManifestPolicy, emptyPush, hbody]
  obtain ⟨parts, hparts⟩ := seals hmatches rfl rfl (show root = hexEncode owner.val from rfl) hne
    hcount hkeys generationKey root owner
  exact ⟨_, sealManifest_eq_ok.mpr ⟨rfl, parts, hparts, rfl⟩⟩

theorem emptyPush_alike (wrap : Text) (policy policy' : PolicyState) :
    (emptyPush wrap policy).Alike (emptyPush wrap policy') :=
  ⟨rfl, rfl, rfl, rfl, rfl, rfl, rfl⟩

theorem emptyPush_previous {wrap : Text} {policy : PolicyState} :
    ∀ t, (emptyPush wrap policy).previous = some t → isUtf8 t = true := by
  rintro t ⟨⟩
  exact isUtf8_hexEncode _

theorem team_roots : ∀ d ∈ [ownerRecord, memberRecord], d.pub.repositoryRoot = root := by
  intro d hd
  rcases List.mem_pair.mp hd with rfl | rfl
  · rfl
  · rfl

theorem emptyPush_ids {policy : PolicyState} (wrap : Text) (h : PolicyOk policy) :
    isHex64 (emptyPush wrap policy).policyId = true
      ∧ ∀ d ∈ activeReaders policy, isHex64 d.pub.deviceId = true :=
  ⟨h.id.isHex64, fun d hd => (h.ids d (List.mem_filter.mp hd).1).isHex64⟩

end Reference

/-- **What padding hides, exactly.** Two manifests are sealed for policies whose readers
pad to the same count, and differ in nothing else. What storage can measure of them is
equal if and only if the policies have equally many active readers. -/
theorem measure_eq_iff (hP : Lawful P) {coins coins' : Coins} {key key' : KeyFile}
    {policy policy' : PolicyState} {generationKey generationKey' : SecretKey}
    {authorization authorization' : ManifestAuthorization} {manifest manifest' : Manifest}
    {stored stored' : Bytes}
    (h : sealManifest P coins key policy generationKey authorization manifest = .ok stored)
    (h' : sealManifest P coins' key' policy' generationKey' authorization' manifest' = .ok stored')
    (halike : manifest.Alike manifest')
    (hpadded : paddedEnvelopeCount (activeReaders policy).length
      = paddedEnvelopeCount (activeReaders policy').length)
    (hids : isHex64 manifest.policyId = true
      ∧ ∀ d ∈ activeReaders policy, isHex64 d.pub.deviceId = true)
    (hids' : isHex64 manifest'.policyId = true
      ∧ ∀ d ∈ activeReaders policy', isHex64 d.pub.deviceId = true)
    (hgen : manifest.generation < 2 ^ 64)
    (hprev : ∀ t, manifest.previous = some t → isUtf8 t = true) :
    measure P stored = measure P stored'
      ↔ (activeReaders policy).length = (activeReaders policy').length := by
  obtain ⟨-, parts, hsealed, rfl⟩ := sealManifest_eq_ok.mp h
  obtain ⟨-, parts', hsealed', rfl⟩ := sealManifest_eq_ok.mp h'
  exact measure_eq_of_sealed hP hsealed hsealed' halike hpadded hids hids' hgen hprev

/-- Two keys for one team: equally many readers, so storage measures the same. -/
theorem measure_eq_iff_team : ∃ policy stored stored',
    policy.body.devices = [Reference.ownerRecord, Reference.memberRecord]
      ∧ sealManifest Reference.primitives Reference.coins Reference.ownerKey policy
        (Reference.number 1) .writer (Reference.emptyPush [] policy) = .ok stored
      ∧ sealManifest Reference.primitives Reference.coins Reference.ownerKey policy
        (Reference.number 2) .writer (Reference.emptyPush [] policy) = .ok stored'
      ∧ measure Reference.primitives stored = measure Reference.primitives stored' := by
  obtain ⟨policy, hdevices, hok, hsealed⟩ := Reference.emptyPush_sealed Reference.team_checked
    Reference.team_roots List.mem_cons_self rfl
  obtain ⟨stored, hstored⟩ := hsealed [] (Reference.number 1)
  obtain ⟨stored', hstored'⟩ := hsealed [] (Reference.number 2)
  have hids := Reference.emptyPush_ids [] hok
  exact ⟨policy, stored, stored', hdevices, hstored, hstored', (measure_eq_iff Reference.lawful
    hstored hstored' (Reference.emptyPush_alike _ _ _) rfl hids hids (show 1 < 2 ^ 64 by decide)
    Reference.emptyPush_previous).mpr rfl⟩

/-- One reader and two readers, padded to four envelopes each: storage tells them apart. -/
theorem measure_tells_readers : ∃ policy policy' stored stored',
    policy.body.devices = [Reference.ownerRecord]
      ∧ policy'.body.devices = [Reference.ownerRecord, Reference.memberRecord]
      ∧ sealManifest Reference.primitives Reference.coins Reference.ownerKey policy
        (Reference.number 1) .writer (Reference.emptyPush [] policy) = .ok stored
      ∧ sealManifest Reference.primitives Reference.coins Reference.ownerKey policy'
        (Reference.number 1) .writer (Reference.emptyPush [] policy') = .ok stored'
      ∧ (Reference.emptyPush [] policy).Alike (Reference.emptyPush [] policy')
      ∧ paddedEnvelopeCount (activeReaders policy).length
        = paddedEnvelopeCount (activeReaders policy').length
      ∧ measure Reference.primitives stored ≠ measure Reference.primitives stored' := by
  obtain ⟨policy, hdevices, hok, hsealed⟩ := Reference.emptyPush_sealed Reference.owner_checked
    (fun d hd => by rw [List.mem_singleton.mp hd]; rfl) (List.mem_singleton_self _) rfl
  obtain ⟨policy', hdevices', hok', hsealed'⟩ := Reference.emptyPush_sealed Reference.team_checked
    Reference.team_roots List.mem_cons_self rfl
  obtain ⟨stored, hstored⟩ := hsealed [] (Reference.number 1)
  obtain ⟨stored', hstored'⟩ := hsealed' [] (Reference.number 1)
  have hreaders : (activeReaders policy).length = 1 := by rw [activeReaders, hdevices]; rfl
  have hreaders' : (activeReaders policy').length = 2 := by rw [activeReaders, hdevices']; rfl
  have hpadded : paddedEnvelopeCount (activeReaders policy).length
      = paddedEnvelopeCount (activeReaders policy').length := by
    rw [hreaders, hreaders']
    rfl
  refine ⟨policy, policy', stored, stored', hdevices, hdevices', hstored, hstored',
    Reference.emptyPush_alike _ _ _, hpadded, fun heq => ?_⟩
  obtain ⟨-, parts, hparts, rfl⟩ := sealManifest_eq_ok.mp hstored
  obtain ⟨-, parts', hparts', rfl⟩ := sealManifest_eq_ok.mp hstored'
  have hsame := (measure_eq_of_sealed Reference.lawful hparts hparts'
    (Reference.emptyPush_alike _ _ _) hpadded (Reference.emptyPush_ids [] hok)
    (Reference.emptyPush_ids [] hok') (show 1 < 2 ^ 64 by decide)
      Reference.emptyPush_previous).mp heq
  omega

end GitE2EE

import GitE2EE.Model.Repository
import GitE2EE.Proof.Acceptance
import GitE2EE.Proof.Lengths
import GitE2EE.Proof.Readers
import GitE2EE.Proof.Sealing

/-!
# What a client publishes, every reader accepts

The converse direction of the checks, for the manifests this program builds itself:
a genesis, a push, a policy change. Each of them, sealed on top of an authentic
chain, makes a longer authentic chain (`authentic_genesis`, `authentic_sealed`), and
so every active reader of the new head accepts it.
-/

namespace GitE2EE

open Wire Effect

variable {P : Primitives} {root : Text}

/-! ## Policies -/

theorem deviceId_isUtf8 {key : KeyFile} {id : Text} (h : key.deviceId P = .ok id) :
    isUtf8 id = true := by
  obtain ⟨digest, rfl⟩ := deviceId_digest h
  exact isUtf8_hexEncode _

/-- **A created policy is read back.** -/
theorem parse_create (hP : ReadsJson P) {body : PolicyBody} {signer : KeyFile}
    {policy : PolicyState} {bytes : Bytes}
    (h : PolicyState.create P body signer = .ok (policy, bytes)) (hbody : body.Encodable)
    (hversion : body.formatVersion = FORMAT_VERSION) (hthreshold : body.adminThreshold = 1) :
    PolicyState.parse P bytes = .ok policy := by
  obtain ⟨hdevices, hroots, hroles, id, signature, hid, -, hbytes, hpolicy⟩ := create_ok h
  have hreadable := PolicyObject.readable
    (o := ⟨base64Encode body.toJson.write, [⟨id, base64Encode signature⟩]⟩)
    (isUtf8_base64Encode _) (by
      intro s hs
      rw [List.mem_singleton.mp hs]
      exact ⟨deviceId_isUtf8 hid, isUtf8_base64Encode _⟩) 123
  have hversion' : Json.asUnsigned 64 (.nat body.formatVersion) = some body.formatVersion := by
    rw [hversion]; rfl
  -- the object and its payload are each read twice: for the version first, then as a whole
  simp only [PolicyState.parse, except_bind_eq_ok]
  refine ⟨base64Encode body.toJson.write, ?_, body.toJson.write, decodeBase64As_encode _ _,
    body.formatVersion, fromSlice_write hP (PolicyBody.readable hbody 122) hversion', ?_⟩
  · rw [hbytes]
    exact fromSlice_write hP hreadable rfl
  rw [if_neg (by simp [hversion])]
  simp only [except_bind_eq_ok]
  refine ⟨_, by rw [hbytes]; exact fromSlice_write hP hreadable (PolicyObject.ofJson_toJson _),
    body.toJson.write, decodeBase64As_encode _ _, body,
    fromSlice_write hP (PolicyBody.readable hbody 122) (PolicyBody.ofJson_toJson hbody), (),
    by simp [hthreshold], ?_⟩
  rw [if_neg (by simp [hthreshold])]
  simp only [except_bind_eq_ok]
  exact ⟨(), hdevices, (), hroots, (), hroles, by rw [hpolicy]; rfl⟩

theorem policyOk_create {body : PolicyBody} {signer : KeyFile} {policy : PolicyState}
    {bytes : Bytes} (h : PolicyState.create P body signer = .ok (policy, bytes)) :
    PolicyOk policy := by
  obtain ⟨hdevices, -, hroles, id, signature, -, -, -, rfl⟩ := create_ok h
  exact policyOk_of_checks ⟨_, rfl⟩ hdevices hroles

/-! ## The entry a sealed manifest makes -/

/-- The entry of a sealed manifest in a chain. -/
def SealParts.state (P : Primitives) (parts : SealParts) (policy : PolicyState)
    (generationKey : SecretKey) (manifest : Manifest) : OpenedState where
  id := objectId P (parts.encrypted P generationKey manifest)
  manifest := manifest
  header := parts.header P generationKey manifest
  policy := policy
  generationKey := generationKey
  verifiedSigner := parts.signerId

@[simp] theorem SealParts.state_id {parts : SealParts} {policy : PolicyState}
    {generationKey : SecretKey} {manifest : Manifest} :
    (parts.state P policy generationKey manifest).id
      = objectId P (parts.encrypted P generationKey manifest) := rfl

/-- The manifests of a list of stored objects, by id. -/
def Shelved (P : Primitives) (objects : List Bytes) (name : Text) (m : Material) : Prop :=
  m.encrypted ∈ objects ∧ checkMaterial P name m.encrypted = .ok m

theorem Shelved.mono {objects objects' : List Bytes} (hsub : objects ⊆ objects') {name : Text}
    {m : Material} (h : Shelved P objects name m) : Shelved P objects' name m :=
  ⟨hsub h.1, h.2⟩

theorem shelved_archive {objects : List Bytes}
    (hinj : Set.InjOn (objectId P) { b | b ∈ objects }) : Archive P (Shelved P objects) where
  id h := (checkMaterial_ok h.2).1
  unique := by
    intro name m m' h h'
    obtain ⟨-, -, hid, -⟩ := checkMaterial_ok h.2
    obtain ⟨-, -, hid', -⟩ := checkMaterial_ok h'.2
    have hbytes : m.encrypted = m'.encrypted := hinj h.1 h'.1 (hid.trans hid'.symm)
    have hcheck := h.2
    rw [hbytes, h'.2] at hcheck
    exact (Except.ok.inj hcheck).symm
  peek h := (checkMaterial_ok h.2).2.2.2

theorem Authentic.mono {M M' : Text → Material → Prop} (hM : ∀ name m, M name m → M' name m)
    {chain : List OpenedState} (h : Authentic P root M chain) : Authentic P root M' chain := by
  induction h with
  | genesis hread hverify => exact .genesis (hread.mono hM) hverify
  | step hread hlink hverify _ ih => exact .step (hread.mono hM) hlink hverify ih

section

variable {coins : Coins} {key : KeyFile} {policy : PolicyState} {generationKey : SecretKey}
variable {manifest : Manifest} {parts : SealParts}

theorem Sealed.content_encodable (h : Sealed P coins key policy generationKey manifest parts)
    (hm : manifest.Encodable) (hpolicy : PolicyOk policy) :
    (parts.content manifest).Encodable where
  policyId := hm.policyId
  policyGeneration := hm.policyGeneration
  signerDeviceId := deviceId_isUtf8 h.signer
  totalPackCount := hm.totalPackCount
  envelopeAudit := by
    intro e he
    obtain ⟨pairs, hbuilt, -, haudit⟩ := buildEnvelopes_ok h.envelopes
    have he' : e ∈ parts.audit := he
    rw [haudit] at he'
    obtain ⟨pair, hpair, rfl⟩ := List.mem_map.mp he'
    obtain ⟨real, padding, hperm, hreal, hpadding⟩ := hbuilt.split
    -- a real envelope names a device of the policy; a padding one names nothing
    rcases List.mem_append.mp (hperm.mem_iff.mp hpair) with hr | hp
    · obtain ⟨d, -, hd, seed, ciphertext, -, -, hentry⟩ := forall₂_exists_left hreal hr
      rw [hentry]
      exact ⟨(hpolicy.ids d (List.mem_filter.mp hd).1).isUtf8, isUtf8_base64Encode _⟩
    · rw [(hpadding pair hp).2]
      trivial

/-- The stored bytes as a reader meets them. -/
def SealParts.material (P : Primitives) (parts : SealParts) (generationKey : SecretKey)
    (manifest : Manifest) : Material where
  id := objectId P (parts.encrypted P generationKey manifest)
  encrypted := parts.encrypted P generationKey manifest
  header := parts.header P generationKey manifest

theorem Sealed.shelved (hP : ReadsJson P)
    (h : Sealed P coins key policy generationKey manifest parts) (hm : manifest.Encodable)
    {objects : List Bytes} (hmem : parts.encrypted P generationKey manifest ∈ objects) :
    Shelved P objects (objectId P (parts.encrypted P generationKey manifest))
      (parts.material P generationKey manifest) := by
  refine ⟨hmem, ?_⟩
  have hpeek := (h.framed hm.generation hm.previous).peek hP
  simp only [SealParts.material, checkMaterial, ne_eq, not_true, if_false]
  rw [hpeek]
  rfl

/-- The device of a key file signs for its record. -/
theorem verifies_of_device (hP : Lawful P)
    (h : Sealed P coins key policy generationKey manifest parts) (hpolicy : PolicyOk policy)
    (hc : (parts.content manifest).Encodable) {parentPolicy : Option PolicyState}
    {device : DeviceRecord}
    (hdevice : authorizingDevice (parts.content manifest) policy parentPolicy = .ok device)
    (hkey : key.publicDevice P = .ok device.pub) :
    verifyManifest P (parts.opened P generationKey manifest) policy parentPolicy generationKey
      = .ok () := by
  simp only [KeyFile.publicDevice, except_bind_eq_ok] at hkey
  obtain ⟨signing, hsigning, wrapping, -, hpub⟩ := hkey
  refine h.verifies hP hpolicy hc hdevice hsigning ?_
  cases hd : device.pub
  rw [hd] at hpub
  cases hpub
  rfl

/-- What sealing a manifest in its place above `chain` takes. -/
structure Publishes (P : Primitives) (root : Text) (chain : List OpenedState) (coins : Coins)
    (key : KeyFile) (policy : PolicyState) (parentPolicy : Option PolicyState)
    (generationKey : SecretKey) (manifest : Manifest) (parts : SealParts) : Prop where
  sealed : Sealed P coins key policy generationKey manifest parts
  selected : selectPolicy P root chain manifest = .ok (policy, parentPolicy)
  policyOk : PolicyOk policy
  encodable : manifest.Encodable
  positioned : manifest.Positioned
  authorized : ∃ device, authorizingDevice (parts.content manifest) policy parentPolicy = .ok device
    ∧ key.publicDevice P = .ok device.pub

/-- A published manifest fits what storage returns at once, if its body is small. -/
theorem Publishes.length_le (hP : Lawful P) {chain : List OpenedState}
    {parentPolicy : Option PolicyState}
    (h : Publishes P root chain coins key policy parentPolicy generationKey manifest parts)
    (hprevious : ∀ t, manifest.previous = some t → IsDigest t)
    (hbody : (SealParts.body manifest).toJson.write.length ≤ 8 * 1024 * 1024) :
    (parts.encrypted P generationKey manifest).length ≤ MAX_MANIFEST_BYTES := by
  have hmatches := h.sealed.matchesPolicy
  simp only [validateManifestPolicy, bailIf_eq_ok] at hmatches
  push Not at hmatches
  refine h.sealed.length_le hP (hmatches.2.2.1 ▸ h.policyOk.id.isHex64)
    (fun d hd => (h.policyOk.ids d (List.mem_filter.mp hd).1).isHex64) h.encodable.generation
    (fun t ht => ?_) h.encodable.policyGeneration h.encodable.totalPackCount hbody
  obtain ⟨digest, rfl⟩ := hprevious t ht
  rw [length_hexEncode, digest.property]

/-- A published manifest passes the checks of its place. -/
theorem Publishes.verifyEntry (hP : Lawful P) {chain : List OpenedState}
    {parentPolicy : Option PolicyState}
    (h : Publishes P root chain coins key policy parentPolicy generationKey manifest parts) :
    verifyEntry P root chain ⟨objectId P (parts.encrypted P generationKey manifest),
      parts.opened P generationKey manifest, generationKey⟩
      = .ok (parts.state P policy generationKey manifest) := by
  obtain ⟨device, hdevice, hkey⟩ := h.authorized
  simp only [GitE2EE.verifyEntry, except_bind_eq_ok]
  exact ⟨(policy, parentPolicy), h.selected, (), verifies_of_device hP h.sealed h.policyOk
    (h.sealed.content_encodable h.encodable h.policyOk) hdevice hkey, rfl⟩

theorem Publishes.read (hP : Lawful P) {chain : List OpenedState}
    {parentPolicy : Option PolicyState}
    (h : Publishes P root chain coins key policy parentPolicy generationKey manifest parts)
    {objects : List Bytes} (hmem : parts.encrypted P generationKey manifest ∈ objects) :
    Read P (Shelved P objects) ⟨objectId P (parts.encrypted P generationKey manifest),
      parts.opened P generationKey manifest, generationKey⟩ :=
  ⟨_, _, h.sealed.shelved hP.json h.encodable hmem, rfl,
    (h.sealed.framed h.encodable.generation h.encodable.previous).opens hP h.encodable
      (h.sealed.content_encodable h.encodable h.policyOk) h.positioned⟩

/-- **A published manifest passes the check of its own client.** -/
theorem Publishes.selfCheck (hP : Lawful P) {chain : List OpenedState} {prepared : Prepared}
    {parentPolicy : Option PolicyState}
    (h : Publishes P root chain coins key prepared.policy parentPolicy prepared.generationKey
      prepared.manifest parts)
    (hparent : prepared.parentPolicy = parentPolicy) {previous : Option OpenedState}
    (hlink : ∀ p, previous = some p → unwrapPredecessorKey P prepared.generationKey
      prepared.manifest p.header = .ok p.generationKey) :
    selfCheck P previous prepared (parts.encrypted P prepared.generationKey prepared.manifest)
      = .ok () := by
  obtain ⟨device, hdevice, hkey⟩ := h.authorized
  have hcontent := h.sealed.content_encodable h.encodable h.policyOk
  simp only [GitE2EE.selfCheck, except_bind_eq_ok, bailIf_eq_ok, hparent]
  refine ⟨_, (h.sealed.framed h.encodable.generation h.encodable.previous).opens hP h.encodable
    hcontent h.positioned, (), verifies_of_device hP h.sealed h.policyOk hcontent hdevice hkey, (),
    ?_, by simp [SealParts.opened, SealParts.header]⟩
  cases previous with
  | none => rfl
  | some p =>
    simp only [checkLink, except_bind_eq_ok, bailIf_eq_ok]
    exact ⟨_, hlink p rfl, by simp⟩

/-- **A published genesis is an authentic chain.** -/
theorem authentic_genesis (hP : Lawful P)
    (h : Publishes P root [] coins key policy none generationKey manifest parts) :
    Authentic P root (Shelved P [parts.encrypted P generationKey manifest])
      [parts.state P policy generationKey manifest] :=
  .genesis (h.read hP (List.mem_singleton_self _)) (h.verifyEntry hP)

/-- **A manifest published above an authentic chain extends it.** -/
theorem authentic_sealed (hP : Lawful P) {objects : List Bytes} {p : OpenedState}
    {chain : List OpenedState} (hchain : Authentic P root (Shelved P objects) (p :: chain))
    {parentPolicy : Option PolicyState}
    (h : Publishes P root (p :: chain) coins key policy parentPolicy generationKey manifest parts)
    (hlink : unwrapPredecessorKey P generationKey manifest p.header = .ok p.generationKey) :
    Authentic P root (Shelved P (parts.encrypted P generationKey manifest :: objects))
      (parts.state P policy generationKey manifest :: p :: chain) :=
  .step (h.read hP List.mem_cons_self) hlink (h.verifyEntry hP)
    (hchain.mono fun _ _ => Shelved.mono (List.subset_cons_self _ _))

end

/-! ## The link -/

/-- **A predecessor link leads to the key it was made from.** -/
theorem unwrapPredecessorKey_wrap (hP : Lawful P) {nonce : Nonce}
    {generationKey previousKey : SecretKey} {manifest : Manifest} {previousId wrap : Text}
    {parentHeader : ManifestHeader}
    (h : wrapPredecessorKey P nonce generationKey previousKey manifest.repositoryRoot
      manifest.generation previousId = .ok wrap)
    (hprevious : manifest.previous = some previousId)
    (hwrap : manifest.predecessorKeyWrap = some wrap)
    (hgen : checkedAdd parentHeader.generation 1 = some manifest.generation)
    (hroot : parentHeader.repositoryRoot = manifest.repositoryRoot)
    (hcommit : verifyKeyCommitment P previousKey parentHeader.keyCommitment = .ok ()) :
    unwrapPredecessorKey P generationKey manifest parentHeader = .ok previousKey := by
  simp only [wrapPredecessorKey, except_bind_eq_ok] at h
  obtain ⟨linkKey, hkey, wrapped, hsealed, h⟩ := h
  cases h
  simp only [unwrapPredecessorKey, except_bind_eq_ok, orBail_eq_ok, bailIf_eq_ok]
  exact ⟨previousId, hprevious, _, hwrap, (), by simp [hgen, hroot], linkKey, hkey, wrapped,
    by simp [decodeBase64], previousKey.val, openWithKey_sealWithKey hP hsealed, previousKey,
    toBytes32_val _, (), hcommit, rfl⟩

/-! ## The manifests this program builds -/

section

variable {coins : Coins} {key : KeyFile} {prepared : Prepared} {id : Text} {encrypted : Bytes}

theorem sealNext_eq_ok {previous : Option OpenedState} :
    sealNext P key coins previous prepared = .ok (id, encrypted) ↔
      validatePosition P previous prepared = .ok () ∧ ∃ parts,
        Sealed P coins key prepared.policy prepared.generationKey prepared.manifest parts
          ∧ encrypted = parts.encrypted P prepared.generationKey prepared.manifest
          ∧ id = objectId P encrypted := by
  simp only [sealNext, except_bind_eq_ok]
  constructor
  · rintro ⟨⟨⟩, hposition, bytes, hseal, h⟩
    cases h
    obtain ⟨-, parts, hsealed, hbytes⟩ := sealManifest_eq_ok.mp hseal
    exact ⟨hposition, parts, hsealed, hbytes, rfl⟩
  · rintro ⟨hposition, parts, hsealed, hbytes, rfl⟩
    exact ⟨(), hposition, encrypted, sealManifest_eq_ok.mpr ⟨rfl, parts, hsealed, hbytes⟩, rfl⟩

theorem publicDevice_ok {device : PublicDevice} (h : key.publicDevice P = .ok device) :
    device.repositoryRoot = key.repositoryRoot ∧ isUtf8 device.deviceId = true
      ∧ isUtf8 device.signingPublicKey = true ∧ isUtf8 device.wrappingPublicKey = true
      ∧ key.deviceId P = .ok device.deviceId
      ∧ ∃ secret, key.signingKey = .ok secret
        ∧ device.signingPublicKey = base64Encode (P.ed25519Public secret).val := by
  have hid : key.deviceId P = .ok device.deviceId := by
    simp only [KeyFile.deviceId, h]
    rfl
  simp only [KeyFile.publicDevice, except_bind_eq_ok] at h
  obtain ⟨signing, hsigning, wrapping, -, h⟩ := h
  cases h
  exact ⟨rfl, isUtf8_hexEncode _, isUtf8_base64Encode _, isUtf8_base64Encode _, hid, signing,
    hsigning, rfl⟩

/-- The signature of a created policy, checked against the device that made it. -/
theorem verifyAgainstAdmins_create (hP : Lawful P) {body : PolicyBody} {policy : PolicyState}
    {bytes : Bytes} (h : PolicyState.create P body key = .ok (policy, bytes))
    {devices : List DeviceRecord} {d : DeviceRecord} (hkey : key.publicDevice P = .ok d.pub)
    (hfind : devices.find? (fun e => e.pub.deviceId = d.pub.deviceId && e.activeAdministrator)
      = some d) :
    policy.verifyAgainstAdmins P devices = .ok () := by
  obtain ⟨-, -, -, id, signature, hid, hsignature, -, rfl⟩ := create_ok h
  obtain ⟨-, -, -, -, hid', secret, hsecret, hpublic⟩ := publicDevice_ok hkey
  have hsame : id = d.pub.deviceId := Except.ok.inj (hid.symm.trans hid')
  subst hsame
  simp only [PolicyState.verifyAgainstAdmins, except_bind_eq_ok, orBail_eq_ok, decodeBase64]
  refine ⟨d, hfind, signature, base64Decode_base64Encode _, ?_⟩
  rw [hpublic]
  exact verifyDomain_signDomain hP hsecret hsignature

/-- The devices as a policy lists them. -/
abbrev listed (devices : List DeviceRecord) : List DeviceRecord :=
  devices.insertionSort fun a b => lexLe a.pub.deviceId b.pub.deviceId = true

theorem mem_listed {devices : List DeviceRecord} {d : DeviceRecord} :
    d ∈ listed devices ↔ d ∈ devices := (List.perm_insertionSort _ _).mem_iff

/-- A device list that may follow a policy: it keeps every record, and revokes at the next
policy generation only. -/
structure Continues (policy : PolicyState) (devices : List DeviceRecord) : Prop where
  kept : ∀ old ∈ policy.body.devices, ∃ new,
    devices.find? (fun d => d.pub.deviceId = old.pub.deviceId) = some new
      ∧ new.pub = old.pub ∧ new.label = old.label ∧ (new.revokedAt = old.revokedAt
        ∨ old.revokedAt = none ∧ new.revokedAt = some (policy.body.generation + 1))
  revoked : ∀ d ∈ devices, d.revokedAt = none
    ∨ (∃ old, policy.device d.pub.deviceId = some old ∧ old.revokedAt = d.revokedAt)
    ∨ d.revokedAt = some (policy.body.generation + 1)

/-- **A policy that one of the parent's administrators creates from such a list succeeds
the parent.** -/
theorem validateSuccessor_create (hP : Lawful P) {parent next : PolicyState}
    {devices : List DeviceRecord} {bytes : Bytes} (hcontinues : Continues parent devices)
    (hparent : PolicyOk parent) (hthreshold : parent.body.adminThreshold = 1)
    (hgen : parent.body.generation + 1 < 2 ^ 64) {d : DeviceRecord}
    (hd : d ∈ parent.body.devices) (hadmin : d.activeAdministrator = true)
    (hkey : key.publicDevice P = .ok d.pub)
    (hcreate : PolicyState.create P ⟨FORMAT_VERSION, parent.body.repositoryRoot,
      parent.body.generation + 1, some parent.id, 1, devices⟩ key = .ok (next, bytes)) :
    next.validateSuccessor P parent = .ok () := by
  obtain ⟨-, -, hroles, _, _, -, -, -, rfl⟩ := create_ok hcreate
  have hsigned : PolicyState.verifyAgainstAdmins P _ parent.body.devices = .ok () :=
    verifyAgainstAdmins_create hP hcreate hkey
      (find?_eq_some_of_unique hd (by simp [hadmin]) fun e he heq => by
        simp only [Bool.and_eq_true, decide_eq_true_eq] at heq
        exact hparent.eq_of_id he hd heq.1)
  simp only [PolicyState.validateSuccessor, except_bind_eq_ok, bailIf_eq_ok]
  refine ⟨(), by simp, (), by simp [-Nat.reducePow, checkedAdd, hgen], (), by simp, (),
    by simp [hthreshold], (), hsigned, (), forM_eq_ok.mpr fun old hold => ?_, (),
    forM_eq_ok.mpr fun e he => bailIf_eq_ok.mpr ?_, hroles⟩
  · -- a device of the parent: the same keys and label, and at most revoked now
    obtain ⟨new, hnew, hpub, hlabel, hrevocation⟩ := hcontinues.kept old hold
    simp only [PolicyState.validateInherited, except_bind_eq_ok, orBail_eq_ok, bailIf_eq_ok]
    refine ⟨new, hnew, (), by simp [hpub], (), by simp [hlabel], (), ?_, ?_⟩
    · rintro ⟨hsome, hne⟩
      rcases hrevocation with hsame | ⟨hnone, -⟩
      · exact hne hsame
      · rw [hnone] at hsome
        cases hsome
    · rintro ⟨hnone, hsome, hne⟩
      rcases hrevocation with hsame | ⟨-, hnow⟩
      · rw [hsame, hnone] at hsome
        cases hsome
      · exact hne hnow
  · -- a revocation is the parent's, or is dated at this generation
    rintro ⟨hsome, halready, hne⟩
    rcases hcontinues.revoked e he with hnone | ⟨old, hold, hsame⟩ | hnow
    · rw [hnone] at hsome
      cases hsome
    · exact halready (by simp [hold, hsame, hsome])
    · exact hne hnow

/-- A key file whose keys the repository root is the hash of. -/
def KeyFile.Owns (P : Primitives) (key : KeyFile) : Prop :=
  ∃ device, key.publicDevice P = .ok device
    ∧ repositoryRootForDevice P device = .ok key.repositoryRoot

/-- What `genesisManifest` puts together. -/
theorem genesisManifest_ok {ownerLabel : Text} {draws : Draws}
    (h : genesisManifest P key ownerLabel draws = .ok prepared) :
    ∃ device policy policyBytes, key.publicDevice P = .ok device
      ∧ PolicyState.create P ⟨FORMAT_VERSION, key.repositoryRoot, 0, none, 1,
          [⟨device, ownerLabel, .owner, none⟩]⟩ key = .ok (policy, policyBytes)
      ∧ prepared = ⟨policy, none, draws.generationKey,
          .genesis key.repositoryRoot policy policyBytes⟩ := by
  simp only [genesisManifest, PolicyState.genesis, except_bind_eq_ok] at h
  obtain ⟨⟨policy, policyBytes⟩, ⟨device, hdevice, hcreate⟩, h⟩ := h
  cases h
  exact ⟨device, policy, policyBytes, hdevice, hcreate, rfl⟩

/-- **The genesis of `initialize` is accepted.** -/
theorem publishes_genesis (hP : Lawful P) {ownerLabel : Text} {draws : Draws}
    (hprepared : genesisManifest P key ownerLabel draws = .ok prepared)
    (hsealed : sealNext P key coins none prepared = .ok (id, encrypted))
    (howns : key.Owns P) (hlabel : isUtf8 ownerLabel = true) :
    ∃ parts, Publishes P key.repositoryRoot [] coins key prepared.policy none
        prepared.generationKey prepared.manifest parts
      ∧ encrypted = parts.encrypted P prepared.generationKey prepared.manifest := by
  obtain ⟨hposition, parts, hparts, hencrypted, -⟩ := sealNext_eq_ok.mp hsealed
  obtain ⟨device, hdevice, hroot⟩ := howns
  obtain ⟨hdroot, hdid, hdsign, hdwrap, hid, -⟩ := publicDevice_ok hdevice
  obtain ⟨device', policy, policyBytes, hpub, hcreate, rfl⟩ := genesisManifest_ok hprepared
  obtain rfl : device = device' := Except.ok.inj (hdevice.symm.trans hpub)
  have hrootUtf8 : isUtf8 key.repositoryRoot = true :=
    isUtf8_of_isHex64 (validatePublicHeader_ok hparts.publicHeader).2
  have hparse := parse_create hP.json hcreate
    ⟨by simp [FORMAT_VERSION], hrootUtf8, by simp, fun t ht => (by cases ht), by simp,
      fun d hd => by
      rw [List.mem_singleton.mp hd]
      exact ⟨hdroot ▸ hrootUtf8, hdid, hdsign, hdwrap, hlabel, fun g hg => (by cases hg)⟩⟩ rfl rfl
  have hbody : policy.body = ⟨FORMAT_VERSION, key.repositoryRoot, 0, none, 1,
      [⟨device, ownerLabel, .owner, none⟩]⟩ := by
    obtain ⟨-, -, -, _, _, -, -, -, rfl⟩ := create_ok hcreate
    rfl
  -- the owner is the only administrator, and signed the policy
  have hadmins : policy.verifyAgainstAdmins P policy.body.devices = .ok () := by
    refine verifyAgainstAdmins_create hP hcreate
      (d := ⟨device, ownerLabel, .owner, none⟩) hdevice ?_
    rw [hbody]
    simp [DeviceRecord.activeAdministrator, DeviceRecord.active, DeviceRoles.owner]
  have hpolicyGenesis : policy.validateGenesis P key.repositoryRoot = .ok () := by
    simp only [PolicyState.validateGenesis, except_bind_eq_ok, bailIf_eq_ok, hadmins]
    refine ⟨(), by simp [hbody], (), by simp [hbody], (), ?_, (), by simp [hbody], trivial⟩
    rw [hbody]
    simp only [PolicyState.validateOwner, DeviceRecord.active, Option.isNone_none, and_self,
      if_true, hroot, except_bind_eq_ok, bailIf_eq_ok]
    exact ⟨_, rfl, by simp⟩
  refine ⟨parts, {
    sealed := hparts
    selected := ?_
    policyOk := policyOk_create hcreate
    encodable := ?_
    positioned := ⟨by simp [Manifest.genesis], by simp [Manifest.genesis]⟩
    authorized := ⟨⟨device, ownerLabel, .owner, none⟩, ?_, hdevice⟩ }, hencrypted⟩
  · simp only [selectPolicy, genesisPolicy, except_bind_eq_ok, orBail_eq_ok]
    exact ⟨policy, ⟨policyBytes, rfl, policy, hparse, (), hpolicyGenesis, (), hposition, rfl⟩, rfl⟩
  · have hpg : policy.body.generation < 2 ^ 64 := by simp [hbody]
    exact ⟨by simp [Manifest.genesis], fun t ht => (by cases ht),
      (policyOk_create hcreate).id.isUtf8,
      hpg, by simp [Manifest.genesis],
      fun e he => (by cases he), fun p hp => (by cases hp), fun t ht => (by cases ht)⟩
  · have hsigner : parts.signerId = device.deviceId := Except.ok.inj (hparts.signer.symm.trans hid)
    simp [authorizingDevice, SealParts.content, Manifest.genesis, PolicyState.device,
      hbody, hsigner,
      DeviceRecord.activeAdministrator, DeviceRecord.active, DeviceRoles.owner]

/-- The id of the newest entry is the hash of stored bytes. -/
theorem authentic_id {objects : List Bytes} {p : OpenedState} {chain : List OpenedState}
    (h : Authentic P root (Shelved P objects) (p :: chain)) : IsDigest p.id := by
  have hread : ∀ {u : Unverified} {below : List OpenedState}, Read P (Shelved P objects) u →
      verifyEntry P root below u = .ok p → IsDigest p.id := by
    rintro u below ⟨name, m, hm, hid, -⟩ hverify
    obtain ⟨_, -, -, hpid, -⟩ := verifyEntry_ok hverify
    obtain ⟨hname, -, hobject, -⟩ := checkMaterial_ok hm.2
    rw [hpid, hid, hname, ← hobject]
    exact ⟨_, rfl⟩
  cases h with
  | genesis hu hverify => exact hread hu hverify
  | step hu _ hverify _ => exact hread hu hverify

/-- The link of a prepared successor leads to the key of the entry below. -/
theorem unwrapPredecessorKey_prepared (hP : Lawful P) {p : OpenedState} (hp : EntryOk P p)
    {nonce : Nonce} {wrap : Text}
    (hwrap : wrapPredecessorKey P nonce prepared.generationKey p.generationKey
      p.manifest.repositoryRoot prepared.manifest.generation p.id = .ok wrap)
    (hsucc : SuccessorManifest P prepared.manifest p.id p.manifest)
    (hwrapped : prepared.manifest.predecessorKeyWrap = some wrap) :
    unwrapPredecessorKey P prepared.generationKey prepared.manifest p.header
      = .ok p.generationKey := by
  rw [← hsucc.root] at hwrap
  refine unwrapPredecessorKey_wrap hP hwrap hsucc.pointer hwrapped ?_ ?_ hp.commitment
  · rw [← hp.generation_header]
    exact checkedAdd_eq_some.mpr ⟨hsucc.generation.symm, hsucc.generation_lt⟩
  · rw [← hp.root_header, hsucc.root]

theorem positioned_of_successor {p : OpenedState}
    (hsucc : SuccessorManifest P prepared.manifest p.id p.manifest) {wrap : Text}
    (hwrapped : prepared.manifest.predecessorKeyWrap = some wrap) :
    prepared.manifest.Positioned := by
  have hgen := hsucc.generation
  constructor
  · rw [hwrapped]
    constructor
    · omega
    · exact fun h => (by cases h)
  · rw [hsucc.pointer]
    constructor
    · omega
    · exact fun h => (by cases h)

theorem wrapPredecessorKey_utf8 {nonce : Nonce} {generationKey previousKey : SecretKey}
    {generation : Nat} {previousId wrap : Text}
    (h : wrapPredecessorKey P nonce generationKey previousKey root generation previousId
      = .ok wrap) : isUtf8 wrap = true := by
  simp only [wrapPredecessorKey, except_bind_eq_ok] at h
  obtain ⟨linkKey, -, wrapped, -, h⟩ := h
  cases h
  exact isUtf8_base64Encode _

/-- What `prepareRefs` puts together. -/
theorem prepareRefs_ok {p : OpenedState} {draws : Draws} {generation : Nat}
    {newPacks : List PackDescriptor} {nextRefs : RefMap}
    (h : prepareRefs P draws p generation newPacks nextRefs = .ok prepared) :
    prepared.policy = p.policy ∧ prepared.generationKey = draws.generationKey
      ∧ prepared.manifest.repositoryRoot = p.manifest.repositoryRoot
      ∧ prepared.manifest.generation = generation ∧ prepared.manifest.newPacks = newPacks
      ∧ prepared.manifest.refs = nextRefs ∧ prepared.manifest.totalPackCount
        = (p.manifest.totalPackCount + newPacks.length) % 2 ^ 64
      ∧ prepared.manifest.previous = some p.id ∧ prepared.manifest.introducedPolicy = none
      ∧ ∃ wrap, prepared.manifest.predecessorKeyWrap = some wrap
        ∧ wrapPredecessorKey P draws.linkNonce draws.generationKey p.generationKey
          p.manifest.repositoryRoot generation p.id = .ok wrap := by
  simp only [prepareRefs, except_bind_eq_ok] at h
  obtain ⟨wrap, hwrap, h⟩ := h
  cases h
  exact ⟨rfl, rfl, rfl, rfl, rfl, rfl, rfl, rfl, rfl, wrap, rfl, hwrap⟩

theorem prepareRefs_parentPolicy {p : OpenedState} {draws : Draws} {generation : Nat}
    {newPacks : List PackDescriptor} {nextRefs : RefMap}
    (h : prepareRefs P draws p generation newPacks nextRefs = .ok prepared) :
    prepared.parentPolicy = none := by
  simp only [prepareRefs, except_bind_eq_ok] at h
  obtain ⟨wrap, -, h⟩ := h
  cases h
  rfl

/-- What `prepareTransition` puts together. -/
theorem prepareTransition_ok {p : OpenedState} {draws : Draws}
    {nextDevices : OpenedState → Result (List DeviceRecord)}
    (h : prepareTransition P key nextDevices draws p = .ok prepared) :
    ∃ devices policyBytes wrap, nextDevices p = .ok devices
      ∧ PolicyState.create P ⟨FORMAT_VERSION, p.policy.body.repositoryRoot,
          p.policy.body.generation + 1, some p.policy.id, 1,
          devices.insertionSort fun a b => lexLe a.pub.deviceId b.pub.deviceId = true⟩ key
        = .ok (prepared.policy, policyBytes)
      ∧ p.policy.body.generation + 1 < 2 ^ 64
      ∧ wrapPredecessorKey P draws.linkNonce draws.generationKey p.generationKey
          p.manifest.repositoryRoot (p.manifest.generation + 1) p.id = .ok wrap
      ∧ prepared.parentPolicy = some p.policy ∧ prepared.generationKey = draws.generationKey
      ∧ prepared.manifest = ⟨p.manifest.formatVersion, p.manifest.repositoryRoot,
          p.manifest.generation + 1, some p.id, prepared.policy.id,
          prepared.policy.body.generation, .policyTransition, p.manifest.totalPackCount,
          p.manifest.refs, [], some wrap, some policyBytes⟩ := by
  simp only [prepareTransition, except_bind_eq_ok] at h
  obtain ⟨⟨⟩, -, devices, hnext, ⟨policy, policyBytes⟩, hsuccessor, next, htransition, ⟨⟩, -,
    h⟩ := h
  cases h
  simp only [PolicyState.successor, except_bind_eq_ok, orBail_eq_ok, checkedAdd_eq_some]
    at hsuccessor
  obtain ⟨policyGeneration, ⟨rfl, hlt⟩, hcreate⟩ := hsuccessor
  simp only [transitionManifest, except_bind_eq_ok, orBail_eq_ok, checkedAdd_eq_some] at htransition
  obtain ⟨generation, ⟨rfl, -⟩, wrap, hwrap, h⟩ := htransition
  cases h
  exact ⟨devices, policyBytes, wrap, hnext, hcreate, hlt, hwrap, rfl, rfl, rfl⟩

/-- **The manifest of a push is accepted** above the chain it was prepared from. -/
theorem publishes_refs (hP : Lawful P) {objects : List Bytes} {p : OpenedState}
    {chain : List OpenedState} (hchain : Authentic P root (Shelved P objects) (p :: chain))
    {draws : Draws} {generation : Nat} {newPacks : List PackDescriptor} {nextRefs : RefMap}
    (hprepared : prepareRefs P draws p generation newPacks nextRefs = .ok prepared)
    (hsealed : sealNext P key coins (some p) prepared = .ok (id, encrypted))
    {d : DeviceRecord} (hd : d ∈ p.policy.body.devices) (hwriter : d.activeWriter = true)
    (hkey : key.publicDevice P = .ok d.pub) (hrefs : RefMap.Encodable nextRefs)
    (hpacks : ∀ pack ∈ newPacks, pack.Encodable) :
    ∃ parts, Publishes P root (p :: chain) coins key prepared.policy none prepared.generationKey
        prepared.manifest parts
      ∧ encrypted = parts.encrypted P prepared.generationKey prepared.manifest
      ∧ unwrapPredecessorKey P prepared.generationKey prepared.manifest p.header
        = .ok p.generationKey := by
  obtain ⟨hposition, parts, hparts, hencrypted, -⟩ := sealNext_eq_ok.mp hsealed
  have hchained := authentic_chained hchain
  have hentry := hchained.entryOk p List.mem_cons_self
  have hpolicy := chained_policyOk hchained p List.mem_cons_self
  have hsucc := manifestSuccessor_ok (show prepared.manifest.validateSuccessor P p.id p.manifest
    prepared.policy = .ok () from hposition)
  have hid := (publicDevice_ok hkey).2.2.2.2.1
  have hsigner : parts.signerId = d.pub.deviceId := Except.ok.inj (hparts.signer.symm.trans hid)
  simp only [prepareRefs, except_bind_eq_ok] at hprepared
  obtain ⟨wrap, hwrap, h⟩ := hprepared
  cases h
  -- a chain has at most as many policies as generations
  have hpg : p.policy.body.generation < 2 ^ 64 := by
    have hcount := chained_policyGeneration hchained
    have hle := List.countP_le_length (p := OpenedState.isTransition) (l := (p :: chain).dropLast)
    have hlength := chained_generation hchained
    have hgen := hsucc.generation
    have hlt := hsucc.generation_lt
    rw [List.length_dropLast, List.length_cons, Nat.add_sub_cancel] at hle
    rw [← hentry.policy_generation]
    omega
  refine ⟨parts, {
    sealed := hparts
    selected := ?_
    policyOk := hpolicy
    encodable := ⟨hsucc.generation_lt, ?_, hpolicy.id.isUtf8, hpg, hsucc.totalPackCount_lt, hrefs,
      hpacks, ?_⟩
    positioned := positioned_of_successor hsucc rfl
    authorized := ⟨d, ?_, hkey⟩ }, hencrypted,
    unwrapPredecessorKey_prepared hP hentry hwrap hsucc rfl⟩
  · simp only [selectPolicy, successorPolicy, except_bind_eq_ok]
    exact ⟨(p.policy, none), rfl, (), hposition, rfl⟩
  · rintro t ⟨⟩
    exact (authentic_id hchain).isUtf8
  · rintro t ⟨⟩
    exact wrapPredecessorKey_utf8 hwrap
  · simp [authorizingDevice, SealParts.content, hsigner, hpolicy.device_eq hd, hwriter]

/-- **The manifest of a policy change is accepted** above the chain it was prepared from. -/
theorem publishes_transition (hP : Lawful P) {objects : List Bytes} {p : OpenedState}
    {chain : List OpenedState} (hchain : Authentic P root (Shelved P objects) (p :: chain))
    {draws : Draws} {nextDevices : OpenedState → Result (List DeviceRecord)}
    (hprepared : prepareTransition P key nextDevices draws p = .ok prepared)
    (hsealed : sealNext P key coins (some p) prepared = .ok (id, encrypted))
    {d : DeviceRecord} (hd : d ∈ p.policy.body.devices) (hadmin : d.activeAdministrator = true)
    (hkey : key.publicDevice P = .ok d.pub) (hrefs : RefMap.Encodable p.manifest.refs)
    (hdevices : ∀ devices, nextDevices p = .ok devices → ∀ e ∈ devices, e.Encodable) :
    ∃ parts, Publishes P root (p :: chain) coins key prepared.policy (some p.policy)
        prepared.generationKey prepared.manifest parts
      ∧ encrypted = parts.encrypted P prepared.generationKey prepared.manifest
      ∧ unwrapPredecessorKey P prepared.generationKey prepared.manifest p.header
        = .ok p.generationKey := by
  obtain ⟨hposition, parts, hparts, hencrypted, -⟩ := sealNext_eq_ok.mp hsealed
  have hchained := authentic_chained hchain
  have hentry := hchained.entryOk p List.mem_cons_self
  have hpolicy := chained_policyOk hchained p List.mem_cons_self
  have hsucc := manifestSuccessor_ok (show prepared.manifest.validateSuccessor P p.id p.manifest
    prepared.policy = .ok () from hposition)
  have hid := (publicDevice_ok hkey).2.2.2.2.1
  have hsigner : parts.signerId = d.pub.deviceId := Except.ok.inj (hparts.signer.symm.trans hid)
  have hrootUtf8 : isUtf8 p.manifest.repositoryRoot = true := by
    rw [← hsucc.root]
    exact isUtf8_of_isHex64 (validatePublicHeader_ok hparts.publicHeader).2
  simp only [prepareTransition, except_bind_eq_ok] at hprepared
  obtain ⟨⟨⟩, -, devices, hnext, ⟨policy, policyBytes⟩, hsuccessor, next, htransition, ⟨⟩, hvalid,
    h⟩ := hprepared
  cases h
  simp only [PolicyState.successor, except_bind_eq_ok, orBail_eq_ok, checkedAdd_eq_some]
    at hsuccessor
  obtain ⟨policyGeneration, ⟨-, hpolicyGeneration⟩, hcreate⟩ := hsuccessor
  simp only [transitionManifest, except_bind_eq_ok, orBail_eq_ok] at htransition
  obtain ⟨generation, -, wrap, hwrap, h⟩ := htransition
  cases h
  have hbody : policy.body.generation < 2 ^ 64 := by
    obtain ⟨-, -, -, _, _, -, -, -, rfl⟩ := create_ok hcreate
    exact hpolicyGeneration
  -- the reader of the manifest gets back the policy that was created for it
  have hparse := parse_create hP.json hcreate
    ⟨by simp [FORMAT_VERSION], hentry.root_policy ▸ hrootUtf8, hpolicyGeneration,
      by rintro t ⟨⟩; exact hpolicy.id.isUtf8, by simp,
      fun e he => hdevices devices hnext e ((List.perm_insertionSort _ _).mem_iff.mp he)⟩ rfl rfl
  refine ⟨parts, {
    sealed := hparts
    selected := ?_
    policyOk := policyOk_create hcreate
    encodable := ⟨hsucc.generation_lt, ?_, (policyOk_create hcreate).id.isUtf8, hbody,
      hsucc.totalPackCount_lt, hrefs, fun p hp => (by cases hp), ?_⟩
    positioned := positioned_of_successor hsucc rfl
    authorized := ⟨d, ?_, hkey⟩ }, hencrypted,
    unwrapPredecessorKey_prepared hP hentry hwrap hsucc rfl⟩
  · simp only [selectPolicy, successorPolicy, namedPolicy, except_bind_eq_ok, orBail_eq_ok]
    exact ⟨(policy, some p.policy), ⟨policyBytes, rfl, policy, hparse, (), hvalid, rfl⟩, (),
      hposition, rfl⟩
  · rintro t ⟨⟩
    exact (authentic_id hchain).isUtf8
  · rintro t ⟨⟩
    exact wrapPredecessorKey_utf8 hwrap
  · simp [authorizingDevice, SealParts.content, hsigner, hpolicy.device_eq hd, hadmin]

end

end GitE2EE

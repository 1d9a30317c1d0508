import GitE2EE.Proof.Reference

/-!
# Chains of every length

With the reference libraries an owner can create a repository and push to it as often
as the counters allow, so the theorems about authenticated chains speak of something:
for every number of generations and every number of packs in each of them there is an
authentic chain (`sample_exists`), as long as neither count reaches `2 ^ 64`.
-/

namespace GitE2EE

open Wire Effect

namespace Reference

/-! ## An owner and its genesis -/

/-- The secret of the owner. -/
def owner : Bytes32 := number 1

/-- The root of the repository, which with these libraries is the owner's key. -/
def root : Text := hexEncode owner.val

/-- The key file of the owner. -/
def ownerKey : KeyFile := keyFile root owner

/-- The owner's record in a policy. -/
def ownerRecord : DeviceRecord := ⟨device root owner, text "owner", .owner, none⟩

/-- The draws of one generation. -/
def draws (generation : Nat) : Draws where
  generationKey := number generation
  linkNonce := coins.bodyNonce
  packNonce := ⟨List.replicate 19 0, rfl⟩
  coins := coins

theorem validateRoot_hexEncode (bytes : Bytes32) : validateRoot (hexEncode bytes.val) = .ok () := by
  rw [validateRoot, bailIf_eq_ok, hexEncode_lower, length_hexEncode, bytes.property]
  simp

/-- A device with one secret passes the check of its keys. -/
theorem validatePublicDevice_device (root secret : Bytes32) :
    validatePublicDevice primitives (device (hexEncode root.val) secret) = .ok () := by
  have hid : deviceIdForPublicKeys primitives secret.val secret.val = hexEncode secret.val := by
    rw [deviceIdForPublicKeys, show primitives.sha256 = digest from rfl,
      digest_keys (text "git-remote-e2ee device id v3") rfl]
  simp only [validatePublicDevice, device, decodePublicKey, decodeBase64,
    base64Decode_base64Encode, except_bind_eq_ok, orBail_eq_ok]
  exact ⟨(), validateRoot_hexEncode root, secret, ⟨_, rfl, toBytes32_val _⟩, secret,
    ⟨_, rfl, toBytes32_val _⟩, by simp [hid]⟩

/-- The root is derived from the owner's keys. -/
theorem ownerKey_owns : ownerKey.Owns primitives := by
  refine ⟨device root owner, publicDevice_keyFile root owner, ?_⟩
  have hroot : repositoryRootForPublicKeys primitives owner.val owner.val = root := by
    rw [repositoryRootForPublicKeys, show primitives.sha256 = digest from rfl,
      digest_keys (text "git-remote-e2ee repository root v2") rfl]
    rfl
  simp only [repositoryRootForDevice, device, decodePublicKey, decodeBase64,
    base64Decode_base64Encode, except_bind_eq_ok, orBail_eq_ok]
  exact ⟨owner, ⟨_, rfl, toBytes32_val _⟩, owner, ⟨_, rfl, toBytes32_val _⟩, by rw [hroot]; rfl⟩

/-- Its record survives JSON. -/
theorem record_encodable (secret : Bytes32) {label : Text} (hlabel : isUtf8 label = true)
    (roles : DeviceRoles) : (DeviceRecord.mk (device root secret) label roles none).Encodable :=
  ⟨isUtf8_hexEncode _, isUtf8_hexEncode _, isUtf8_base64Encode _, isUtf8_base64Encode _, hlabel,
    fun _ hg => (by cases hg)⟩

/-- A policy for which envelopes can be built. -/
def Equipped (policy : PolicyState) : Prop :=
  activeReaders policy ≠ []
    ∧ (∃ count, paddedEnvelopeCount (activeReaders policy).length = .ok count)
    ∧ ∀ d ∈ activeReaders policy, ∃ wrapping : Bytes32,
      base64Decode d.pub.wrappingPublicKey = some wrapping.val

/-- Any policy of a few devices that passes its own checks. -/
theorem equipped_create {body : PolicyBody} {signer : KeyFile} {policy : PolicyState}
    {bytes : Bytes} {count : Nat}
    (h : PolicyState.create primitives body signer = .ok (policy, bytes))
    (hcount : paddedEnvelopeCount (activeReaders policy).length = .ok count) :
    Equipped policy := by
  have hok := policyOk_create h
  obtain ⟨hdevices, -, -, id, signature, -, -, -, rfl⟩ := create_ok h
  refine ⟨?_, ⟨count, hcount⟩, fun d hd => ?_⟩
  · obtain ⟨d, hd, hactive⟩ := hok.reader
    exact List.ne_nil_of_mem (List.mem_filter.mpr ⟨hd, hactive⟩)
  · exact (validatePublicDevice_ok
      ((validateDevicesFrom_ok hdevices).2.2 d (List.mem_filter.mp hd).1)).2

/-- The owner alone is a valid list of devices. -/
theorem owner_checked : validateDevices primitives [ownerRecord] = .ok () := by
  simp only [validateDevices, validateDevicesFrom, except_bind_eq_ok, bailIf_eq_ok]
  exact ⟨(), validatePublicDevice_device owner owner, (), List.not_mem_nil, (), rfl, (),
    by simp, (), by simp [ownerRecord, DeviceRoles.owner], (),
    by simp [ownerRecord, DeviceRoles.owner], rfl⟩

/-- The owner can sign any policy that lists it and passes the checks on its devices. -/
theorem create_total {g : Nat} {p : Option Text} {devices : List DeviceRecord}
    (hchecked : validateDevices primitives devices = .ok ())
    (hroots : ∀ d ∈ devices, d.pub.repositoryRoot = root) (howner : ownerRecord ∈ devices) :
    ∃ policy bytes, PolicyState.create primitives
        ⟨FORMAT_VERSION, root, g, p, 1, devices⟩ ownerKey = .ok (policy, bytes)
      ∧ policy.body = ⟨FORMAT_VERSION, root, g, p, 1, devices⟩ := by
  have hpublic : ownerKey.publicDevice primitives = .ok (device root owner) :=
    publicDevice_keyFile root owner
  have hroles : validateActiveRoles ⟨FORMAT_VERSION, root, g, p, 1, devices⟩
      = .ok () := by
    simp only [validateActiveRoles, except_bind_eq_ok, bailIf_eq_ok, not_not]
    exact ⟨(), List.any_eq_true.mpr ⟨ownerRecord, howner, rfl⟩,
      List.any_eq_true.mpr ⟨ownerRecord, howner, rfl⟩⟩
  obtain ⟨signature, hsignature⟩ := signDomain_keyFile root owner POLICY_SIGNATURE_DOMAIN
    (PolicyBody.toJson ⟨FORMAT_VERSION, root, g, p, 1, devices⟩).write
  obtain ⟨policy, bytes, hcreate⟩ : ∃ policy bytes, PolicyState.create primitives
      ⟨FORMAT_VERSION, root, g, p, 1, devices⟩ ownerKey = .ok (policy, bytes) := by
    simp only [PolicyState.create, except_bind_eq_ok]
    refine ⟨_, _, (), hchecked, (), ?_, (), hroles, _, (publicDevice_ok hpublic).2.2.2.2.1,
      signature, hsignature, rfl⟩
    simp only [validateDeviceRoots, bailIf_eq_ok, List.any_eq_true, not_exists, not_and]
    intro d hd
    simp [hroots d hd]
  refine ⟨policy, bytes, hcreate, ?_⟩
  obtain ⟨-, -, -, _, _, -, -, -, rfl⟩ := create_ok hcreate
  rfl

/-- **An owner can create a repository**: a genesis can be prepared and sealed. -/
theorem genesis_sealed : ∃ prepared id encrypted,
    genesisManifest primitives ownerKey (text "owner") (draws 0) = .ok prepared
      ∧ sealNext primitives ownerKey coins none prepared = .ok (id, encrypted)
      ∧ Equipped prepared.policy := by
  have hpublic : ownerKey.publicDevice primitives = .ok (device root owner) :=
    publicDevice_keyFile root owner
  obtain ⟨policy, policyBytes, hcreate, hbody⟩ := create_total (g := 0) (p := none)
    owner_checked (fun d hd => by rw [List.mem_singleton.mp hd]; rfl) (List.mem_singleton_self _)
  have hparse := parse_create lawful.json hcreate
    ⟨by simp [FORMAT_VERSION], isUtf8_hexEncode _, by simp, fun t ht => (by cases ht), by simp,
      fun d hd => by
        rw [List.mem_singleton.mp hd]
        exact record_encodable owner (isUtf8_text _) _⟩ rfl rfl
  have hreaders : activeReaders policy = [ownerRecord] := by rw [activeReaders, hbody]; rfl
  have hpadded : paddedEnvelopeCount (activeReaders policy).length = .ok 4 := by
    rw [hreaders]
    rfl
  have hequipped : Equipped policy := equipped_create hcreate hpadded
  have hmatches : validateManifestPolicy (.genesis root policy policyBytes) policy = .ok () := by
    simp [validateManifestPolicy, Manifest.genesis, hbody]
  have hintroduced : validateIntroducedPolicy primitives (.genesis root policy policyBytes) policy
      true = .ok () := by
    simp only [validateIntroducedPolicy, Manifest.genesis, hparse, except_bind_eq_ok]
    exact ⟨policy, rfl, by simp⟩
  -- the checks of the position, of which a genesis has the simplest
  have hposition : Manifest.validateGenesis primitives (.genesis root policy policyBytes) policy
      = .ok () := by
    simp only [Manifest.validateGenesis, except_bind_eq_ok, bailIf_eq_ok]
    exact ⟨(), hmatches, (), hintroduced, by
      simp [Manifest.genesis, SortedMap.isEmpty, SortedMap.empty]⟩
  obtain ⟨count, hcount⟩ := hequipped.2.1
  obtain ⟨parts, hparts⟩ := seals hmatches hintroduced rfl
    (show root = hexEncode owner.val from rfl) hequipped.1 hcount
    hequipped.2.2 (number 0) root owner
  refine ⟨⟨policy, none, number 0, .genesis root policy policyBytes⟩, _, _, ?_,
    sealNext_eq_ok.mpr ⟨hposition, parts, hparts, rfl, rfl⟩, hequipped⟩
  simp only [genesisManifest, PolicyState.genesis, hpublic, except_bind_eq_ok]
  exact ⟨(policy, policyBytes), ⟨_, rfl, hcreate⟩, rfl⟩

/-! ## Pushes -/

/-- The packs a sample generation introduces, by ordinal. -/
def packId (generation ordinal : Nat) : Text :=
  hexEncode (leBytes 8 generation ++ leBytes 8 ordinal)

def pack (generation ordinal : Nat) : PackDescriptor :=
  ⟨packId generation ordinal, 1, generation, ordinal⟩

def packs (count generation : Nat) : List PackDescriptor :=
  (List.range' 0 count).map (pack generation)

/-- No two packs of a sample share an id. -/
theorem packId_injective {g g' i i' : Nat} (hg : g < 2 ^ 64) (hg' : g' < 2 ^ 64) (hi : i < 2 ^ 64)
    (hi' : i' < 2 ^ 64) (h : packId g i = packId g' i') : g = g' ∧ i = i' := by
  have hbytes := hexEncode_injective h
  obtain ⟨hfirst, hsecond⟩ := List.append_inj hbytes (by simp)
  have hpow : (2 : Nat) ^ 64 = 256 ^ 8 := by decide
  rw [hpow] at hg hg' hi hi'
  exact ⟨leBytes_injective hg hg' hfirst, leBytes_injective hi hi' hsecond⟩

/-- A thousand packs fit a manifest. -/
theorem length_packs_le {count generation : Nat} (hcount : count ≤ 1000)
    (hgen : generation < 2 ^ 64) :
    (Json.arr ((packs count generation).map PackDescriptor.toJson)).write.length ≤ 1024 * 1024 := by
  have hdescriptor : ∀ d ∈ packs count generation, d.toJson.write.length + 1 ≤ 400 := by
    intro d hd
    obtain ⟨i, hi, rfl⟩ := List.mem_map.mp hd
    rw [List.mem_range'_1] at hi
    have hid : (Json.quote (packId generation i)).length = 34 := by
      rw [packId, Json.length_quote_verbatim (verbatim_hexEncode _), length_hexEncode,
        List.length_append, length_leBytes, length_leBytes]
    have hg := length_decimal_u64 hgen
    have ho := length_decimal_u64 (show i < 2 ^ 64 by omega)
    have hkeys : (Json.quote (text "id")).length = 4
        ∧ (Json.quote (text "plaintext_size")).length = 16
        ∧ (Json.quote (text "generation")).length = 12
        ∧ (Json.quote (text "ordinal")).length = 9 ∧ (Json.decimal 1).length = 1 :=
      ⟨rfl, rfl, rfl, rfl, rfl⟩
    obtain ⟨h₁, h₂, h₃, h₄, h₅⟩ := hkeys
    simp only [PackDescriptor.toJson, pack, Json.length_write_obj, List.map_cons, List.map_nil,
      List.sum_cons, List.sum_nil, Json.write_str, Json.write_nat, hid, h₁, h₂, h₃, h₄, h₅]
    omega
  have hsum : (((packs count generation).map PackDescriptor.toJson).map
      fun v => v.write.length + 1).sum ≤ count * 400 := by
    rw [List.map_map]
    refine Nat.le_trans (sum_map_le hdescriptor) ?_
    simp [packs]
  by_cases hnil : (packs count generation).map PackDescriptor.toJson = []
  · rw [hnil]
    decide
  · rw [Json.length_write_arr hnil]
    omega

/-- Numbered from zero, they are the delta that is asked for. -/
theorem validatePackDeltaFrom_packs {generation start count : Nat} {ids : List Text}
    (hgen : generation < 2 ^ 64) (hcount : start + count ≤ 2 ^ 64)
    (hids : ∀ i, start ≤ i → i < 2 ^ 64 → packId generation i ∉ ids) :
    validatePackDeltaFrom generation start ids
      ((List.range' start count).map (pack generation)) = .ok () := by
  induction count generalizing start ids with
  | zero => rfl
  | succ count ih =>
    rw [List.range'_succ, List.map_cons]
    simp only [validatePackDeltaFrom, except_bind_eq_ok, bailIf_eq_ok]
    refine ⟨(), by simp [pack], (), by simp [pack], (), hids start (Nat.le_refl _) (by omega),
      ih (by omega) fun i hi hlt hmem => ?_⟩
    -- the ordinals differ, so the ids do
    rcases List.mem_cons.mp hmem with heq | hmem
    · have := (packId_injective hgen hgen hlt (by omega) heq).2
      omega
    · exact hids i (by omega) hlt hmem

/-- A new generation takes a new id. -/
theorem injOn_cons {objects : List Bytes} {object : Bytes} {n : Nat} (hn : n + 1 < 2 ^ 64)
    (hids : ∀ o ∈ objects, ∃ g ≤ n, objectId primitives o = hexEncode (number g).val)
    (hinj : Set.InjOn (objectId primitives) { o | o ∈ objects })
    (hobject : objectId primitives object = hexEncode (number (n + 1)).val) :
    Set.InjOn (objectId primitives) { o | o ∈ object :: objects } := by
  have hnew : ∀ o ∈ objects, objectId primitives o ≠ objectId primitives object := by
    intro o ho heq
    obtain ⟨g, hg, hid⟩ := hids o ho
    rw [hid, hobject] at heq
    have := number_injective (by omega) hn (Subtype.ext (hexEncode_injective heq))
    omega
  intro a ha b hb hab
  rcases List.mem_cons.mp ha with rfl | ha'
  · rcases List.mem_cons.mp hb with rfl | hb'
    · rfl
    · exact absurd hab.symm (hnew b hb')
  · rcases List.mem_cons.mp hb with rfl | hb'
    · exact absurd hab (hnew a ha')
    · exact hinj ha' hb' hab

/-- A chain of `n + 1` generations and the objects it is made of. -/
structure Sample (n : Nat) (objects : List Bytes) (p : OpenedState) (chain : List OpenedState) :
    Prop where
  authentic : Authentic primitives root (Shelved primitives objects) (p :: chain)
  generation : p.manifest.generation = n
  owner : ownerRecord ∈ p.policy.body.devices
  compact : ∀ d ∈ p.policy.body.devices, d.Compact
  threshold : p.policy.body.adminThreshold = 1
  policyGeneration : p.policy.body.generation ≤ n
  equipped : Equipped p.policy
  repositoryRoot : p.manifest.repositoryRoot = root
  generationKey : p.generationKey = number n
  refs : RefMap.Encodable p.manifest.refs
  ids : ∀ object ∈ objects, ∃ g ≤ n, objectId primitives object = hexEncode (number g).val
  injective : Set.InjOn (objectId primitives) { object | object ∈ objects }
  packs_nodup : (packIds (p :: chain)).Nodup

/-- The objects fit what storage returns at once. -/
def Small (objects : List Bytes) : Prop := ∀ object ∈ objects, object.length ≤ MAX_MANIFEST_BYTES

/-- Its record is small. -/
theorem record_compact (secret : Bytes32) {label : Text} (hlabel : label.length ≤ 64)
    (roles : DeviceRoles) : (DeviceRecord.mk (device root secret) label roles none).Compact := by
  have hkey : (base64Encode secret.val).length = 44 := by
    rw [length_base64Encode, secret.property]
  have hroot : root.length = 64 := by rw [root, length_hexEncode, owner.property]
  have hid : (hexEncode secret.val).length = 64 := by rw [length_hexEncode, secret.property]
  exact ⟨by show root.length ≤ 64; omega, by show (hexEncode secret.val).length ≤ 64; omega,
    by show (base64Encode secret.val).length ≤ 64; omega,
    by show (base64Encode secret.val).length ≤ 64; omega, hlabel, fun g hg => (by cases hg)⟩

/-- A new generation on top of a sample: what its publication leaves to say. -/
theorem sample_publish {n : Nat} {objects : List Bytes} {p : OpenedState}
    {chain : List OpenedState} (h : Sample n objects p chain) (hn : n + 1 < 2 ^ 64)
    {policy : PolicyState} {parentPolicy : Option PolicyState} {manifest : Manifest}
    {parts : SealParts} {c : Coins}
    (hpublishes : Publishes primitives root (p :: chain) c ownerKey policy parentPolicy
      (number (n + 1)) manifest parts)
    (hlink : unwrapPredecessorKey primitives (number (n + 1)) manifest p.header
      = .ok p.generationKey)
    (hgeneration : manifest.generation = n + 1) (howner : ownerRecord ∈ policy.body.devices)
    (hcompact : ∀ d ∈ policy.body.devices, d.Compact) (hthreshold : policy.body.adminThreshold = 1)
    (hpolicyGeneration : policy.body.generation ≤ n + 1) (hequipped : Equipped policy)
    (hroot : manifest.repositoryRoot = root)
    (hpacks : (manifest.newPacks.map PackDescriptor.id).Nodup)
    (hfresh : ∀ pack ∈ manifest.newPacks, pack.id ∉ packIds (p :: chain)) :
    ∃ s, Sample (n + 1) (parts.encrypted primitives (number (n + 1)) manifest :: objects) s
        (p :: chain) ∧ s.manifest = manifest ∧ s.policy = policy := by
  have hauthentic := authentic_sealed lawful h.authentic hpublishes hlink
  have hid := objectId_encrypted (hpublishes.sealed.framed hpublishes.encodable.generation
    hpublishes.encodable.previous)
  rw [hgeneration] at hid
  -- the new entry, by the fields the sample asks for
  generalize hs : parts.state primitives policy (number (n + 1)) manifest = s at hauthentic
  have hsm : s.manifest = manifest := by rw [← hs]; rfl
  have hsp : s.policy = policy := by rw [← hs]; rfl
  have hsk : s.generationKey = number (n + 1) := by rw [← hs]; rfl
  refine ⟨s, {
    authentic := hauthentic
    generation := by rw [hsm, hgeneration]
    owner := by rw [hsp]; exact howner
    compact := by rw [hsp]; exact hcompact
    threshold := by rw [hsp]; exact hthreshold
    policyGeneration := by rw [hsp]; exact hpolicyGeneration
    equipped := by rw [hsp]; exact hequipped
    repositoryRoot := by rw [hsm, hroot]
    generationKey := hsk
    refs := by rw [hsm]; exact hpublishes.encodable.refs
    ids := fun object hobject => ?_
    injective := injOn_cons hn h.ids h.injective hid
    packs_nodup := ?_ }, hsm, hsp⟩
  · rcases List.mem_cons.mp hobject with rfl | hobject
    · exact ⟨n + 1, Nat.le_refl _, hid⟩
    · obtain ⟨g, hg, hgid⟩ := h.ids object hobject
      exact ⟨g, by omega, hgid⟩
  · rw [packIds_cons s, hsm]
    refine List.nodup_append.mpr ⟨hpacks, h.packs_nodup, fun a ha b hb hab => ?_⟩
    obtain ⟨pack, hpack, rfl⟩ := List.mem_map.mp ha
    exact hfresh pack hpack (hab ▸ hb)

/-- The key of the predecessor can always be wrapped. -/
theorem wrapPredecessorKey_total (nonce : Nonce) (generationKey previousKey : SecretKey)
    (generation : Nat) (previousId : Text) : ∃ wrap, wrapPredecessorKey primitives nonce
      generationKey previousKey root generation previousId = .ok wrap := by
  obtain ⟨wrapped, hwrapped⟩ := sealWithKey_total
    (subkey generationKey generation .predecessorLink 0) nonce previousKey.val
    (predecessorLinkAad root generation previousId)
  simp only [wrapPredecessorKey, except_bind_eq_ok]
  exact ⟨_, _, deriveSubkey_eq _ _ _ _, wrapped, hwrapped, rfl⟩

/-- The manifest of a push, in its place. -/
theorem refs_sealed {objects : List Bytes} {p : OpenedState} {chain : List OpenedState}
    (hchain : Authentic primitives root (Shelved primitives objects) (p :: chain))
    (hequipped : Equipped p.policy) (hroot : p.manifest.repositoryRoot = root)
    (newPacks : List PackDescriptor) (nextRefs : RefMap) (secret : Bytes32)
    (hgen : p.manifest.generation + 1 < 2 ^ 64)
    (htotal : p.manifest.totalPackCount + newPacks.length < 2 ^ 64)
    (hdelta : validatePackDeltaFrom (p.manifest.generation + 1) 0 [] newPacks = .ok ()) :
    ∃ prepared id encrypted,
      prepareRefs primitives (draws (p.manifest.generation + 1)) p (p.manifest.generation + 1)
          newPacks nextRefs = .ok prepared
        ∧ sealNext primitives (keyFile root secret) coins (some p) prepared
          = .ok (id, encrypted) := by
  have hentry := (authentic_chained hchain).entryOk p List.mem_cons_self
  obtain ⟨wrap, hwrap⟩ := wrapPredecessorKey_total (draws (p.manifest.generation + 1)).linkNonce
    (draws (p.manifest.generation + 1)).generationKey p.generationKey (p.manifest.generation + 1)
    p.id
  obtain ⟨prepared, hprepared⟩ : ∃ prepared, prepareRefs primitives
      (draws (p.manifest.generation + 1)) p (p.manifest.generation + 1) newPacks nextRefs
        = .ok prepared := by
    simp only [prepareRefs, except_bind_eq_ok, hroot]
    exact ⟨_, wrap, hwrap, rfl⟩
  refine ⟨prepared, ?_⟩
  have hsame := hprepared
  simp only [prepareRefs, except_bind_eq_ok, hroot] at hsame
  obtain ⟨wrap, -, h⟩ := hsame
  cases h
  simp only [hprepared, true_and]
  -- a push keeps the policy of its parent
  have hmatches : validateManifestPolicy
      ⟨p.manifest.formatVersion, root, p.manifest.generation + 1, some p.id, p.policy.id,
        p.policy.body.generation, .writer,
        (p.manifest.totalPackCount + newPacks.length) % 2 ^ 64, nextRefs, newPacks, some wrap, none⟩
      p.policy = .ok () := by
    have := hentry.root_policy
    rw [hroot] at this
    simp [validateManifestPolicy, hentry.formatVersion, this]
  obtain ⟨count, hcount⟩ := hequipped.2.1
  obtain ⟨parts, hparts⟩ := seals hmatches rfl hdelta (show root = hexEncode owner.val from rfl)
    hequipped.1 hcount
    hequipped.2.2 (draws (p.manifest.generation + 1)).generationKey root secret
  refine ⟨_, _, sealNext_eq_ok.mpr ⟨?_, parts, hparts, rfl, rfl⟩⟩
  simp only [validatePosition, Manifest.validateSuccessor, except_bind_eq_ok, bailIf_eq_ok,
    orBail_eq_ok, checkedAdd_eq_some]
  refine ⟨(), hmatches, (), by simp [hroot], (), ?_, (), by simp, (), by simp, (), hdelta, _,
    ⟨rfl, htotal⟩, (), ?_, (), rfl, ?_⟩
  · simp [-Nat.reducePow, checkedAdd, hgen]
  · simp [-Nat.reducePow, Nat.mod_eq_of_lt htotal]
  · simp [hentry.policy_id, hentry.policy_generation]

/-- **The genesis of the owner**, sealed, checked and fit to be stored. -/
theorem genesis_published : ∃ prepared object p,
    genesisManifest primitives ownerKey (text "owner") (draws 0) = .ok prepared
      ∧ sealNext primitives ownerKey coins none prepared = .ok (p.id, object)
      ∧ selfCheck primitives none prepared object = .ok () ∧ p.manifest = prepared.manifest
      ∧ Sample 0 [object] p [] ∧ Small [object] ∧ p.policy.body.devices = [ownerRecord]
      ∧ p.manifest.refs = .empty ∧ p.manifest.totalPackCount = 0 ∧ packIds [p] = [] := by
  obtain ⟨prepared, id, encrypted, hprepared, hsealed, hequipped⟩ := genesis_sealed
  obtain ⟨parts, hpublishes, rfl⟩ := publishes_genesis lawful hprepared hsealed ownerKey_owns
    (isUtf8_text _)
  obtain ⟨-, -, -, -, hsealedId⟩ := sealNext_eq_ok.mp hsealed
  rw [hsealedId] at hsealed
  obtain ⟨device', policy, policyBytes, hpublic, hcreate, heq⟩ := genesisManifest_ok hprepared
  obtain rfl : device root owner = device' :=
    Except.ok.inj ((publicDevice_keyFile root owner).symm.trans hpublic)
  have hcheck : selfCheck primitives none prepared
      (parts.encrypted primitives prepared.generationKey prepared.manifest) = .ok () :=
    hpublishes.selfCheck lawful (by rw [heq]) fun p hp => (by cases hp)
  have hmanifest : prepared.manifest = .genesis root policy policyBytes := by rw [heq]; rfl
  have hpolicy : prepared.policy = policy := by rw [heq]
  have hkey : prepared.generationKey = number 0 := by rw [heq]; rfl
  have hbody : policy.body = ⟨FORMAT_VERSION, root, 0, none, 1, [ownerRecord]⟩ := by
    obtain ⟨-, -, -, _, _, -, -, -, rfl⟩ := create_ok hcreate
    rfl
  have hcompact : ∀ d ∈ [ownerRecord], d.Compact := by
    intro d hd
    rw [List.mem_singleton.mp hd]
    exact record_compact owner (by decide) _
  have hbytes : policyBytes.length ≤ 4936 := by
    refine length_create_le lawful hcreate rfl ?_ (by simp) (fun t ht => (by cases ht)) rfl hcompact
    show root.length ≤ 64
    rw [root, length_hexEncode, owner.property]
  rw [hpolicy] at hequipped
  have hpublished : Publishes primitives root [] coins ownerKey policy none (number 0)
      (.genesis root policy policyBytes) parts := by
    rw [← hmanifest, ← hpolicy, ← hkey]
    exact hpublishes
  clear hpublishes
  rw [hmanifest, hkey] at hsealed hcheck
  have hsmall := hpublished.length_le lawful (fun t ht => (by cases ht)) (length_bodyJson_le
    (show (refsToJson .empty).write.length ≤ 1024 * 1024 by decide)
    (show (Json.arr []).write.length ≤ 1024 * 1024 by decide) (fun t ht => (by cases ht))
    (by rintro bytes ⟨⟩; omega))
  have hauthentic := authentic_genesis lawful hpublished
  have hid := objectId_encrypted (hpublished.sealed.framed hpublished.encodable.generation
    hpublished.encodable.previous)
  -- from here on only the fields of the entry and the id of the object matter
  generalize hs : parts.state primitives policy (number 0)
    (.genesis root policy policyBytes) = s at hauthentic
  have hsm : s.manifest = .genesis root policy policyBytes := by rw [← hs]; rfl
  have hsp : s.policy = policy := by rw [← hs]; rfl
  have hsk : s.generationKey = number 0 := by rw [← hs]; rfl
  have hsid : s.id = objectId primitives (parts.encrypted primitives (number 0)
    (.genesis root policy policyBytes)) := by rw [← hs, SealParts.state_id]
  generalize parts.encrypted primitives (number 0)
    (.genesis root policy policyBytes) = object at hauthentic hid hsmall hsealed hcheck hsid
  have hnone : packIds [s] = [] := by simp [packIds, hsm, Manifest.genesis]
  rw [← hsid] at hsealed
  refine ⟨prepared, object, s, hprepared, hsealed, hcheck, by rw [hsm, hmanifest], {
    authentic := hauthentic
    generation := by rw [hsm]; rfl
    owner := by rw [hsp, hbody]; exact List.mem_singleton_self _
    compact := by rw [hsp, hbody]; exact hcompact
    threshold := by rw [hsp, hbody]
    policyGeneration := by rw [hsp, hbody]
    equipped := by rw [hsp]; exact hequipped
    repositoryRoot := by rw [hsm]; rfl
    generationKey := hsk
    refs := by rw [hsm]; exact fun e he => (by cases he)
    ids := fun other hother => ?_
    injective := fun a ha b hb _ => ?_
    packs_nodup := by rw [hnone]; exact List.nodup_nil }, ?_, by rw [hsp, hbody], by rw [hsm]; rfl,
    by rw [hsm]; rfl, hnone⟩
  · rw [List.mem_singleton.mp hother]
    exact ⟨0, Nat.le_refl _, hid⟩
  · rw [List.mem_singleton.mp ha, List.mem_singleton.mp hb]
  · intro other hother
    rw [List.mem_singleton.mp hother]
    exact hsmall

/-- The genesis as a sample. -/
theorem sample_genesis : ∃ object p, Sample 0 [object] p [] ∧ Small [object]
    ∧ p.policy.body.devices = [ownerRecord] ∧ p.manifest.refs = .empty
    ∧ p.manifest.totalPackCount = 0 ∧ packIds [p] = [] := by
  obtain ⟨-, object, p, -, -, -, -, h⟩ := genesis_published
  exact ⟨object, p, h⟩

/-- The manifest of a push on top of a sample, sealed and fit to be stored. -/
theorem refs_published {n : Nat} {objects : List Bytes} {p : OpenedState}
    {chain : List OpenedState} (h : Sample n objects p chain) (hn : n + 1 < 2 ^ 64)
    (newPacks : List PackDescriptor) (nextRefs : RefMap)
    (htotal : p.manifest.totalPackCount + newPacks.length < 2 ^ 64)
    (hdelta : validatePackDeltaFrom (n + 1) 0 [] newPacks = .ok ())
    (hencodable : ∀ pack ∈ newPacks, pack.Encodable) (hrefs : RefMap.Encodable nextRefs) :
    ∃ prepared parts, prepareRefs primitives (draws (n + 1)) p (n + 1) newPacks nextRefs
        = .ok prepared
      ∧ sealNext primitives ownerKey coins (some p) prepared = .ok (objectId primitives
        (parts.encrypted primitives prepared.generationKey prepared.manifest),
        parts.encrypted primitives prepared.generationKey prepared.manifest)
      ∧ Publishes primitives root (p :: chain) coins ownerKey prepared.policy none
        prepared.generationKey prepared.manifest parts
      ∧ unwrapPredecessorKey primitives prepared.generationKey prepared.manifest p.header
        = .ok p.generationKey
      ∧ ((refsToJson nextRefs).write.length ≤ 1024 * 1024 →
        (Json.arr (newPacks.map PackDescriptor.toJson)).write.length ≤ 1024 * 1024 →
        (parts.encrypted primitives prepared.generationKey prepared.manifest).length
          ≤ MAX_MANIFEST_BYTES) := by
  obtain ⟨prepared, id, encrypted, hprepared, hsealed⟩ := refs_sealed h.authentic h.equipped
    h.repositoryRoot newPacks nextRefs owner (by rw [h.generation]; exact hn) htotal
    (by rw [h.generation]; exact hdelta)
  rw [h.generation] at hprepared
  obtain ⟨parts, hpublishes, rfl, hlink⟩ := publishes_refs lawful h.authentic hprepared hsealed
    h.owner rfl (publicDevice_keyFile root owner) hrefs hencodable
  obtain ⟨-, -, -, -, hpacks, hnext, -, hprevious, hintroduced, wrap, hwrap, hwrapped⟩ :=
    prepareRefs_ok hprepared
  obtain ⟨-, -, -, -, hid⟩ := sealNext_eq_ok.mp hsealed
  rw [hid] at hsealed
  refine ⟨prepared, parts, hprepared, hsealed, hpublishes, hlink, fun hrefsSmall hpacksSmall => ?_⟩
  refine hpublishes.length_le lawful (fun t ht => ?_) (length_bodyJson_le (by rw [hnext]; exact
    hrefsSmall) (by rw [hpacks]; exact hpacksSmall) (fun t ht => ?_) fun bytes hbytes => ?_)
  · rw [hprevious] at ht
    cases ht
    exact authentic_id h.authentic
  · rw [hwrap] at ht
    cases ht
    rw [length_wrapPredecessorKey lawful hwrapped]
    decide
  · rw [hintroduced] at hbytes
    cases hbytes

/-- **A push on top of a sample.** -/
theorem sample_refs {n : Nat} {objects : List Bytes} {p : OpenedState}
    {chain : List OpenedState} (h : Sample n objects p chain) (hn : n + 1 < 2 ^ 64)
    (newPacks : List PackDescriptor) (nextRefs : RefMap)
    (htotal : p.manifest.totalPackCount + newPacks.length < 2 ^ 64)
    (hdelta : validatePackDeltaFrom (n + 1) 0 [] newPacks = .ok ())
    (hencodable : ∀ pack ∈ newPacks, pack.Encodable) (hrefs : RefMap.Encodable nextRefs)
    (hnodup : (newPacks.map PackDescriptor.id).Nodup)
    (hfresh : ∀ pack ∈ newPacks, pack.id ∉ packIds (p :: chain)) :
    ∃ object s, Sample (n + 1) (object :: objects) s (p :: chain)
      ∧ s.manifest.refs = nextRefs ∧ s.manifest.newPacks = newPacks ∧ s.policy = p.policy
      ∧ s.manifest.totalPackCount = p.manifest.totalPackCount + newPacks.length
      ∧ ((refsToJson nextRefs).write.length ≤ 1024 * 1024 →
        (Json.arr (newPacks.map PackDescriptor.toJson)).write.length ≤ 1024 * 1024 →
        object.length ≤ MAX_MANIFEST_BYTES) := by
  obtain ⟨prepared, parts, hprepared, -, hpublishes, hlink, hsmall⟩ := refs_published h hn newPacks
    nextRefs htotal hdelta hencodable hrefs
  obtain ⟨hpolicy, hkey, hroot, hgen, hpacks, hnext, hcount, -⟩ := prepareRefs_ok hprepared
  rw [Nat.mod_eq_of_lt htotal] at hcount
  have hkey' : prepared.generationKey = number (n + 1) := hkey
  rw [hkey', hpolicy] at hpublishes
  rw [hkey'] at hlink hsmall
  obtain ⟨s, hs, hsm, hsp⟩ := sample_publish h hn hpublishes hlink hgen h.owner h.compact
    h.threshold (Nat.le_succ_of_le h.policyGeneration) h.equipped (hroot.trans h.repositoryRoot)
    (by rw [hpacks]; exact hnodup) (by rw [hpacks]; exact hfresh)
  exact ⟨_, s, hs, by rw [hsm, hnext], by rw [hsm, hpacks], hsp, by rw [hsm, hcount], hsmall⟩

/-- **There are chains of every length**, with any number of packs in each push. -/
theorem sample_exists (perEntry n : Nat) (hn : n < 2 ^ 64) (hcount : perEntry * n < 2 ^ 64) :
    ∃ objects p chain, Sample n objects p chain ∧ chain.length = n
      ∧ p.manifest.totalPackCount = perEntry * n ∧ (perEntry ≤ 1000 → Small objects)
      ∧ ∀ id ∈ packIds (p :: chain), ∃ g ≤ n, ∃ i < perEntry, id = packId g i := by
  induction n with
  | zero =>
    obtain ⟨object, p, h, hsmall, -, -, htotal, hnone⟩ := sample_genesis
    exact ⟨[object], p, [], h, rfl, htotal, fun _ => hsmall,
      by rw [hnone]; exact fun id hid => (by cases hid)⟩
  -- one push more, with packs that no generation before it had
  | succ n ih =>
    obtain ⟨objects, p, chain, h, hlength, htotal, hsmall, hids⟩ := ih (by omega)
      (Nat.lt_of_le_of_lt (Nat.mul_le_mul_left _ (Nat.le_succ n)) hcount)
    have hper : perEntry < 2 ^ 64 :=
      Nat.lt_of_le_of_lt (Nat.le_mul_of_pos_right _ (Nat.succ_pos n)) hcount
    have hpacks : (packs perEntry (n + 1)).length = perEntry := by simp [packs]
    have hmap : (packs perEntry (n + 1)).map PackDescriptor.id
        = (List.range' 0 perEntry).map (packId (n + 1)) := by
      rw [packs, List.map_map]
      rfl
    obtain ⟨object, s, hs, -, hnew, -, hstotal, hobject⟩ :=
      sample_refs h hn (packs perEntry (n + 1)) .empty
      (by rw [htotal, hpacks, ← Nat.mul_succ]; exact hcount)
      (validatePackDeltaFrom_packs hn (by omega) fun i _ _ => List.not_mem_nil)
      (by
        intro descriptor hmem
        obtain ⟨i, hi, rfl⟩ := List.mem_map.mp hmem
        rw [List.mem_range'_1] at hi
        exact ⟨isUtf8_hexEncode _, by simp [pack], hn, by simp only [pack]; omega⟩)
      (fun e he => (by cases he))
      (by
        rw [hmap]
        refine List.Nodup.map_on (fun i hi j hj hij => ?_) List.nodup_range'
        rw [List.mem_range'_1] at hi hj
        exact (packId_injective hn hn (by omega) (by omega) hij).2)
      (by
        intro descriptor hmem hold
        obtain ⟨i, hi, rfl⟩ := List.mem_map.mp hmem
        rw [List.mem_range'_1] at hi
        obtain ⟨g, hg, j, hj, heq⟩ := hids _ hold
        have := (packId_injective hn (by omega) (by omega) (by omega) heq).1
        omega)
    refine ⟨object :: objects, s, p :: chain, hs, by rw [List.length_cons, hlength],
      by rw [hstotal, htotal, hpacks, Nat.mul_succ], fun hle o ho => ?_, fun id hid => ?_⟩
    · rcases List.mem_cons.mp ho with rfl | ho
      · exact hobject (by decide) (length_packs_le hle hn)
      · exact hsmall hle o ho
    rw [packIds_cons s, hnew, hmap] at hid
    rcases List.mem_append.mp hid with hfresh | hold
    · obtain ⟨i, hi, rfl⟩ := List.mem_map.mp hfresh
      rw [List.mem_range'_1] at hi
      exact ⟨n + 1, Nat.le_refl _, i, by omega, rfl⟩
    · obtain ⟨g, hg, i, hi, rfl⟩ := hids id hold
      exact ⟨g, by omega, i, hi, rfl⟩

/-! ## Policy changes -/

/-- A device list that may follow a policy and passes the checks of a policy by itself. -/
structure Follows (policy : PolicyState) (devices : List DeviceRecord) : Prop
    extends Continues policy devices where
  checked : validateDevices primitives devices = .ok ()
  roots : ∀ d ∈ devices, d.pub.repositoryRoot = root
  owner : ownerRecord ∈ devices

/-- The policy with such a device list can be created, and succeeds its parent. -/
theorem successor_total {policy : PolicyState} {devices : List DeviceRecord}
    (h : Follows policy devices) (hpolicy : PolicyOk policy)
    (hroot : policy.body.repositoryRoot = root) (howner : ownerRecord ∈ policy.body.devices)
    (hthreshold : policy.body.adminThreshold = 1) (hgen : policy.body.generation + 1 < 2 ^ 64) :
    ∃ next bytes, PolicyState.create primitives ⟨FORMAT_VERSION, root,
        policy.body.generation + 1, some policy.id, 1, devices⟩ ownerKey = .ok (next, bytes)
      ∧ next.validateSuccessor primitives policy = .ok () := by
  obtain ⟨next, bytes, hcreate, -⟩ := create_total
    (g := policy.body.generation + 1) (p := some policy.id) h.checked h.roots h.owner
  refine ⟨next, bytes, hcreate, ?_⟩
  rw [← hroot] at hcreate
  exact validateSuccessor_create lawful h.toContinues hpolicy hthreshold hgen howner rfl
    (publicDevice_keyFile root owner) hcreate

/-- The manifest of a policy change, in its place. -/
theorem transition_sealed {n : Nat} {objects : List Bytes} {p : OpenedState}
    {chain : List OpenedState} (h : Sample n objects p chain) (hn : n + 1 < 2 ^ 64)
    {nextDevices : OpenedState → Result (List DeviceRecord)} {devices : List DeviceRecord}
    (hnext : nextDevices p = .ok devices) (hfollows : Follows p.policy (listed devices))
    (hencodable : ∀ d ∈ devices, d.Encodable) (htotal : p.manifest.totalPackCount < 2 ^ 64)
    {count : Nat} (hcount : paddedEnvelopeCount
      ((listed devices).filter DeviceRecord.activeReader).length
      = .ok count) :
    ∃ prepared id encrypted,
      prepareTransition primitives ownerKey nextDevices (draws (n + 1)) p = .ok prepared
        ∧ sealNext primitives ownerKey coins (some p) prepared = .ok (id, encrypted)
        ∧ Equipped prepared.policy := by
  have hchained := authentic_chained h.authentic
  have hentry := hchained.entryOk p List.mem_cons_self
  have hpolicy := chained_policyOk hchained p List.mem_cons_self
  have hroot : p.policy.body.repositoryRoot = root := by
    rw [← hentry.root_policy, h.repositoryRoot]
  have hgen : p.policy.body.generation + 1 < 2 ^ 64 := by
    have := h.policyGeneration
    omega
  obtain ⟨next, bytes, hcreate, hsuccessor⟩ := successor_total hfollows hpolicy hroot h.owner
    h.threshold hgen
  have hbody : next.body = ⟨FORMAT_VERSION, root, p.policy.body.generation + 1, some p.policy.id, 1,
      listed devices⟩ := by
    obtain ⟨-, -, -, _, _, -, -, -, rfl⟩ := create_ok hcreate
    rfl
  have hparse := parse_create lawful.json hcreate
    ⟨by simp [FORMAT_VERSION], isUtf8_hexEncode _, hgen,
      by rintro t ⟨⟩; exact hpolicy.id.isUtf8, by simp,
      fun d hd => hencodable d (mem_listed.mp hd)⟩ rfl rfl
  have hreaders : activeReaders next = (listed devices).filter DeviceRecord.activeReader := by
    rw [activeReaders, hbody]
  rw [← hreaders] at hcount
  have hequipped : Equipped next := equipped_create hcreate hcount
  obtain ⟨wrap, hwrap⟩ := wrapPredecessorKey_total (draws (n + 1)).linkNonce
    (draws (n + 1)).generationKey p.generationKey (n + 1) p.id
  obtain ⟨manifest, hmanifest⟩ : ∃ manifest : Manifest, manifest
      = ⟨p.manifest.formatVersion, root, n + 1, some p.id, next.id,
          next.body.generation, .policyTransition, p.manifest.totalPackCount, p.manifest.refs, [],
          some wrap, some bytes⟩ := ⟨_, rfl⟩
  -- the owner is an administrator, so the change can be prepared
  have hprepared : prepareTransition primitives ownerKey nextDevices (draws (n + 1)) p
      = .ok ⟨next, some p.policy, (draws (n + 1)).generationKey, manifest⟩ := by
    simp only [prepareTransition, except_bind_eq_ok]
    refine ⟨(), ?_, devices, hnext, (next, bytes), ?_, manifest, ?_, (), hsuccessor, rfl⟩
    · have hid := (publicDevice_ok (publicDevice_keyFile root owner)).2.2.2.2.1
      simp only [requireAdmin, except_bind_eq_ok, bailIf_eq_ok]
      refine ⟨_, hid, ?_⟩
      have hdevice : p.policy.device (device root owner).deviceId = some ownerRecord :=
        hpolicy.device_eq h.owner
      rw [PolicyState.isActiveAdmin, hdevice]
      exact Bool.noConfusion
    · simp only [PolicyState.successor, except_bind_eq_ok, orBail_eq_ok, checkedAdd_eq_some, hroot]
      exact ⟨_, ⟨rfl, hgen⟩, hcreate⟩
    · simp only [transitionManifest, except_bind_eq_ok, orBail_eq_ok, checkedAdd_eq_some,
        h.generation, h.repositoryRoot]
      exact ⟨n + 1, ⟨rfl, hn⟩, wrap, hwrap, by rw [hmanifest]; rfl⟩
  have hmatches : validateManifestPolicy manifest next = .ok () := by
    simp [validateManifestPolicy, hmanifest, hentry.formatVersion, hbody]
  have hintroduced : validateIntroducedPolicy primitives manifest next true = .ok () := by
    simp only [validateIntroducedPolicy, hmanifest, hparse, except_bind_eq_ok]
    exact ⟨next, rfl, by simp⟩
  obtain ⟨parts, hparts⟩ := seals hmatches (by rw [hmanifest] at hintroduced ⊢; exact hintroduced)
    (by rw [hmanifest]; rfl) (by rw [hmanifest]; rfl) hequipped.1 hcount hequipped.2.2
    (draws (n + 1)).generationKey root owner
  refine ⟨_, _, _, hprepared, sealNext_eq_ok.mpr ⟨?_, parts, hparts, rfl, rfl⟩, hequipped⟩
  simp only [validatePosition, Manifest.validateSuccessor, except_bind_eq_ok, bailIf_eq_ok,
    orBail_eq_ok, checkedAdd_eq_some]
  refine ⟨(), hmatches, (), by simp [hmanifest, h.repositoryRoot], (), ?_, (), by simp [hmanifest],
    (), by simp [hmanifest], (), by rw [hmanifest]; rfl, p.manifest.totalPackCount,
    ⟨by simp [hmanifest], htotal⟩, (), by simp [hmanifest], ?_⟩
  · simp [-Nat.reducePow, hmanifest, h.generation, checkedAdd, hn]
  · rw [hmanifest] at hintroduced ⊢
    simp only [except_bind_eq_ok, bailIf_eq_ok]
    refine ⟨(), hintroduced, (), ?_, by simp⟩
    simp [-Nat.reducePow, hbody, hentry.policy_id, hentry.policy_generation, checkedAdd, hgen]

/-- **A policy change on top of a sample.** -/
theorem sample_transition {n : Nat} {objects : List Bytes} {p : OpenedState}
    {chain : List OpenedState} (h : Sample n objects p chain) (hn : n + 1 < 2 ^ 64)
    {nextDevices : OpenedState → Result (List DeviceRecord)} {devices : List DeviceRecord}
    (hnext : nextDevices p = .ok devices) (hfollows : Follows p.policy (listed devices))
    (hencodable : ∀ d ∈ devices, d.Encodable) (hcompact : ∀ d ∈ devices, d.Compact)
    (hlength : devices.length ≤ 300) (htotal : p.manifest.totalPackCount < 2 ^ 64)
    {count : Nat} (hcount : paddedEnvelopeCount
      ((listed devices).filter DeviceRecord.activeReader).length = .ok count)
    (hrefs : (refsToJson p.manifest.refs).write.length ≤ 1024 * 1024) :
    ∃ object s, Sample (n + 1) (object :: objects) s (p :: chain)
      ∧ s.policy.body.devices = listed devices ∧ s.manifest.refs = p.manifest.refs
      ∧ s.manifest.newPacks = [] ∧ s.manifest.totalPackCount = p.manifest.totalPackCount
      ∧ object.length ≤ MAX_MANIFEST_BYTES := by
  obtain ⟨prepared, id, encrypted, hprepared, hsealed, hequipped⟩ := transition_sealed h hn hnext
    hfollows hencodable htotal hcount
  obtain ⟨parts, hpublishes, rfl, hlink⟩ := publishes_transition lawful h.authentic
    hprepared hsealed
    h.owner rfl (publicDevice_keyFile root owner) h.refs (fun ds hds => by
      rw [hnext] at hds
      cases hds
      exact hencodable)
  obtain ⟨devices', bytes, wrap, hnext', hcreate, hgen, hwrap, -, hkey, hmanifest⟩ :=
    prepareTransition_ok hprepared
  rw [hnext] at hnext'
  cases hnext'
  have hentry := (authentic_chained h.authentic).entryOk p List.mem_cons_self
  have hpolicy := chained_policyOk (authentic_chained h.authentic) p List.mem_cons_self
  have hroot : p.policy.body.repositoryRoot = root := by
    rw [← hentry.root_policy, h.repositoryRoot]
  have hbody : prepared.policy.body = ⟨FORMAT_VERSION, root, p.policy.body.generation + 1,
      some p.policy.id, 1, listed devices⟩ := by
    obtain ⟨-, -, -, _, _, -, -, -, hnew⟩ := create_ok hcreate
    rw [hnew, hroot]
  have hcompact' : ∀ d ∈ listed devices, d.Compact := fun d hd => hcompact d (mem_listed.mp hd)
  -- 300 devices take less than a megabyte
  have hbytes : bytes.length ≤ 1024 * 1024 := by
    have hle := length_create_le lawful hcreate rfl (by
        show p.policy.body.repositoryRoot.length ≤ 64
        rw [hroot, root, length_hexEncode, owner.property]) hgen (fun t ht => by
        cases ht
        obtain ⟨digest, hdigest⟩ := hpolicy.id
        rw [hdigest, length_hexEncode, digest.property]) rfl hcompact'
    have hsame : (listed devices).length = devices.length := List.length_insertionSort _ _
    rw [hsame] at hle
    omega
  have hkey' : prepared.generationKey = number (n + 1) := hkey
  rw [hkey'] at hpublishes hlink
  have hmanifestRefs : prepared.manifest.refs = p.manifest.refs := by rw [hmanifest]
  have hmanifestPacks : prepared.manifest.newPacks = [] := by rw [hmanifest]
  have hsmall : (parts.encrypted primitives (number (n + 1)) prepared.manifest).length
      ≤ MAX_MANIFEST_BYTES := by
    refine hpublishes.length_le lawful (fun t ht => ?_) (length_bodyJson_le
      (by rw [hmanifestRefs]; exact hrefs) (by rw [hmanifestPacks]; decide) (fun t ht => ?_)
      fun b hb => ?_)
    · rw [hmanifest] at ht
      cases ht
      exact authentic_id h.authentic
    · rw [hmanifest] at ht
      cases ht
      rw [length_wrapPredecessorKey lawful hwrap]
      decide
    · rw [hmanifest] at hb
      cases hb
      exact hbytes
  obtain ⟨s, hs, hsm, hsp⟩ := sample_publish h hn hpublishes hlink
    (by rw [hmanifest, ← h.generation]) (by rw [hbody]; exact hfollows.owner)
    (by rw [hbody]; exact hcompact') (by rw [hbody])
    (by rw [hbody]; exact Nat.succ_le_succ h.policyGeneration) hequipped
    (by rw [hmanifest]; exact h.repositoryRoot) (by rw [hmanifest]; exact List.nodup_nil)
    (by rw [hmanifest]; exact fun pack hpack => (by cases hpack))
  exact ⟨_, s, hs, by rw [hsp, hbody], by rw [hsm, hmanifest], by rw [hsm, hmanifest],
    by rw [hsm, hmanifest], hsmall⟩

/-! ## A second device -/

/-- The secret of another device. -/
def member : Bytes32 := number 2

def memberKey : KeyFile := keyFile root member

/-- A device that may read and write, but not change the policy. -/
def memberRecord : DeviceRecord := ⟨device root member, text "laptop", ⟨true, true, false⟩, none⟩

/-- The two devices have different ids. -/
theorem memberId_ne : memberRecord.pub.deviceId ≠ ownerRecord.pub.deviceId := by
  intro h
  have hsame : member = owner := Subtype.ext (hexEncode_injective h)
  have := number_injective (by decide) (by decide) hsame
  omega

/-- The owner comes first in the order of ids. -/
theorem listed_team : listed [ownerRecord, memberRecord] = [ownerRecord, memberRecord] := by
  have hle : lexLe ownerRecord.pub.deviceId memberRecord.pub.deviceId = true := by
    show lexLe (hexEncode (number 1).val) (hexEncode (number 2).val) = true
    decide
  exact List.Pairwise.insertionSort_eq (by simp [hle])

/-- The two are a valid list of devices. -/
theorem team_checked : validateDevices primitives [ownerRecord, memberRecord] = .ok () := by
  have howner : validatePublicDevice primitives ownerRecord.pub = .ok () :=
    validatePublicDevice_device owner owner
  have hmember : validatePublicDevice primitives memberRecord.pub = .ok () :=
    validatePublicDevice_device owner member
  have hownerLabel : validateDeviceLabel ownerRecord.label = .ok () := rfl
  have hmemberLabel : validateDeviceLabel memberRecord.label = .ok () := rfl
  have hlabels : ¬ (memberRecord.active = true ∧ memberRecord.label ∈ [ownerRecord.label]) := by
    rintro ⟨-, hmem⟩
    revert hmem
    decide
  have hids : memberRecord.pub.deviceId ∉ [ownerRecord.pub.deviceId] := by
    rw [List.mem_singleton]
    exact memberId_ne
  simp only [validateDevices, validateDevicesFrom, except_bind_eq_ok, bailIf_eq_ok, howner, hmember,
    hownerLabel, hmemberLabel]
  exact ⟨(), trivial, (), List.not_mem_nil, (), trivial, (), by simp,
    (), by simp [ownerRecord, DeviceRoles.owner], (), by simp [ownerRecord, DeviceRoles.owner], (),
    trivial, (), hids, (), trivial, (), hlabels, (), by simp [memberRecord],
    (), by simp [memberRecord], rfl⟩

/-- They may follow the owner alone. -/
theorem team_follows {policy : PolicyState} (h : policy.body.devices = [ownerRecord]) :
    Follows policy (listed [ownerRecord, memberRecord]) := by
  rw [listed_team]
  have hrecords : ∀ d ∈ [ownerRecord, memberRecord], d.revokedAt = none
      ∧ d.pub.repositoryRoot = root := by
    intro d hd
    rcases List.mem_pair.mp hd with rfl | rfl
    · exact ⟨rfl, rfl⟩
    · exact ⟨rfl, rfl⟩
  exact {
    checked := team_checked
    roots := fun d hd => (hrecords d hd).2
    owner := List.mem_cons_self
    kept := by
      intro old hold
      rw [h, List.mem_singleton] at hold
      subst hold
      exact ⟨ownerRecord, by simp, rfl, rfl, .inl rfl⟩
    revoked := fun d hd => .inl (hrecords d hd).1 }

/-- That is what adding the device asks for. -/
theorem member_added {p : OpenedState} (h : p.policy.body.devices = [ownerRecord]) :
    addedDevice (device root member) (text "laptop") ⟨true, true, false⟩ p
      = .ok [ownerRecord, memberRecord] := by
  have hnone : p.policy.device (device root member).deviceId = none := by
    rw [PolicyState.device, h, List.find?_eq_none]
    intro d hd
    rw [List.mem_singleton.mp hd]
    rw [decide_eq_true_eq]
    exact memberId_ne.symm
  simp only [addedDevice, except_bind_eq_ok, bailIf_eq_ok, hnone, h]
  exact ⟨(), by simp, rfl⟩

/-- **An owner can add a device**: a genesis, and a policy with two readers above it. -/
theorem team_exists : ∃ objects p s, Sample 1 objects s [p] ∧ Small objects
    ∧ s.policy.body.devices = [ownerRecord, memberRecord] ∧ s.manifest.refs = .empty
    ∧ s.manifest.totalPackCount = 0 ∧ packIds [s, p] = [] := by
  obtain ⟨object, p, h, hsmall, hdevices, hrefs, htotal, hpacks⟩ := sample_genesis
  have hcount : paddedEnvelopeCount ((listed [ownerRecord, memberRecord]).filter
      DeviceRecord.activeReader).length = .ok 4 := by
    rw [listed_team]
    rfl
  obtain ⟨object', s, hs, hlisted, hsrefs, hspacks, hstotal, hsmall'⟩ := sample_transition h
    (by decide) (member_added hdevices) (team_follows hdevices)
    (by
      intro d hd
      rcases List.mem_pair.mp hd with rfl | rfl
      · exact record_encodable owner (isUtf8_text _) _
      · exact record_encodable member (isUtf8_text _) _)
    (by
      intro d hd
      rcases List.mem_pair.mp hd with rfl | rfl
      · exact record_compact owner (by decide) _
      · exact record_compact member (by decide) _)
    (by simp) (by rw [htotal]; decide) hcount (by rw [hrefs]; decide)
  refine ⟨[object', object], p, s, hs, ?_, hlisted.trans listed_team, hsrefs.trans hrefs,
    hstotal.trans htotal, by rw [packIds_cons s, hspacks, hpacks]; rfl⟩
  intro o ho
  rcases List.mem_cons.mp ho with rfl | ho
  · exact hsmall'
  · exact hsmall o ho

end Reference

end GitE2EE

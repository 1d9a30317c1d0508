import GitE2EE.Proof.Policy
import GitE2EE.Proof.Chain

/-!
# One entry of an authenticated chain

`Genesis` and `Extends` say what `verifyEntry` establishes about the first entry
and about an entry above another, in terms of the entries alone. `Chained` is a
list of entries related that way, and `authentic_chained` is the only place where
the checks are opened up: the theorems about whole chains are inductions on
`Chained`.
-/

namespace GitE2EE

open Wire Effect

variable {P : Primitives} {root : Text}

/-! ## Signatures on manifests -/

/-- `d` signed the manifest of `s`: some bytes open under the entry's key to exactly
this manifest, name `d` as their signer, and carry a signature of `d`. -/
def ManifestSignedBy (P : Primitives) (s : OpenedState) (d : DeviceRecord) : Prop :=
  d.pub.deviceId = s.verifiedSigner ∧ ∃ encrypted o,
    openManifest P encrypted s.generationKey = .ok o ∧ o.manifest = s.manifest
      ∧ o.header = s.header
      ∧ verifyDomain P d.pub.signingPublicKey MANIFEST_SIGNATURE_DOMAIN
          (manifestSignedBytes o.exactHeader o.exactSealedContent o.header.bodyDigest)
          o.signature = .ok ()

/-- The envelopes of `s` are the ones its policy asks for. -/
def EnvelopesAudited (P : Primitives) (s : OpenedState) : Prop :=
  validateEnvelopeLayout s.header = .ok ()
    ∧ ∃ audit, validateEnvelopeAudit P s.header audit s.policy s.generationKey = .ok ()

structure Verified (P : Primitives) (o : OpenedManifest) (policy : PolicyState)
    (parentPolicy : Option PolicyState) (key : SecretKey) (content : SealedHeaderContent) :
    Prop where
  parsed : fromSlice P SealedHeaderContent.ofJson o.exactSealedContent
    "parse sealed manifest content" = .ok content
  matchesPolicy : validateManifestPolicy o.manifest policy = .ok ()
  authorization : content.authorization = o.manifest.authorization
  signed : ∃ d, authorizingDevice content policy parentPolicy = .ok d
    ∧ verifyDomain P d.pub.signingPublicKey MANIFEST_SIGNATURE_DOMAIN
        (manifestSignedBytes o.exactHeader o.exactSealedContent o.header.bodyDigest)
        o.signature = .ok ()
  layout : validateEnvelopeLayout o.header = .ok ()
  audit : validateEnvelopeAudit P o.header content.envelopeAudit policy key = .ok ()

theorem verifyManifest_ok {o : OpenedManifest} {policy : PolicyState}
    {parentPolicy : Option PolicyState} {key : SecretKey}
    (h : verifyManifest P o policy parentPolicy key = .ok ()) :
    ∃ content, Verified P o policy parentPolicy key content := by
  simp only [verifyManifest, except_bind_eq_ok] at h
  obtain ⟨⟨⟩, hpolicy, ⟨⟩, -, ⟨⟩, hlayout, ⟨⟩, -, content, hparsed, ⟨⟩, hfields, d, hd, ⟨⟩, hsig,
    haudit⟩ := h
  simp only [bailIf_eq_ok] at hfields
  push Not at hfields
  exact ⟨content, hparsed, hpolicy, hfields.2.2.2.1, ⟨d, hd, hsig⟩, hlayout, haudit⟩

theorem matchesPolicy_ok {manifest : Manifest} {policy : PolicyState}
    (h : validateManifestPolicy manifest policy = .ok ()) :
    manifest.formatVersion = FORMAT_VERSION
      ∧ manifest.repositoryRoot = policy.body.repositoryRoot
      ∧ manifest.policyId = policy.id ∧ manifest.policyGeneration = policy.body.generation := by
  simp only [validateManifestPolicy, bailIf_eq_ok] at h
  push Not at h
  exact h

/-- The signer of an opened and verified manifest. -/
theorem signer_of_verified {u : Unverified} {s : OpenedState} {encrypted : Bytes}
    {parentPolicy : Option PolicyState} {content : SealedHeaderContent}
    (hopen : openManifest P encrypted u.generationKey = .ok u.opened)
    (hv : Verified P u.opened s.policy parentPolicy u.generationKey content)
    (hm : s.manifest = u.opened.manifest) (hh : s.header = u.opened.header)
    (hk : s.generationKey = u.generationKey) (hs : s.verifiedSigner = u.opened.claimedSignerId)
    {d : DeviceRecord} (hid : d.pub.deviceId = content.signerDeviceId)
    (hsig : verifyDomain P d.pub.signingPublicKey MANIFEST_SIGNATURE_DOMAIN
      (manifestSignedBytes u.opened.exactHeader u.opened.exactSealedContent
        u.opened.header.bodyDigest) u.opened.signature = .ok ()) :
    ManifestSignedBy P s d := by
  obtain ⟨content', hcontent', hsigner⟩ := (opens_of_openManifest hopen).signer
  have hsame : content' = content := by rw [hv.parsed] at hcontent'; cases hcontent'; rfl
  refine ⟨by rw [hid, hs, ← hsigner, hsame], encrypted, u.opened, ?_, hm.symm, hh.symm, hsig⟩
  rw [hk]
  exact hopen

theorem filter_device_ok {policy : PolicyState} {id : Text} {p : DeviceRecord → Bool}
    {d : DeviceRecord} (h : (policy.device id).filter p = some d) :
    d ∈ policy.body.devices ∧ d.pub.deviceId = id ∧ p d = true := by
  obtain ⟨hd, hp⟩ := Option.filter_eq_some_iff.mp h
  obtain ⟨hmem, hid⟩ := PolicyState.device_mem hd
  exact ⟨hmem, hid, hp⟩

/-! ## Entries -/

/-- What holds of an entry whatever is below it. -/
structure EntryOk (P : Primitives) (s : OpenedState) : Prop where
  formatVersion : s.manifest.formatVersion = FORMAT_VERSION
  root_header : s.manifest.repositoryRoot = s.header.repositoryRoot
  generation_header : s.manifest.generation = s.header.generation
  previous_header : s.manifest.previous = s.header.previous
  root_policy : s.manifest.repositoryRoot = s.policy.body.repositoryRoot
  policy_id : s.manifest.policyId = s.policy.id
  policy_generation : s.manifest.policyGeneration = s.policy.body.generation
  commitment : verifyKeyCommitment P s.generationKey s.header.keyCommitment = .ok ()
  delta : DenseDelta s.manifest
  envelopes : EnvelopesAudited P s

/-- The first entry of a chain. -/
structure Genesis (P : Primitives) (root : Text) (s : OpenedState) : Prop extends EntryOk P s where
  generation : s.manifest.generation = 0
  previous : s.manifest.previous = none
  authorization : s.manifest.authorization = .policyTransition
  totalPackCount : s.manifest.totalPackCount = 0
  refs : s.manifest.refs.isEmpty = true
  newPacks : s.manifest.newPacks = []
  policyOk : PolicyOk s.policy
  policyPosition : s.policy.body.generation = 0 ∧ s.policy.body.repositoryRoot = root
  owner : ∃ owner, s.policy.body.devices = [owner] ∧ owner.roles = .owner ∧ owner.active = true
    ∧ repositoryRootForDevice P owner.pub = .ok root ∧ PolicySignedBy P s.policy owner
    ∧ ManifestSignedBy P s owner

/-- What the authorization of an entry lets it do to the entry below. -/
inductive Change (P : Primitives) (p s : OpenedState) : Prop where
  | writer : s.manifest.authorization = .writer → s.policy = p.policy →
      (∃ d ∈ s.policy.body.devices, d.activeWriter = true ∧ ManifestSignedBy P s d) →
      Change P p s
  | policyTransition : s.manifest.authorization = .policyTransition →
      PolicyOk s.policy → Succeeds P s.policy p.policy →
      s.manifest.refs = p.manifest.refs → s.manifest.newPacks = [] →
      (∃ d ∈ p.policy.body.devices, d.activeAdministrator = true ∧ ManifestSignedBy P s d) →
      Change P p s

/-- The entry `s` above the entry `p`. -/
structure Extends (P : Primitives) (p s : OpenedState) : Prop extends EntryOk P s where
  root : s.manifest.repositoryRoot = p.manifest.repositoryRoot
  generation : s.manifest.generation = p.manifest.generation + 1
  generation_lt : s.manifest.generation < 2 ^ 64
  previous : s.manifest.previous = some p.id
  link : unwrapPredecessorKey P s.generationKey s.manifest p.header = .ok p.generationKey
  totalPackCount :
    s.manifest.totalPackCount = p.manifest.totalPackCount + s.manifest.newPacks.length
  totalPackCount_lt : s.manifest.totalPackCount < 2 ^ 64
  change : Change P p s

/-- A chain of entries, newest first. -/
inductive Chained (P : Primitives) (root : Text) : List OpenedState → Prop where
  | genesis {s : OpenedState} : Genesis P root s → Chained P root [s]
  | step {s p : OpenedState} {chain : List OpenedState} :
      Extends P p s → Chained P root (p :: chain) → Chained P root (s :: p :: chain)

/-! ## What the checks establish -/

theorem manifestGenesis_ok {manifest : Manifest} {policy : PolicyState}
    (h : manifest.validateGenesis P policy = .ok ()) :
    manifest.generation = 0 ∧ manifest.previous = none
      ∧ manifest.authorization = .policyTransition ∧ manifest.totalPackCount = 0
      ∧ manifest.refs.isEmpty = true ∧ manifest.newPacks = [] := by
  simp only [Manifest.validateGenesis, except_bind_eq_ok, bailIf_eq_ok] at h
  obtain ⟨⟨⟩, -, ⟨⟩, -, h⟩ := h
  push Not at h
  obtain ⟨hg, hp, ha, ht, hr, hn, -⟩ := h
  exact ⟨hg, by simpa using hp, ha, ht, by simpa using hr, hn⟩

structure SuccessorManifest (P : Primitives) (manifest : Manifest) (previousId : Text)
    (previous : Manifest) : Prop where
  root : manifest.repositoryRoot = previous.repositoryRoot
  generation : manifest.generation = previous.generation + 1
  generation_lt : manifest.generation < 2 ^ 64
  pointer : manifest.previous = some previousId
  totalPackCount : manifest.totalPackCount = previous.totalPackCount + manifest.newPacks.length
  totalPackCount_lt : manifest.totalPackCount < 2 ^ 64
  policyGeneration : previous.policyGeneration ≤ manifest.policyGeneration
  content : manifest.authorization = .policyTransition →
    manifest.refs = previous.refs ∧ manifest.newPacks = []

theorem manifestSuccessor_ok {manifest previous : Manifest} {previousId : Text}
    {policy : PolicyState}
    (h : manifest.validateSuccessor P previousId previous policy = .ok ()) :
    SuccessorManifest P manifest previousId previous := by
  simp only [Manifest.validateSuccessor, except_bind_eq_ok, bailIf_eq_ok, orBail_eq_ok] at h
  obtain ⟨⟨⟩, -, ⟨⟩, hroot, ⟨⟩, hgen, ⟨⟩, hprev, ⟨⟩, -, ⟨⟩, -, total, htotal, ⟨⟩, hcount,
    hauth⟩ := h
  push Not at hroot hgen hprev hcount
  obtain ⟨hgen, hgenlt⟩ := checkedAdd_eq_some.mp hgen
  obtain ⟨htotal, htotallt⟩ := checkedAdd_eq_some.mp htotal
  refine ⟨hroot, hgen.symm, hgenlt, hprev, by rw [hcount, htotal], by rw [hcount]; exact htotallt,
    ?_, fun ha => ?_⟩
  · cases ha : manifest.authorization with
    -- a writer keeps the policy, a transition moves it on by one, and a checkpoint is refused
    | writer =>
      simp only [ha, except_bind_eq_ok, bailIf_eq_ok] at hauth
      obtain ⟨⟨⟩, -, hsame⟩ := hauth
      push Not at hsame
      exact Nat.le_of_eq hsame.2.symm
    | policyTransition =>
      simp only [ha, except_bind_eq_ok, bailIf_eq_ok] at hauth
      obtain ⟨⟨⟩, -, ⟨⟩, hnext, -⟩ := hauth
      push Not at hnext
      have := (checkedAdd_eq_some.mp hnext.1).1
      omega
    | checkpoint =>
      simp only [ha] at hauth
      cases hauth
  · simp only [ha, except_bind_eq_ok, bailIf_eq_ok] at hauth
    obtain ⟨⟨⟩, -, ⟨⟩, -, hcontent⟩ := hauth
    push Not at hcontent
    exact hcontent

/-- What `Opens` and `Verified` say about an entry, whatever is below it. -/
theorem entryOk_of {u : Unverified} {s : OpenedState} {encrypted : Bytes}
    {parentPolicy : Option PolicyState} {content : SealedHeaderContent}
    (hopen : Opens P encrypted u.generationKey u.opened)
    (hv : Verified P u.opened s.policy parentPolicy u.generationKey content)
    (hm : s.manifest = u.opened.manifest) (hh : s.header = u.opened.header)
    (hk : s.generationKey = u.generationKey) : EntryOk P s := by
  obtain ⟨hversion, hroot, hid, hgen⟩ := matchesPolicy_ok hv.matchesPolicy
  rw [← hm] at hversion hroot hid hgen
  exact {
    formatVersion := hversion
    root_header := by rw [hm, hh]; exact hopen.root
    generation_header := by rw [hm, hh]; exact hopen.generation
    previous_header := by rw [hm, hh]; exact hopen.previous
    root_policy := hroot
    policy_id := hid
    policy_generation := hgen
    commitment := by rw [hk, hh]; exact hopen.commitment
    delta := by rw [hm]; exact hopen.delta
    envelopes := ⟨by rw [hh]; exact hv.layout, content.envelopeAudit,
      by rw [hh, hk]; exact hv.audit⟩ }

theorem genesis_of_verifyEntry {M : Text → Material → Prop} {u : Unverified} {s : OpenedState}
    (hread : Read P M u) (h : verifyEntry P root [] u = .ok s) : Genesis P root s := by
  obtain ⟨parentPolicy, hselect, hverify, -, hm, hh, hk, hsigner⟩ := verifyEntry_ok h
  obtain ⟨name, m, -, -, hopen⟩ := hread
  obtain ⟨content, hv⟩ := verifyManifest_ok hverify
  simp only [selectPolicy, genesisPolicy, except_bind_eq_ok, orBail_eq_ok] at hselect
  obtain ⟨policy, ⟨bytes, -, parsed, hparse, ⟨⟩, hgenesis, ⟨⟩, hmanifest, hpolicy⟩, hpair⟩ :=
    hselect
  cases hpolicy
  cases hpair
  obtain ⟨hg, hp, ha, ht, hr, hn⟩ := manifestGenesis_ok hmanifest
  obtain ⟨hpg, hpr, owner, hdevices, hroles, hactive, hkeys, hpsigned⟩ := policyGenesis_ok hgenesis
  obtain ⟨d, hd, hsig⟩ := hv.signed
  -- the only device there is signed the manifest
  have hsigned : ManifestSignedBy P s owner := by
    simp only [authorizingDevice, hv.authorization, ha, Option.getD_none, orBail_eq_ok] at hd
    obtain ⟨hmem, hid, -⟩ := filter_device_ok hd
    rw [hdevices, List.mem_singleton] at hmem
    subst hmem
    exact signer_of_verified hopen hv hm hh hk hsigner hid hsig
  rw [← hm] at hg hp ha ht hr hn
  exact {
    toEntryOk := entryOk_of (opens_of_openManifest hopen) hv hm hh hk
    generation := hg, previous := hp, authorization := ha, totalPackCount := ht, refs := hr
    newPacks := hn
    policyOk := (parse_ok hparse).1
    policyPosition := ⟨hpg, hpr⟩
    owner := ⟨owner, hdevices, hroles, hactive, hkeys, hpsigned, hsigned⟩ }

/-- The policy a manifest names, by its authorization. -/
theorem namedPolicy_ok {parent policy : PolicyState} {manifest : Manifest}
    {parentPolicy : Option PolicyState}
    (h : namedPolicy P parent manifest = .ok (policy, parentPolicy)) :
    (manifest.authorization = .writer ∧ policy = parent ∧ parentPolicy = none)
      ∨ (manifest.authorization = .policyTransition ∧ PolicyOk policy
        ∧ Succeeds P policy parent ∧ parentPolicy = some parent) := by
  unfold namedPolicy at h
  split at h
  · rename_i ha
    simp only [except_bind_eq_ok] at h
    obtain ⟨⟨⟩, -, h⟩ := h
    cases h
    exact .inl ⟨ha, rfl, rfl⟩
  · rename_i ha
    simp only [except_bind_eq_ok, orBail_eq_ok] at h
    obtain ⟨bytes, -, parsed, hparse, ⟨⟩, hsucc, h⟩ := h
    cases h
    exact .inr ⟨ha, (parse_ok hparse).1, policySuccessor_ok hsucc, rfl⟩
  · cases h

theorem extends_of_verifyEntry {M : Text → Material → Prop} {u : Unverified}
    {s p : OpenedState} {chain : List OpenedState} (hread : Read P M u)
    (hlink : unwrapPredecessorKey P u.generationKey u.opened.manifest p.header
      = .ok p.generationKey)
    (h : verifyEntry P root (p :: chain) u = .ok s) : Extends P p s := by
  obtain ⟨parentPolicy, hselect, hverify, -, hm, hh, hk, hsigner⟩ := verifyEntry_ok h
  obtain ⟨name, m, -, -, hopen⟩ := hread
  obtain ⟨content, hv⟩ := verifyManifest_ok hverify
  simp only [selectPolicy, successorPolicy, except_bind_eq_ok] at hselect
  obtain ⟨⟨policy, parent⟩, hnamed, ⟨⟩, hsucc, hpair⟩ := hselect
  cases hpair
  have hmanifest := manifestSuccessor_ok hsucc
  obtain ⟨d, hd, hsig⟩ := hv.signed
  -- the authorization names the policy that is to have the signer as an active device
  have hchange : Change P p s := by
    rcases namedPolicy_ok hnamed with ⟨ha, hpolicy, rfl⟩ | ⟨ha, hok, hsucceeds, rfl⟩
    · simp only [authorizingDevice, hv.authorization, ha, orBail_eq_ok] at hd
      obtain ⟨hmem, hid, hactive⟩ := filter_device_ok hd
      exact .writer (by rw [hm, ha]) hpolicy
        ⟨d, hmem, hactive, signer_of_verified hopen hv hm hh hk hsigner hid hsig⟩
    · simp only [authorizingDevice, hv.authorization, ha, Option.getD_some, orBail_eq_ok] at hd
      obtain ⟨hmem, hid, hactive⟩ := filter_device_ok hd
      obtain ⟨hrefs, hpacks⟩ := hmanifest.content ha
      exact .policyTransition (by rw [hm, ha]) hok hsucceeds (by rw [hm, hrefs])
        (by rw [hm, hpacks])
        ⟨d, hmem, hactive, signer_of_verified hopen hv hm hh hk hsigner hid hsig⟩
  exact {
    toEntryOk := entryOk_of (opens_of_openManifest hopen) hv hm hh hk
    root := by rw [hm]; exact hmanifest.root
    generation := by rw [hm]; exact hmanifest.generation
    generation_lt := by rw [hm]; exact hmanifest.generation_lt
    previous := by rw [hm]; exact hmanifest.pointer
    link := by rw [hm, hk]; exact hlink
    totalPackCount := by rw [hm]; exact hmanifest.totalPackCount
    totalPackCount_lt := by rw [hm]; exact hmanifest.totalPackCount_lt
    change := hchange }

/-- **Every chain `chainFrom` accepts is a chain of entries.** -/
theorem authentic_chained {M : Text → Material → Prop} {chain : List OpenedState}
    (h : Authentic P root M chain) : Chained P root chain := by
  induction h with
  | genesis hread hverify => exact .genesis (genesis_of_verifyEntry hread hverify)
  | step hread hlink hverify _ ih => exact .step (extends_of_verifyEntry hread hlink hverify) ih

end GitE2EE

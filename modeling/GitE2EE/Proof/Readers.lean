import GitE2EE.Proof.Shape

/-!
# Reader agreement

Whoever wrote a manifest chose its envelopes, its audit and its padding, and may
hold any role a writer can hold. The audit a verifier accepts still pins down what
every active reader will find: the envelope at each audited position is the seal of
the generation key to that reader, recomputed from the recorded seed. A reader
trying the envelopes in order may open others first, but stops only at a key that
matches the commitment.
-/

namespace GitE2EE

open Wire Effect

variable {σ : Type} {P : Primitives} {root : Text}

/-- HPKE opens what was sealed to the same key, info and associated data. -/
def HpkeInverts (P : Primitives) : Prop :=
  ∀ secret info plaintext aad rng encapsulated ciphertext, secret.length = 32 →
    P.hpkeSeal (P.x25519Public secret) info plaintext aad rng = some (encapsulated, ciphertext) →
      P.hpkeOpen secret encapsulated info ciphertext aad = some plaintext

/-- The keys a reader can meet while trying the envelopes of a header. -/
def keysTried (P : Primitives) (header : ManifestHeader) (key : KeyFile) : Set SecretKey :=
  { k | ∃ e ∈ header.generationKeyEnvelopes, ∃ deviceId encapsulated ciphertext,
      key.deviceId P = .ok deviceId ∧ base64Decode e.encapsulatedKey = some encapsulated
        ∧ base64Decode e.ciphertext = some ciphertext
        ∧ key.unwrapEnvelope P encapsulated ciphertext (generationKeyAad header.repositoryRoot
          header.generation deviceId header.keyCommitment) = .ok k }

/-! ## What an accepted audit says -/

/-- The envelope is the seal of the generation key to the recipient. -/
def SealedTo (P : Primitives) (header : ManifestHeader) (generationKey : SecretKey)
    (recipient : DeviceRecord) (envelope : GenerationKeyEnvelope) : Prop :=
  ∃ seed encapsulated ciphertext,
    wrapGenerationKeyWithSeed P recipient.pub.wrappingPublicKey generationKey
        (generationKeyAad header.repositoryRoot header.generation recipient.pub.deviceId
          header.keyCommitment) seed = .ok (encapsulated, ciphertext)
      ∧ envelope = ⟨base64Encode encapsulated, base64Encode ciphertext⟩

theorem validateEnvelopeAuditFrom_ok {header : ManifestHeader} {policy : PolicyState}
    {generationKey : SecretKey} {active audited out : List Text}
    {pairs : List (GenerationKeyEnvelope × EnvelopeAuditEntry)}
    (h : validateEnvelopeAuditFrom P header policy generationKey active audited pairs = .ok out) :
    ∀ id ∈ out, id ∈ audited ∨ ∃ pair ∈ pairs, ∃ recipient, policy.device id = some recipient
      ∧ SealedTo P header generationKey recipient pair.1 := by
  induction pairs generalizing audited with
  | nil =>
    cases h
    exact fun id hid => .inl hid
  | cons pair rest ih =>
    obtain ⟨envelope, entry⟩ := pair
    cases entry with
    | dummy =>
      intro id hid
      rcases ih h id hid with hold | ⟨pair, hpair, hrest⟩
      · exact .inl hold
      · exact .inr ⟨pair, List.mem_cons_of_mem _ hpair, hrest⟩
    | recipient deviceId encodedSeed =>
      simp only [validateEnvelopeAuditFrom, except_bind_eq_ok, bailIf_eq_ok, orBail_eq_ok] at h
      obtain ⟨⟨⟩, -, ⟨⟩, -, seedBytes, -, seed, -, recipient, hrecipient,
        ⟨encapsulated, ciphertext⟩,
        hwrap, ⟨⟩, hsame, hrest⟩ := h
      push Not at hsame
      intro id hid
      rcases ih hrest id hid with hold | ⟨pair, hpair, hfound⟩
      · rcases List.mem_cons.mp hold with rfl | hold
        · refine .inr ⟨_, List.mem_cons_self, recipient, hrecipient, seed, encapsulated, ciphertext,
            ?_, ?_⟩
          · rw [(PolicyState.device_mem hrecipient).2]
            exact hwrap
          · rw [hsame.1, hsame.2]
        · exact .inl hold
      · exact .inr ⟨pair, List.mem_cons_of_mem _ hpair, hfound⟩

/-- **An accepted audit covers every active reader**: one of the envelopes is the seal
of the generation key to it. -/
theorem validateEnvelopeAudit_ok {header : ManifestHeader} {audit : List EnvelopeAuditEntry}
    {policy : PolicyState} {generationKey : SecretKey} (hpolicy : PolicyOk policy)
    (h : validateEnvelopeAudit P header audit policy generationKey = .ok ())
    {d : DeviceRecord} (hd : d ∈ policy.body.devices) (hactive : d.activeReader = true) :
    ∃ envelope ∈ header.generationKeyEnvelopes, SealedTo P header generationKey d envelope := by
  simp only [validateEnvelopeAudit, except_bind_eq_ok, bailIf_eq_ok] at h
  obtain ⟨⟨⟩, -, audited, haudited, hsets⟩ := h
  push Not at hsets
  have hmem : d.pub.deviceId ∈ audited :=
    hsets.1 _ (List.mem_map_of_mem (List.mem_filter.mpr ⟨hd, hactive⟩))
  rcases validateEnvelopeAuditFrom_ok haudited _ hmem with hnil | ⟨pair, hpair, r, hr, hsealed⟩
  · cases hnil
  · rw [hpolicy.device_eq hd] at hr
    cases hr
    exact ⟨pair.1, (List.of_mem_zip hpair).1, hsealed⟩

/-! ## Trial decryption -/

theorem commitKey_eq_of_verify {k : SecretKey} {commitment : Text} {k' : SecretKey}
    (h : verifyKeyCommitment P k commitment = .ok ())
    (h' : verifyKeyCommitment P k' commitment = .ok ()) : commitKey P k = commitKey P k' := by
  simp only [verifyKeyCommitment, except_bind_eq_ok, orBail_eq_ok, bailIf_eq_ok] at h h'
  obtain ⟨expected, hexpected, heq⟩ := h
  obtain ⟨expected', hexpected', heq'⟩ := h'
  push Not at heq heq'
  rw [hexpected] at hexpected'
  cases hexpected'
  rw [commitKey, commitKey, ← heq, ← heq']

/-- The loop ends at the generation key once one of the envelopes holds it, whatever
the others open to. -/
theorem tryEnvelopes_eq {header : ManifestHeader} {key : KeyFile} {deviceId : Text}
    {generationKey : SecretKey} {envelopes : List GenerationKeyEnvelope}
    (hinj : Set.InjOn (commitKey P) (insert generationKey (keysTried P header key)))
    (hid : key.deviceId P = .ok deviceId)
    (hsub : ∀ e ∈ envelopes, e ∈ header.generationKeyEnvelopes)
    (hcommit : verifyKeyCommitment P generationKey header.keyCommitment = .ok ())
    (hfound : ∃ e ∈ envelopes, ∃ encapsulated ciphertext,
      e = ⟨base64Encode encapsulated, base64Encode ciphertext⟩
        ∧ key.unwrapEnvelope P encapsulated ciphertext (generationKeyAad header.repositoryRoot
          header.generation deviceId header.keyCommitment) = .ok generationKey) :
    tryEnvelopes P header key deviceId envelopes = .ok generationKey := by
  induction envelopes with
  | nil =>
    obtain ⟨e, he, -⟩ := hfound
    cases he
  | cons envelope rest ih =>
    obtain ⟨e, he, encapsulated, ciphertext, heq, hopens⟩ := hfound
    rcases List.mem_cons.mp he with rfl | he
    · -- this is the envelope that holds the key
      subst heq
      simp [tryEnvelopes, hopens, hcommit, Except.isOk, Except.toBool]
    · have hrest := ih (fun e he => hsub e (List.mem_cons_of_mem _ he))
        ⟨e, he, encapsulated, ciphertext, heq, hopens⟩
      unfold tryEnvelopes
      split
      · rename_i encapsulated' ciphertext' hencapsulated hciphertext
        simp only
        split
        · rename_i k hk
          split
          · -- it opened before its turn: the commitment leaves no other key
            rename_i hmatch
            have hk' : verifyKeyCommitment P k header.keyCommitment = .ok () := by
              cases hv : verifyKeyCommitment P k header.keyCommitment with
              | ok u => rfl
              | error err => rw [hv] at hmatch; cases hmatch
            have htried : k ∈ keysTried P header key :=
              ⟨envelope, hsub envelope List.mem_cons_self, deviceId, encapsulated', ciphertext',
                hid, hencapsulated, hciphertext, hk⟩
            rw [hinj (Set.mem_insert_of_mem _ htried) (Set.mem_insert _ _)
              (commitKey_eq_of_verify hk' hcommit)]
          · exact hrest
        · exact hrest
      · exact hrest

/-- Every device record's key file opens the envelope sealed to it. -/
theorem unwrapEnvelope_sealedTo (hhpke : HpkeInverts P) {header : ManifestHeader}
    {generationKey : SecretKey} {d : DeviceRecord} {envelope : GenerationKeyEnvelope}
    {key : KeyFile} (hkey : key.publicDevice P = .ok d.pub)
    (hsealed : SealedTo P header generationKey d envelope)
    (hlength : ∃ encapsulated, base64Decode envelope.encapsulatedKey = some encapsulated
      ∧ encapsulated.length = HPKE_ENCAPSULATED_KEY_SIZE) :
    ∃ encapsulated ciphertext, envelope = ⟨base64Encode encapsulated, base64Encode ciphertext⟩
      ∧ key.unwrapEnvelope P encapsulated ciphertext (generationKeyAad header.repositoryRoot
        header.generation d.pub.deviceId header.keyCommitment) = .ok generationKey := by
  obtain ⟨seed, encapsulated, ciphertext, hwrap, rfl⟩ := hsealed
  obtain ⟨encapsulated', hdecode, hlen⟩ := hlength
  simp only [base64Decode_base64Encode, Option.some.injEq] at hdecode
  subst hdecode
  refine ⟨encapsulated, ciphertext, rfl, ?_⟩
  simp only [KeyFile.publicDevice, except_bind_eq_ok] at hkey
  obtain ⟨signing, -, wrapping, hwrapping, hpub⟩ := hkey
  have hwrappub : d.pub.wrappingPublicKey = base64Encode (P.x25519Public wrapping) := by
    cases hd : d.pub
    rw [hd] at hpub
    cases hpub
    rfl
  have hsecret : wrapping.length = 32 := by
    simp only [KeyFile.wrappingKey, except_bind_eq_ok, bailIf_eq_ok] at hwrapping
    obtain ⟨bytes, -, ⟨⟩, hlen32, hbytes⟩ := hwrapping
    cases hbytes
    push Not at hlen32
    exact hlen32
  simp only [wrapGenerationKeyWithSeed, hwrappub, decodeBase64, base64Decode_base64Encode,
    except_bind_eq_ok, orBail_eq_ok] at hwrap
  obtain ⟨bytes, hbytes, ⟨⟩, -, hseal⟩ := hwrap
  cases hbytes
  simp only [KeyFile.unwrapEnvelope, except_bind_eq_ok, bailIf_eq_ok, orBail_eq_ok]
  exact ⟨(), by simp [hlen], wrapping, hwrapping, generationKey.val,
    hhpke _ _ _ _ _ _ _ hsecret hseal, toBytes32_val _⟩

/-- **Trial decryption agrees with the verifier.** -/
theorem unwrapGenerationKey_of_audited (hhpke : HpkeInverts P) {s : OpenedState}
    (haudited : EnvelopesAudited P s) (hpolicy : PolicyOk s.policy)
    (hheader : validatePublicHeader s.header = .ok ())
    (hcommit : verifyKeyCommitment P s.generationKey s.header.keyCommitment = .ok ())
    {d : DeviceRecord} (hd : d ∈ s.policy.body.devices) (hactive : d.activeReader = true)
    {key : KeyFile} (hroot : key.repositoryRoot = s.header.repositoryRoot)
    (hkey : key.publicDevice P = .ok d.pub)
    (hinj : Set.InjOn (commitKey P) (insert s.generationKey (keysTried P s.header key))) :
    unwrapGenerationKey P s.header key = .ok s.generationKey := by
  obtain ⟨hlayout, audit, haudit⟩ := haudited
  obtain ⟨envelope, henvelope, hsealed⟩ := validateEnvelopeAudit_ok hpolicy haudit hd hactive
  obtain ⟨key₀, -, hdecode, -, hlength, -⟩ :=
    validateEnvelopeLayoutFrom_ok hlayout envelope henvelope
  obtain ⟨encapsulated, ciphertext, heq, hopens⟩ := unwrapEnvelope_sealedTo hhpke hkey hsealed
    ⟨key₀, hdecode, hlength⟩
  have hid : key.deviceId P = .ok d.pub.deviceId := by
    simp only [KeyFile.deviceId, hkey]
    rfl
  rw [unwrapGenerationKey, if_neg (by simpa using hroot)]
  simp only [except_bind_eq_ok]
  exact ⟨(), hheader, d.pub.deviceId, hid, tryEnvelopes_eq hinj hid (fun _ he => he) hcommit
    ⟨envelope, henvelope, encapsulated, ciphertext, heq, hopens⟩⟩

/-! ## Whole chains -/

/-- What a successful walk knows about its head. -/
theorem chainFrom_head {readMaterial : Text → Action Error σ Material}
    {charge : ManifestHeader → Nat → Action Error σ Unit} {key : KeyFile} {head : Text}
    {chain : List OpenedState} {s s' : σ}
    (h : chainFrom P key readMaterial charge head s = (.ok chain, s')) :
    ∃ (m : Material) (s₁ : σ) (u : Unverified) (first : OpenedState) (rest : List OpenedState),
      readMaterial head s = (.ok m, s₁) ∧ chain = first :: rest
      ∧ unwrapGenerationKey P m.header key = .ok u.generationKey
      ∧ openManifest P m.encrypted u.generationKey = .ok u.opened
      ∧ first.id = m.id ∧ first.header = u.opened.header
      ∧ first.generationKey = u.generationKey := by
  obtain ⟨m, s₁, s₂, u, us, hread, -, hkey, hopen, hid, hvisits, -, hverify⟩ := chainFrom_eq_ok.mp h
  obtain ⟨-, hwalk⟩ := hvisits.walk (readerSpec_any readMaterial charge)
    ⟨head, m, trivial, hid, hopen⟩
  obtain ⟨rest, rfl⟩ := hvisits.head
  obtain ⟨-, -, -, first, c, rfl, hfirst, hheader, hgk⟩ := verifyOpenedChain_ok hwalk hverify
  exact ⟨m, s₁, u, first, c, hread, rfl, hkey, hopen, hfirst.trans hid, hheader, hgk⟩

/-- A reader whose headers are the ones in the bytes it returns. -/
def PeeksHeader (P : Primitives) (readMaterial : Text → Action Error σ Material) : Prop :=
  ∀ {name s m s'}, readMaterial name s = (.ok m, s') →
    peekManifestHeader P m.encrypted = .ok m.header

theorem checkMaterial_ok {id : Text} {bytes : Bytes} {m : Material}
    (h : checkMaterial P id bytes = .ok m) :
    m.id = id ∧ m.encrypted = bytes ∧ objectId P bytes = id
      ∧ peekManifestHeader P bytes = .ok m.header := by
  unfold checkMaterial at h
  split at h
  · cases h
  · rename_i hid
    push Not at hid
    obtain ⟨header, hheader, hm⟩ := except_bind_eq_ok.mp h
    cases hm
    exact ⟨rfl, rfl, hid, orInvalid_eq_ok.mp hheader⟩

theorem readManifestMaterial_peeks {S : Type} (storage : Storage S) :
    PeeksHeader P (readManifestMaterial P storage) := by
  intro name s m s' h
  obtain ⟨bytes, s₁, -, hcheck⟩ := Action.bind_eq_ok.mp h
  obtain ⟨-, hbytes, -, hpeek⟩ := checkMaterial_ok (Action.lift_eq_ok.mp hcheck).1
  rw [hbytes]
  exact hpeek

theorem peekManifestHeader_public {encrypted : Bytes} {header : ManifestHeader}
    (h : peekManifestHeader P encrypted = .ok header) :
    validatePublicHeader header = .ok () := by
  simp only [peekManifestHeader, except_bind_eq_ok] at h
  obtain ⟨⟨⟩, -, envelope, -, exactHeader, -, header', -, ⟨⟩, hpublic, heq⟩ := h
  cases heq
  exact hpublic

theorem unwrapGenerationKey_root {header : ManifestHeader} {key : KeyFile} {k : SecretKey}
    (h : unwrapGenerationKey P header key = .ok k) :
    key.repositoryRoot = header.repositoryRoot := by
  unfold unwrapGenerationKey at h
  split at h
  · cases h
  · rename_i hroot
    simpa using hroot

/-- **Agreement for any reader that takes headers from the bytes.** -/
theorem chainFrom_agrees {readMaterial : Text → Action Error σ Material}
    {charge : ManifestHeader → Nat → Action Error σ Unit} (hpeeks : PeeksHeader P readMaterial)
    (hhpke : HpkeInverts P) {key : KeyFile} {head : Text} {first : OpenedState}
    {rest : List OpenedState} {s s' : σ}
    (h : chainFrom P key readMaterial charge head s = (.ok (first :: rest), s'))
    {d : DeviceRecord} (hd : d ∈ first.policy.body.devices) (hactive : d.activeReader = true)
    {key' : KeyFile} (hroot : key'.repositoryRoot = key.repositoryRoot)
    (hkey : key'.publicDevice P = .ok d.pub)
    (hinj : Set.InjOn (commitKey P) (insert first.generationKey (keysTried P first.header key'))) :
    unwrapGenerationKey P first.header key' = .ok first.generationKey
      ∧ chainFrom P key' readMaterial charge head s = (.ok (first :: rest), s') := by
  have hchained := authentic_chained (chainFrom_ok (readerSpec_any readMaterial charge) h).2.1
  have hentry := hchained.entryOk first List.mem_cons_self
  obtain ⟨m, s₁, s₂, u, us, hread, hcharge, hunwrap, hopen, hid, hvisits, hnd, hverify⟩ :=
    chainFrom_eq_ok.mp h
  obtain ⟨m', s₁', u', first', rest', hread', hcons, hunwrap', hopen', -, hheader, hgk⟩ :=
    chainFrom_head h
  cases hcons
  rw [hread] at hread'
  cases hread'
  have hsame : u'.generationKey = u.generationKey := by
    rw [hunwrap] at hunwrap'
    exact (Except.ok.inj hunwrap').symm
  rw [hsame] at hopen' hgk
  -- the header that was opened is the header that was read
  have hpeek := hpeeks hread
  have hopened := (opens_of_openManifest hopen').peek
  have hfirst : first.header = m.header := by
    rw [hpeek] at hopened
    rw [hheader]
    exact (Except.ok.inj hopened).symm
  have hkeyroot := unwrapGenerationKey_root hunwrap
  have hunwrapped := unwrapGenerationKey_of_audited hhpke hentry.envelopes
    (chained_policyOk hchained first List.mem_cons_self)
    (by rw [hfirst]; exact peekManifestHeader_public hpeek) hentry.commitment hd hactive
    (by rw [hfirst, hroot, hkeyroot]) hkey hinj
  refine ⟨hunwrapped, chainFrom_eq_ok.mpr ⟨m, s₁, s₂, u, us, hread, hcharge, ?_,
    hopen, hid, hvisits,
    hnd, by rw [hroot]; exact hverify⟩⟩
  rw [← hfirst, hunwrapped, hgk]

end GitE2EE

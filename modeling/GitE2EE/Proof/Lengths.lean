import GitE2EE.Proof.Sealing

/-!
# The length of a stored manifest

Every part of a stored manifest is computed through its layers of encoding: JSON,
base64, the frame of a ciphertext. The plaintext header depends on the padded envelope
count alone (`length_header`). The sealed header has one audit entry per envelope, and
the entry of a reader is 151 bytes longer than that of a dummy (`length_content`).
-/

namespace GitE2EE

open Wire Effect

variable {P : Primitives}

/-! ## Texts of known length -/

/-- A digest in hexadecimal needs no escape. -/
theorem verbatim_of_isHex64 {t : Text} (h : isHex64 t = true) :
    Json.Verbatim t ∧ t.length = 64 := by
  simp only [isHex64, Bool.and_eq_true, beq_iff_eq, List.all_eq_true] at h
  refine ⟨fun c hc => ?_, h.1⟩
  have hdigit := h.2 c hc
  refine ⟨?_, ?_, ?_⟩
  · unfold isHexDigit hexValue at hdigit
    split_ifs at hdigit <;> first | omega | cases hdigit
  · rintro rfl
    cases hdigit
  · rintro rfl
    cases hdigit

theorem length_quote_isHex64 {t : Text} (h : isHex64 t = true) : (Json.quote t).length = 66 := by
  rw [Json.length_quote_verbatim (verbatim_of_isHex64 h).1, (verbatim_of_isHex64 h).2]

theorem length_quote_digest (bytes : Bytes32) : (Json.quote (hexEncode bytes.val)).length = 66 := by
  rw [Json.length_quote_verbatim (verbatim_hexEncode _), length_hexEncode, bytes.property]

theorem length_quote_base64 (bytes : Bytes) :
    (Json.quote (base64Encode bytes)).length = 4 * ((bytes.length + 2) / 3) + 2 := by
  rw [Json.length_quote_verbatim (verbatim_base64Encode _), length_base64Encode]

/-! ## The envelopes and their audit -/

/-- The audit entry of a reader. -/
theorem length_recipient {deviceId : Text} (h : isHex64 deviceId = true) (seed : Bytes32) :
    (EnvelopeAuditEntry.recipient deviceId (base64Encode seed.val)).toJson.write.length = 167 := by
  simp only [EnvelopeAuditEntry.toJson, Json.length_write_obj, List.map_cons, List.map_nil,
    List.sum_cons, List.sum_nil, Json.write_str, length_quote_isHex64 h, length_quote_base64,
    seed.property]
  rfl

/-- The audit entry of a dummy. -/
theorem length_dummy : EnvelopeAuditEntry.dummy.toJson.write.length = 16 := rfl

theorem sum_map_const {α : Type} {f : α → Nat} {c : Nat} {l : List α} (h : ∀ a ∈ l, f a = c) :
    (l.map f).sum = l.length * c := by
  rw [List.map_congr_left h, List.map_const', List.sum_replicate_nat]

theorem sum_map_le {α : Type} {f : α → Nat} {c : Nat} {l : List α} (h : ∀ a ∈ l, f a ≤ c) :
    (l.map f).sum ≤ l.length * c := by
  induction l with
  | nil => simp
  | cons a l ih =>
    have ha := h a List.mem_cons_self
    have hl := ih fun x hx => h x (List.mem_cons_of_mem _ hx)
    rw [List.map_cons, List.sum_cons, List.length_cons, Nat.succ_mul]
    omega

section

variable {policy : PolicyState} {manifest : Manifest} {generationKey : SecretKey}
variable {commitment : Text} {pairs : List EnvelopePair}

/-- The serialized audit: 168 bytes for a reader and 17 for a dummy, a separator
included. -/
theorem length_audit (h : BuiltEnvelopes P policy manifest generationKey commitment pairs)
    (hids : ∀ d ∈ activeReaders policy, isHex64 d.pub.deviceId = true) :
    (pairs.map fun pair => pair.entry.toJson.write.length + 1).sum
      = 17 * pairs.length + 151 * (activeReaders policy).length := by
  -- the shuffle does not matter for a sum
  obtain ⟨real, padding, hperm, hreal, hpadding⟩ := h.split
  have hrealSum : (real.map fun pair => pair.entry.toJson.write.length + 1).sum
      = real.length * 168 := by
    refine sum_map_const fun pair hpair => ?_
    obtain ⟨d, hd, -, seed, -, -, -, hentry⟩ := forall₂_exists_left hreal hpair
    rw [hentry, length_recipient (hids d hd) seed]
  have hpaddingSum : (padding.map fun pair => pair.entry.toJson.write.length + 1).sum
      = padding.length * 17 := by
    refine sum_map_const fun pair hpair => ?_
    rw [(hpadding pair hpair).2, length_dummy]
  have hlength := hperm.length_eq
  rw [List.length_append] at hlength
  have hsum := (hperm.map fun pair => pair.entry.toJson.write.length + 1).sum_nat
  rw [List.map_append, List.sum_append, hrealSum, hpaddingSum] at hsum
  rw [hsum, hlength, hreal.length_eq]
  omega

/-- An envelope with parts of the sizes the layout check asks for. -/
theorem length_envelope {encapsulated ciphertext : Bytes}
    (he : encapsulated.length = HPKE_ENCAPSULATED_KEY_SIZE)
    (hc : ciphertext.length = HPKE_CIPHERTEXT_SIZE) :
    (GenerationKeyEnvelope.toJson ⟨base64Encode encapsulated, base64Encode ciphertext⟩).write.length
      = 147 := by
  simp only [GenerationKeyEnvelope.toJson, Json.length_write_obj, List.map_cons, List.map_nil,
    List.sum_cons, List.sum_nil, Json.write_str, length_quote_base64, he, hc]
  rfl

end

/-! ## The parts of a stored manifest -/

/-- The plaintext header, up to the texts it shares with the manifest. -/
def headerLength (root : Text) (generation : Nat) (previous : Option Text) (count : Nat) : Nat :=
  349 + (Json.quote root).length + (Json.decimal generation).length
    + (Json.orNull Json.str previous).write.length + 148 * count

/-- The content of a sealed header. -/
def contentLength (policyGeneration : Nat) (authorization : ManifestAuthorization)
    (totalPackCount count readers : Nat) : Nat :=
  245 + (Json.decimal policyGeneration).length + authorization.name.length
    + (Json.decimal totalPackCount).length + 17 * count + 151 * readers

section

variable {coins : Coins} {key : KeyFile} {policy : PolicyState} {generationKey : SecretKey}
variable {manifest : Manifest} {parts : SealParts}

/-- There are as many envelopes as the padding asks for. -/
theorem Sealed.envelopeCount (h : Sealed P coins key policy generationKey manifest parts) :
    paddedEnvelopeCount (activeReaders policy).length = .ok parts.envelopes.length := by
  obtain ⟨pairs, hbuilt, henvelopes, -⟩ := buildEnvelopes_ok h.envelopes
  rw [henvelopes, List.length_map]
  exact hbuilt.count

theorem Sealed.envelopes_ne_nil (h : Sealed P coins key policy generationKey manifest parts) :
    parts.envelopes ≠ [] := by
  have hmin : 4 ≤ parts.envelopes.length := (paddedEnvelopeCount_bounds h.envelopeCount).2.1
  exact List.ne_nil_of_length_pos (by omega)

/-- Every envelope that was sealed takes the same space. -/
theorem Sealed.envelope_lengths (h : Sealed P coins key policy generationKey manifest parts) :
    ∀ e ∈ parts.envelopes, ∃ encapsulated ciphertext,
      e = ⟨base64Encode encapsulated, base64Encode ciphertext⟩
        ∧ encapsulated.length = HPKE_ENCAPSULATED_KEY_SIZE
        ∧ ciphertext.length = HPKE_CIPHERTEXT_SIZE := by
  intro e he
  obtain ⟨encapsulated, ciphertext, hencapsulated, hciphertext, hlengths⟩ :=
    validateEnvelopeLayoutFrom_ok h.layout e he
  obtain ⟨pairs, hbuilt, henvelopes, -⟩ := buildEnvelopes_ok h.envelopes
  rw [henvelopes] at he
  -- the layout check decodes what was encoded when the envelope was built
  obtain ⟨pair, hpair, rfl⟩ := List.mem_map.mp he
  obtain ⟨ct, hform⟩ := builtEnvelopes_form hbuilt pair hpair
  rw [hform] at hencapsulated hciphertext ⊢
  rw [base64Decode_base64Encode] at hencapsulated hciphertext
  cases hencapsulated
  cases hciphertext
  exact ⟨_, _, rfl, hlengths⟩

/-- **The plaintext header** gives away the padded count and not the number of readers. -/
theorem length_header (h : Sealed P coins key policy generationKey manifest parts) :
    (parts.header P generationKey manifest).toJson.write.length
      = headerLength manifest.repositoryRoot manifest.generation manifest.previous
        parts.envelopes.length := by
  have hversion : manifest.formatVersion = FORMAT_VERSION :=
    (validatePublicHeader_ok h.publicHeader).1
  have hne : parts.envelopes.map GenerationKeyEnvelope.toJson ≠ [] := by
    rw [Ne, List.map_eq_nil_iff]
    exact h.envelopes_ne_nil
  -- 147 bytes for an envelope, and its separator
  have hsum : ((parts.envelopes.map GenerationKeyEnvelope.toJson).map
      fun v => v.write.length + 1).sum = parts.envelopes.length * 148 := by
    rw [List.map_map]
    refine sum_map_const fun e he => ?_
    obtain ⟨encapsulated, ciphertext, rfl, hencapsulated, hciphertext⟩ := h.envelope_lengths e he
    rw [Function.comp_apply, length_envelope hencapsulated hciphertext]
  have hformat : (Json.quote (text "format_version")).length = 16 := rfl
  have hroot : (Json.quote (text "repository_root")).length = 17 := rfl
  have hgeneration : (Json.quote (text "generation")).length = 12 := rfl
  have hprevious : (Json.quote (text "previous")).length = 10 := rfl
  have hcommitment : (Json.quote (text "key_commitment")).length = 16 := rfl
  have henvelopes : (Json.quote (text "generation_key_envelopes")).length = 26 := rfl
  have hbody : (Json.quote (text "body_digest")).length = 13 := rfl
  have hsealed : (Json.quote (text "sealed_header_digest")).length = 22 := rfl
  have hsix : (Json.decimal FORMAT_VERSION).length = 1 := rfl
  simp only [ManifestHeader.toJson, SealParts.header, Json.length_write_obj, List.map_cons,
    List.map_nil, List.sum_cons, List.sum_nil, Json.write_str, Json.write_nat,
    Json.length_write_arr hne, hsum, hversion, commitKey, length_quote_digest, hformat, hroot,
    hgeneration, hprevious, hcommitment, henvelopes, hbody, hsealed, hsix, headerLength]
  omega

/-- **The sealed header** grows by 151 bytes with each reader. -/
theorem length_content (h : Sealed P coins key policy generationKey manifest parts)
    (hpolicy : isHex64 manifest.policyId = true)
    (hids : ∀ d ∈ activeReaders policy, isHex64 d.pub.deviceId = true) :
    (parts.content manifest).toJson.write.length
      = contentLength manifest.policyGeneration manifest.authorization manifest.totalPackCount
        parts.envelopes.length (activeReaders policy).length := by
  obtain ⟨pairs, hbuilt, henvelopes, haudit⟩ := buildEnvelopes_ok h.envelopes
  have hcount : pairs.length = parts.envelopes.length := by rw [henvelopes, List.length_map]
  have hne : parts.audit.map EnvelopeAuditEntry.toJson ≠ [] := by
    have := List.length_pos_of_ne_nil h.envelopes_ne_nil
    exact List.ne_nil_of_length_pos (by rw [List.length_map, haudit, List.length_map]; omega)
  have hsum : ((parts.audit.map EnvelopeAuditEntry.toJson).map fun v => v.write.length + 1).sum
      = 17 * parts.envelopes.length + 151 * (activeReaders policy).length := by
    rw [haudit, List.map_map, List.map_map, ← hcount, ← length_audit hbuilt hids]
    rfl
  obtain ⟨digest, hsigner⟩ := deviceId_digest h.signer
  have hname : (Json.quote manifest.authorization.name).length
      = manifest.authorization.name.length + 2 := by
    cases manifest.authorization <;> rfl
  have hid : (Json.quote (text "policy_id")).length = 11 := rfl
  have hgeneration : (Json.quote (text "policy_generation")).length = 19 := rfl
  have hsignerKey : (Json.quote (text "signer_device_id")).length = 18 := rfl
  have hauthorization : (Json.quote (text "authorization")).length = 15 := rfl
  have htotal : (Json.quote (text "total_pack_count")).length = 18 := rfl
  have hauditKey : (Json.quote (text "envelope_audit")).length = 16 := rfl
  simp only [SealedHeaderContent.toJson, SealParts.content, Json.length_write_obj, List.map_cons,
    List.map_nil, List.sum_cons, List.sum_nil, Json.write_str, Json.write_nat,
    Json.length_write_arr hne, hsum, length_quote_isHex64 hpolicy, hsigner, length_quote_digest,
    hname, hid, hgeneration, hsignerKey, hauthorization, htotal, hauditKey, contentLength]
  omega

/-- The frame: eight bytes of magic, a nonce of 24 and a tag of 16. -/
theorem length_sealWithKey (hP : Lawful P) {secret : SecretKey} {nonce : Nonce}
    {plaintext aad envelope : Bytes}
    (h : sealWithKey P secret nonce plaintext aad = .ok envelope) :
    envelope.length = plaintext.length + 48 := by
  simp only [sealWithKey, except_bind_eq_ok, orBail_eq_ok] at h
  obtain ⟨ciphertext, hseal, h⟩ := h
  cases h
  have hmagic : SYMMETRIC_MAGIC.length = 8 := rfl
  simp only [List.length_append, nonce.property, (hP.aead_open hseal).2, hmagic]
  omega

theorem length_signDomain (hP : Lawful P) {domain bytes signature : Bytes}
    (h : key.signDomain P domain bytes = .ok signature) : signature.length = 64 := by
  simp only [KeyFile.signDomain, except_bind_eq_ok] at h
  obtain ⟨secret, -, h⟩ := h
  cases h
  exact (hP.sign_verify _ _).2

/-- The sealed header, as a ciphertext. -/
theorem length_sealedHeader (hP : Lawful P)
    (h : Sealed P coins key policy generationKey manifest parts) :
    parts.sealedHeaderCiphertext.length
      = 165 + 4 * (((parts.content manifest).toJson.write.length + 2) / 3) := by
  obtain ⟨sealedKey, -, hsealed⟩ := h.sealedHeader
  have hcontent : (Json.quote (text "content")).length = 9 := rfl
  have hsignature : (Json.quote (text "signature")).length = 11 := rfl
  rw [length_sealWithKey hP hsealed]
  simp only [SealedHeaderEnvelope.toJson, SealParts.sealedHeader, Json.length_write_obj,
    List.map_cons, List.map_nil, List.sum_cons, List.sum_nil, Json.write_str, length_quote_base64,
    hcontent, hsignature, length_signDomain hP h.signature]
  omega

/-- The body, as a ciphertext. -/
theorem length_body (hP : Lawful P)
    (h : Sealed P coins key policy generationKey manifest parts) :
    parts.bodyCiphertext.length = (SealParts.body manifest).toJson.write.length + 48 := by
  obtain ⟨bodyKey, -, hbody⟩ := h.body
  exact length_sealWithKey hP hbody

/-- The stored bytes. -/
theorem length_encrypted :
    (parts.encrypted P generationKey manifest).length
      = 64 + 4 * (((parts.header P generationKey manifest).toJson.write.length + 2) / 3)
        + 4 * ((parts.sealedHeaderCiphertext.length + 2) / 3)
        + 4 * ((parts.bodyCiphertext.length + 2) / 3) := by
  have hheader : (Json.quote (text "header")).length = 8 := rfl
  have hsealed : (Json.quote (text "sealed_header_ciphertext")).length = 26 := rfl
  have hbody : (Json.quote (text "body_ciphertext")).length = 17 := rfl
  simp only [SealParts.encrypted, ManifestEnvelope.toJson, Json.length_write_obj, List.map_cons,
    List.map_nil, List.sum_cons, List.sum_nil, Json.write_str, length_quote_base64, hheader,
    hsealed, hbody]
  omega

end

/-! ## Small manifests

A manifest whose body is at most 8 MiB fits the 16 MiB that storage returns at once,
with as many envelopes as there can be. -/

/-- A counter of 64 bits has at most 20 digits. -/
theorem length_decimal_u64 {n : Nat} (h : n < 2 ^ 64) : (Json.decimal n).length ≤ 20 :=
  Json.length_decimal_le (by omega) (Nat.lt_of_lt_of_le h (by decide))

/-- Each byte of a text takes at most six in JSON. -/
theorem length_previous_le {previous : Option Text} (h : ∀ t, previous = some t → t.length ≤ 64) :
    (Json.orNull Json.str previous).write.length ≤ 386 := by
  cases previous with
  | none => decide
  | some t =>
    have := Json.length_quote_le t
    have := h t rfl
    simp only [Json.orNull, Json.write_str]
    omega

section

variable {coins : Coins} {key : KeyFile} {policy : PolicyState} {generationKey : SecretKey}
variable {manifest : Manifest} {parts : SealParts}

/-- **A sealed manifest fits** what storage returns at once, if its body does. -/
theorem Sealed.length_le (hP : Lawful P)
    (h : Sealed P coins key policy generationKey manifest parts)
    (hpolicy : isHex64 manifest.policyId = true)
    (hids : ∀ d ∈ activeReaders policy, isHex64 d.pub.deviceId = true)
    (hgeneration : manifest.generation < 2 ^ 64)
    (hprevious : ∀ t, manifest.previous = some t → t.length ≤ 64)
    (hpolicyGeneration : manifest.policyGeneration < 2 ^ 64)
    (htotal : manifest.totalPackCount < 2 ^ 64)
    (hbody : (SealParts.body manifest).toJson.write.length ≤ 8 * 1024 * 1024) :
    (parts.encrypted P generationKey manifest).length ≤ MAX_MANIFEST_BYTES := by
  obtain ⟨hreaders, -, hmax⟩ := paddedEnvelopeCount_bounds h.envelopeCount
  have hmax' : parts.envelopes.length ≤ 4096 := hmax
  have hroot : (Json.quote manifest.repositoryRoot).length = 66 :=
    length_quote_isHex64 (validatePublicHeader_ok h.publicHeader).2
  have hname : manifest.authorization.name.length ≤ 17 := by
    cases manifest.authorization <;> decide
  have hheader := length_header h
  have hcontent := length_content h hpolicy hids
  have hg := length_decimal_u64 hgeneration
  have hpg := length_decimal_u64 hpolicyGeneration
  have ht := length_decimal_u64 htotal
  have hp := length_previous_le hprevious
  rw [headerLength, hroot] at hheader
  rw [contentLength] at hcontent
  -- every layer of base64 adds a third, so what is left is arithmetic
  rw [length_encrypted, length_sealedHeader hP h, length_body hP h, hheader, hcontent,
    MAX_MANIFEST_BYTES]
  omega

end

/-- A wrapped key is 80 bytes in base64. -/
theorem length_wrapPredecessorKey (hP : Lawful P) {nonce : Nonce}
    {generationKey previousKey : SecretKey} {root : Text} {generation : Nat}
    {previousId wrap : Text}
    (h : wrapPredecessorKey P nonce generationKey previousKey root generation previousId
      = .ok wrap) : wrap.length = 108 := by
  simp only [wrapPredecessorKey, except_bind_eq_ok] at h
  obtain ⟨linkKey, -, wrapped, hwrapped, h⟩ := h
  cases h
  rw [length_base64Encode, length_sealWithKey hP hwrapped, previousKey.property]

/-- A body of at most a few megabytes, part by part. -/
theorem length_bodyJson_le {manifest : Manifest}
    (hrefs : (refsToJson manifest.refs).write.length ≤ 1024 * 1024)
    (hpacks : (Json.arr (manifest.newPacks.map PackDescriptor.toJson)).write.length ≤ 1024 * 1024)
    (hwrap : ∀ t, manifest.predecessorKeyWrap = some t → t.length ≤ 1024)
    (hpolicy : ∀ bytes, manifest.introducedPolicy = some bytes → bytes.length ≤ 1024 * 1024) :
    (SealParts.body manifest).toJson.write.length ≤ 8 * 1024 * 1024 := by
  have hrefsKey : (Json.quote (text "refs")).length = 6 := rfl
  have hpacksKey : (Json.quote (text "new_packs")).length = 11 := rfl
  have hwrapKey : (Json.quote (text "predecessor_key_wrap")).length = 22 := rfl
  have hpolicyKey : (Json.quote (text "introduced_policy")).length = 19 := rfl
  have hnull : (Json.write .null).length = 4 := rfl
  have hwrapJson : (Json.orNull Json.str manifest.predecessorKeyWrap).write.length ≤ 6146 := by
    cases hw : manifest.predecessorKeyWrap with
    | none => simp only [Json.orNull, hnull]; omega
    | some t =>
      have := Json.length_quote_le t
      have := hwrap t hw
      simp only [Json.orNull, Json.write_str]
      omega
  have hpolicyJson : (Json.orNull Json.str
      (manifest.introducedPolicy.map base64Encode)).write.length ≤ 2 * 1024 * 1024 := by
    cases hp : manifest.introducedPolicy with
    | none => simp only [Option.map_none, Json.orNull, hnull]; omega
    | some bytes =>
      have := hpolicy bytes hp
      simp only [Option.map_some, Json.orNull, Json.write_str, length_quote_base64]
      omega
  simp only [ManifestBody.toJson, SealParts.body, Json.length_write_obj, List.map_cons,
    List.map_nil, List.sum_cons, List.sum_nil, hrefsKey, hpacksKey, hwrapKey, hpolicyKey]
  omega

/-- A record with texts of at most 64 bytes. -/
structure DeviceRecord.Compact (d : DeviceRecord) : Prop where
  repositoryRoot : d.pub.repositoryRoot.length ≤ 64
  deviceId : d.pub.deviceId.length ≤ 64
  signingPublicKey : d.pub.signingPublicKey.length ≤ 64
  wrappingPublicKey : d.pub.wrappingPublicKey.length ≤ 64
  label : d.label.length ≤ 64
  revokedAt : ∀ g, d.revokedAt = some g → g < 2 ^ 64

/-- A record of a device, with every text escaped at worst. -/
theorem length_device_le {d : DeviceRecord} (h : d.Compact) : d.toJson.write.length ≤ 2200 := by
  have hroot := Json.length_quote_le d.pub.repositoryRoot
  have hid := Json.length_quote_le d.pub.deviceId
  have hsigning := Json.length_quote_le d.pub.signingPublicKey
  have hwrapping := Json.length_quote_le d.pub.wrappingPublicKey
  have hlabel := Json.length_quote_le d.label
  have hroles : d.roles.toJson.write.length ≤ 100 := by
    obtain ⟨reader, writer, administrator⟩ := d.roles
    cases reader <;> cases writer <;> cases administrator <;> decide
  have hrevoked : (Json.orNull Json.nat d.revokedAt).write.length ≤ 20 := by
    cases hr : d.revokedAt with
    | none => decide
    | some g => exact length_decimal_u64 (h.revokedAt g hr)
  have hkeys : (Json.quote (text "repository_root")).length = 17
      ∧ (Json.quote (text "device_id")).length = 11
      ∧ (Json.quote (text "signing_public_key")).length = 20
      ∧ (Json.quote (text "wrapping_public_key")).length = 21
      ∧ (Json.quote (text "label")).length = 7 ∧ (Json.quote (text "roles")).length = 7
      ∧ (Json.quote (text "revoked_at")).length = 12 := ⟨rfl, rfl, rfl, rfl, rfl, rfl, rfl⟩
  obtain ⟨h₁, h₂, h₃, h₄, h₅, h₆, h₇⟩ := hkeys
  obtain ⟨b₁, b₂, b₃, b₄, b₅, -⟩ := h
  simp only [DeviceRecord.toJson, Json.length_write_obj, List.map_cons, List.map_nil,
    List.sum_cons, List.sum_nil, Json.write_str, h₁, h₂, h₃, h₄, h₅, h₆, h₇]
  omega

/-- A policy, with one record for each device. -/
theorem length_policyBody_le {b : PolicyBody} (hversion : b.formatVersion = FORMAT_VERSION)
    (hroot : b.repositoryRoot.length ≤ 64) (hgeneration : b.generation < 2 ^ 64)
    (hprevious : ∀ t, b.previous = some t → t.length ≤ 64) (hthreshold : b.adminThreshold = 1)
    (hdevices : ∀ d ∈ b.devices, d.Compact) :
    b.toJson.write.length ≤ 1000 + 2201 * b.devices.length := by
  have hrootJson := Json.length_quote_le b.repositoryRoot
  have hg := length_decimal_u64 hgeneration
  have hp := length_previous_le hprevious
  have hsum : ((b.devices.map DeviceRecord.toJson).map fun v => v.write.length + 1).sum
      ≤ b.devices.length * 2201 := by
    rw [List.map_map]
    refine sum_map_le fun d hd => ?_
    have := length_device_le (hdevices d hd)
    simp only [Function.comp_apply]
    omega
  have harray : (Json.arr (b.devices.map DeviceRecord.toJson)).write.length
      ≤ 2 + 2201 * b.devices.length := by
    by_cases hnil : b.devices.map DeviceRecord.toJson = []
    · rw [hnil]
      exact Nat.le_trans (show (Json.arr []).write.length ≤ 2 by decide) (by omega)
    · rw [Json.length_write_arr hnil]
      omega
  have hkeys : (Json.quote (text "format_version")).length = 16
      ∧ (Json.quote (text "repository_root")).length = 17
      ∧ (Json.quote (text "generation")).length = 12 ∧ (Json.quote (text "previous")).length = 10
      ∧ (Json.quote (text "admin_threshold")).length = 17
      ∧ (Json.quote (text "devices")).length = 9 ∧ (Json.decimal FORMAT_VERSION).length = 1
      ∧ (Json.decimal 1).length = 1 := ⟨rfl, rfl, rfl, rfl, rfl, rfl, rfl, rfl⟩
  obtain ⟨h₁, h₂, h₃, h₄, h₅, h₆, h₇, h₈⟩ := hkeys
  simp only [PolicyBody.toJson, Json.length_write_obj, List.map_cons, List.map_nil, List.sum_cons,
    List.sum_nil, Json.write_str, Json.write_nat, hversion, hthreshold, h₁, h₂, h₃, h₄, h₅, h₆, h₇,
    h₈]
  omega

/-- A created policy takes about three kilobytes for each device. -/
theorem length_create_le (hP : Lawful P) {b : PolicyBody} {signer : KeyFile} {policy : PolicyState}
    {bytes : Bytes} (h : PolicyState.create P b signer = .ok (policy, bytes))
    (hversion : b.formatVersion = FORMAT_VERSION) (hroot : b.repositoryRoot.length ≤ 64)
    (hgeneration : b.generation < 2 ^ 64) (hprevious : ∀ t, b.previous = some t → t.length ≤ 64)
    (hthreshold : b.adminThreshold = 1) (hdevices : ∀ d ∈ b.devices, d.Compact) :
    bytes.length ≤ 2000 + 2936 * b.devices.length := by
  obtain ⟨-, -, -, id, signature, hid, hsignature, rfl, -⟩ := create_ok h
  have hbody := length_policyBody_le hversion hroot hgeneration hprevious hthreshold hdevices
  obtain ⟨digest, rfl⟩ := deviceId_digest hid
  have hkeys : (Json.quote (text "body")).length = 6
      ∧ (Json.quote (text "signatures")).length = 12 ∧ (Json.quote (text "device_id")).length = 11
      ∧ (Json.quote (text "signature")).length = 11 := ⟨rfl, rfl, rfl, rfl⟩
  obtain ⟨h₁, h₂, h₃, h₄⟩ := hkeys
  simp only [PolicyObject.toJson, PolicySignature.toJson, Json.length_write_obj, List.map_cons,
    List.map_nil, List.sum_cons, List.sum_nil, Json.write_str, length_quote_base64,
    Json.length_write_arr (List.cons_ne_nil _ _), length_quote_digest,
    length_signDomain hP hsignature, h₁, h₂, h₃, h₄]
  omega

end GitE2EE

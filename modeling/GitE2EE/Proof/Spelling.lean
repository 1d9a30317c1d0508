import GitE2EE.Proof.Samples

/-!
# Two spellings of one manifest

The id of a manifest is the digest of its stored bytes, but what is signed and sealed are the
parts inside. The bytes around them are a JSON document that any reader of JSON takes in more
than one spelling, so whoever stores a manifest can give it another id. That holds of every
manifest that authenticates: opening looks at the decoded parts only, and parts can always be
written down in two ways.
-/

namespace GitE2EE

open Wire Effect

variable {P : Primitives}

/-! ## The parts of the stored bytes -/

/-- The parts of stored bytes, decoded. -/
structure StoredParts where
  header : Bytes
  sealedHeaderCiphertext : Bytes
  bodyCiphertext : Bytes

def StoredParts.envelope (parts : StoredParts) : ManifestEnvelope where
  header := base64Encode parts.header
  sealedHeaderCiphertext := base64Encode parts.sealedHeaderCiphertext
  bodyCiphertext := base64Encode parts.bodyCiphertext

/-- The spelling `seal_manifest` writes. -/
def StoredParts.written (parts : StoredParts) : Bytes := parts.envelope.toJson.write

/-- The same members in another order. -/
def StoredParts.respelled (parts : StoredParts) : Bytes :=
  (Json.obj [(text "body_ciphertext", .str parts.envelope.bodyCiphertext),
    (text "header", .str parts.envelope.header),
    (text "sealed_header_ciphertext", .str parts.envelope.sealedHeaderCiphertext)]).write

/-- What `open_manifest` decodes of the stored bytes before it decrypts anything. -/
def storedParts (P : Primitives) (encrypted : Bytes) : Result StoredParts := do
  let envelope ← fromSlice P ManifestEnvelope.ofJson encrypted "parse manifest envelope"
  let header ← decodeBase64As envelope.header "decode manifest header"
  let sealedHeaderCiphertext ←
    decodeBase64As envelope.sealedHeaderCiphertext "decode sealed manifest header"
  let bodyCiphertext ← decodeBase64As envelope.bodyCiphertext "decode manifest body"
  pure { header, sealedHeaderCiphertext, bodyCiphertext }

theorem storedParts_written (hP : ReadsJson P) (parts : StoredParts) :
    storedParts P parts.written = .ok parts := by
  simp only [storedParts, except_bind_eq_ok]
  exact ⟨_, fromSlice_write hP (ManifestEnvelope.readable (isUtf8_base64Encode _)
      (isUtf8_base64Encode _) (isUtf8_base64Encode _) 125) (ManifestEnvelope.ofJson_toJson _),
    _, decodeBase64As_encode _ _, _, decodeBase64As_encode _ _, _, decodeBase64As_encode _ _, rfl⟩

theorem parseJson_written (hP : ReadsJson P) (parts : StoredParts) :
    P.parseJson parts.written = some parts.envelope.toJson :=
  hP _ (ManifestEnvelope.readable (isUtf8_base64Encode _) (isUtf8_base64Encode _)
    (isUtf8_base64Encode _) 125)

theorem parseJson_respelled (hP : ReadsJson P) (parts : StoredParts) :
    P.parseJson parts.respelled
      = some (Json.obj [(text "body_ciphertext", .str parts.envelope.bodyCiphertext),
          (text "header", .str parts.envelope.header),
          (text "sealed_header_ciphertext", .str parts.envelope.sealedHeaderCiphertext)]) := by
  refine hP _ ?_
  simp [Json.readable, StoredParts.envelope, isUtf8_base64Encode]

theorem respelled_ne (hP : ReadsJson P) (parts : StoredParts) :
    parts.respelled ≠ parts.written := by
  intro h
  have hread := parseJson_respelled hP parts
  rw [h, parseJson_written hP, ManifestEnvelope.toJson] at hread
  have hname : text "header" = text "body_ciphertext" := by
    injection hread with hread
    injection hread with hread
    injection hread with hread
    injection hread
  exact absurd hname (by decide)

theorem storedParts_respelled (hP : ReadsJson P) (parts : StoredParts) :
    storedParts P parts.respelled = .ok parts := by
  rw [← storedParts_written hP parts, storedParts, storedParts, fromSlice, fromSlice,
    parseJson_written hP, parseJson_respelled hP]
  rfl

/-! ## Opening goes by the parts -/

/-- The format check, once the header is decoded. -/
def headerFormat (P : Primitives) (header : Bytes) : Result Unit := do
  let version ← fromSlice P
    (fun v => (v.probe (text "format_version")).bind (Json.asUnsigned 64)) header
    "parse manifest format version"
  if version ≠ FORMAT_VERSION then
    .error (.of (.unsupported s!"unsupported manifest format {version}"))
  else pure ()

/-- The format check finds the header where the full schema does. -/
theorem headerFormat_of_stored {encrypted : Bytes} {parts : StoredParts}
    (hparts : storedParts P encrypted = .ok parts)
    (h : requireSupportedFormat P encrypted = .ok ()) : headerFormat P parts.header = .ok () := by
  simp only [storedParts, except_bind_eq_ok] at hparts
  obtain ⟨envelope, henvelope, header, hheader, _, -, _, -, hparts⟩ := hparts
  cases hparts
  obtain ⟨found, hfound, hformat⟩ := except_bind_eq_ok.mp h
  obtain ⟨decoded, hdecoded, hformat⟩ := except_bind_eq_ok.mp hformat
  -- the probe for the version finds the header that the full parse takes
  have hsame : found = envelope.header := by
    simp only [fromSlice, withContext_eq_ok, orBail_eq_ok, Option.bind_eq_some_iff]
      at hfound henvelope
    obtain ⟨v, hv, value, hprobe, htext⟩ := hfound
    obtain ⟨v', hv', henvelope⟩ := henvelope
    cases hv.symm.trans hv'
    simp only [ManifestEnvelope.ofJson, Option.bind_eq_bind, Option.bind_eq_some_iff] at henvelope
    obtain ⟨field, hfield, text, htext', _, -, _, -, henvelope⟩ := henvelope
    cases henvelope
    rw [Json.field_of_probe hfield hprobe (by decide)] at htext'
    exact Option.some.inj (htext.symm.trans htext')
  rw [hsame, hheader] at hdecoded
  cases hdecoded
  exact hformat

/-- **Opening goes by the parts**: stored bytes with the same parts open alike. -/
theorem openManifest_congr {a b : Bytes} {parts : StoredParts} {key : SecretKey}
    (ha : storedParts P a = .ok parts) (hb : storedParts P b = .ok parts)
    (hformat : requireSupportedFormat P a = requireSupportedFormat P b) :
    openManifest P a key = openManifest P b key := by
  simp only [storedParts, except_bind_eq_ok] at ha hb
  obtain ⟨envelope, henvelope, header, hheader, sealedHeader, hsealedHeader, body, hbody, ha⟩ := ha
  obtain ⟨envelope', henvelope', header', hheader', sealedHeader', hsealedHeader', body',
    hbody', hb⟩ := hb
  cases ha
  cases hb
  have hok : ∀ {α β : Type} (x : α) (f : α → Result β), (Except.ok x >>= f) = f x := fun _ _ => rfl
  simp only [openManifest, hformat, henvelope, henvelope', hheader, hheader', hsealedHeader,
    hsealedHeader', hbody, hbody', hok]

theorem requireSupportedFormat_written (hP : ReadsJson P) (parts : StoredParts) :
    requireSupportedFormat P parts.written = headerFormat P parts.header := by
  have hprobe : fromSlice P (fun v => (v.probe (text "header")).bind Json.asText) parts.written
      "parse manifest envelope" = .ok (base64Encode parts.header) := by
    rw [fromSlice, parseJson_written hP]
    rfl
  rw [requireSupportedFormat, hprobe]
  show (decodeBase64As _ _ >>= _) = _
  rw [decodeBase64As_encode]
  rfl

theorem requireSupportedFormat_respelled (hP : ReadsJson P) (parts : StoredParts) :
    requireSupportedFormat P parts.respelled = headerFormat P parts.header := by
  rw [← requireSupportedFormat_written hP, requireSupportedFormat, requireSupportedFormat,
    fromSlice, fromSlice, parseJson_written hP, parseJson_respelled hP]
  rfl

theorem storedParts_of_openManifest {encrypted : Bytes} {key : SecretKey} {o : OpenedManifest}
    (h : openManifest P encrypted key = .ok o) :
    requireSupportedFormat P encrypted = .ok () ∧ ∃ parts, storedParts P encrypted = .ok parts := by
  simp only [openManifest, except_bind_eq_ok] at h
  obtain ⟨⟨⟩, hformat, envelope, henvelope, exactHeader, hheader, _, -, _, -, _, -, sealedHeader,
    hsealedHeader, body, hbody, -⟩ := h
  refine ⟨hformat, ⟨exactHeader, sealedHeader, body⟩, ?_⟩
  simp only [storedParts, except_bind_eq_ok]
  exact ⟨envelope, henvelope, exactHeader, hheader, sealedHeader, hsealedHeader, body, hbody, rfl⟩

/-! ## No manifest has one spelling -/

/-- What the signer signed, or nobody can compute without the key, coincides. -/
structure SameSigned (P : Primitives) (a b : Bytes) (o o' : OpenedManifest) : Prop where
  header : o.exactHeader = o'.exactHeader
  content : o.exactSealedContent = o'.exactSealedContent
  signature : o.signature = o'.signature
  body : ∀ parts parts', storedParts P a = .ok parts → storedParts P b = .ok parts' →
    parts.bodyCiphertext = parts'.bodyCiphertext

/-- No other bytes authenticate, under the same key and policies, with the same signed parts. -/
def SoleSpelling (P : Primitives) (key : SecretKey) (policy : PolicyState)
    (parent : Option PolicyState) (a : Bytes) (o : OpenedManifest) : Prop :=
  ∀ b o', openManifest P b key = .ok o' → verifyManifest P o' policy parent key = .ok () →
    SameSigned P a b o o' → a = b

/-- Bytes with the same parts, that pass the format check, open to the same manifest. -/
theorem opens_alike {a b : Bytes} {parts : StoredParts} {key : SecretKey} {o : OpenedManifest}
    (hopen : openManifest P a key = .ok o) (ha : storedParts P a = .ok parts)
    (hb : storedParts P b = .ok parts) (hformat : requireSupportedFormat P b = .ok ()) :
    openManifest P b key = .ok o ∧ SameSigned P a b o o := by
  have hsame : requireSupportedFormat P a = requireSupportedFormat P b :=
    (storedParts_of_openManifest hopen).1.trans hformat.symm
  refine ⟨(openManifest_congr ha hb hsame).symm.trans hopen, rfl, rfl, rfl, ?_⟩
  intro p p' hp hp'
  cases ha.symm.trans hp
  cases hb.symm.trans hp'
  rfl

/-- **Every manifest that authenticates can be respelled.** Whoever stores it can write its parts
in another order, without any key, and what comes out authenticates in the same place under
another id. -/
theorem accepted_manifest_respelled (hP : ReadsJson P) {key : SecretKey} {policy : PolicyState}
    {parent : Option PolicyState} {a : Bytes} {o : OpenedManifest}
    (hopen : openManifest P a key = .ok o)
    (hverify : verifyManifest P o policy parent key = .ok ()) :
    ¬ SoleSpelling P key policy parent a o := by
  intro hsole
  obtain ⟨hformat, parts, hparts⟩ := storedParts_of_openManifest hopen
  have hheader := headerFormat_of_stored hparts hformat
  -- the parts have two spellings, and these bytes are at most one of them
  obtain ⟨hwritten, hsigned⟩ := opens_alike hopen hparts (storedParts_written hP parts)
    ((requireSupportedFormat_written hP parts).trans hheader)
  obtain ⟨hrespelled, hsigned'⟩ := opens_alike hopen hparts (storedParts_respelled hP parts)
    ((requireSupportedFormat_respelled hP parts).trans hheader)
  have hfirst := hsole _ o hwritten hverify hsigned
  have hsecond := hsole _ o hrespelled hverify hsigned'
  exact respelled_ne hP parts (hsecond.symm.trans hfirst)

namespace Reference

/-- The genesis of the owner authenticates, in the spelling it was sealed in. -/
theorem genesis_parts : ∃ (parts : StoredParts) (key : SecretKey) (o : OpenedManifest)
    (policy : PolicyState) (parent : Option PolicyState),
    openManifest primitives parts.written key = .ok o
      ∧ verifyManifest primitives o policy parent key = .ok () := by
  obtain ⟨prepared, object, p, -, hsealed, hcheck, -⟩ := genesis_published
  obtain ⟨-, parts, -, hobject, -⟩ := sealNext_eq_ok.mp hsealed
  simp only [selfCheck, except_bind_eq_ok] at hcheck
  obtain ⟨o, hopen, ⟨⟩, hverify, -⟩ := hcheck
  rw [hobject] at hopen
  exact ⟨⟨(parts.header primitives prepared.generationKey prepared.manifest).toJson.write,
    parts.sealedHeaderCiphertext, parts.bodyCiphertext⟩, _, o, _, _, hopen, hverify⟩

theorem accepted_manifest_respelled_genesis : ∃ (a : Bytes) (key : SecretKey)
    (o : OpenedManifest) (policy : PolicyState) (parent : Option PolicyState),
    openManifest primitives a key = .ok o ∧ verifyManifest primitives o policy parent key = .ok ()
      ∧ ¬ SoleSpelling primitives key policy parent a o := by
  obtain ⟨parts, key, o, policy, parent, hopen, hverify⟩ := genesis_parts
  exact ⟨_, key, o, policy, parent, hopen, hverify,
    accepted_manifest_respelled lawful.json hopen hverify⟩

/-- **One manifest, two objects**: both authenticate, with the same header, sealed header,
signature and body. -/
theorem manifest_respelled : ∃ (a b : Bytes) (key : SecretKey) (o : OpenedManifest)
    (policy : PolicyState) (parent : Option PolicyState),
    openManifest primitives a key = .ok o ∧ openManifest primitives b key = .ok o
      ∧ verifyManifest primitives o policy parent key = .ok ()
      ∧ SameSigned primitives a b o o ∧ a ≠ b := by
  obtain ⟨parts, key, o, policy, parent, hopen, hverify⟩ := genesis_parts
  have hwritten := storedParts_written lawful.json parts
  have hheader := headerFormat_of_stored hwritten (storedParts_of_openManifest hopen).1
  obtain ⟨hrespelled, hsigned⟩ := opens_alike hopen hwritten
    (storedParts_respelled lawful.json parts)
    ((requireSupportedFormat_respelled lawful.json parts).trans hheader)
  exact ⟨_, _, key, o, policy, parent, hopen, hrespelled, hverify, hsigned,
    (respelled_ne lawful.json parts).symm⟩

end Reference

end GitE2EE

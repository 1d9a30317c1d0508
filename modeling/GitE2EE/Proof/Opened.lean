import GitE2EE.Model.Chain

/-!
# What an opened manifest satisfies

One lemma per function of the manifest model that later proofs reason about, in
the direction they need: from "it returned" to what it checked. Nothing outside
this module unfolds `openManifest`, `verifyManifest` or a successor check.
-/

namespace GitE2EE

open Wire Effect

variable {P : Primitives}

/-! ## Pack deltas -/

/-- The descriptors of one manifest: its generation, dense ordinals from `index`,
nonzero sizes, and ids that are new and distinct. -/
theorem validatePackDeltaFrom_ok {generation index : Nat} {ids : List Text}
    {packs : List PackDescriptor}
    (h : validatePackDeltaFrom generation index ids packs = .ok ()) :
    (∀ i (hi : i < packs.length), (packs.get ⟨i, hi⟩).generation = generation
      ∧ (packs.get ⟨i, hi⟩).ordinal = index + i ∧ 0 < (packs.get ⟨i, hi⟩).plaintextSize) := by
  induction packs generalizing index ids with
  | nil => intro i hi; exact absurd hi (Nat.not_lt_zero i)
  | cons pack rest ih =>
    simp only [validatePackDeltaFrom, except_bind_eq_ok, bailIf_eq_ok] at h
    obtain ⟨_, hpos, _, hsize, _, _, hrest⟩ := h
    push Not at hpos
    intro i hi
    cases i with
    | zero => exact ⟨hpos.1, hpos.2, Nat.pos_of_ne_zero hsize⟩
    | succ i =>
      obtain ⟨hg, ho, hs⟩ := ih hrest i (Nat.lt_of_succ_lt_succ hi)
      exact ⟨hg, by rw [List.get_cons_succ, ho]; omega, hs⟩

/-- The descriptors of a manifest that passed `validate_pack_delta`. -/
def DenseDelta (manifest : Manifest) : Prop :=
  ∀ i (hi : i < manifest.newPacks.length),
    (manifest.newPacks.get ⟨i, hi⟩).generation = manifest.generation
      ∧ (manifest.newPacks.get ⟨i, hi⟩).ordinal = i
      ∧ 0 < (manifest.newPacks.get ⟨i, hi⟩).plaintextSize

theorem denseDelta_of_validate {manifest : Manifest} (h : validatePackDelta manifest = .ok ()) :
    DenseDelta manifest := by
  intro i hi
  obtain ⟨hg, ho, hs⟩ := validatePackDeltaFrom_ok h i hi
  exact ⟨hg, by rw [ho, Nat.zero_add], hs⟩

/-! ## Opening -/

/-- What `openManifest` guarantees about its result. -/
structure Opens (P : Primitives) (encrypted : Bytes) (key : SecretKey) (o : OpenedManifest) :
    Prop where
  /-- The header is the one a reader without the key sees. -/
  peek : peekManifestHeader P encrypted = .ok o.header
  commitment : verifyKeyCommitment P key o.header.keyCommitment = .ok ()
  root : o.manifest.repositoryRoot = o.header.repositoryRoot
  generation : o.manifest.generation = o.header.generation
  previous : o.manifest.previous = o.header.previous
  /-- The signer named in the sealed header, which is what the signature covers. -/
  signer : ∃ content, fromSlice P SealedHeaderContent.ofJson o.exactSealedContent
    "parse sealed manifest content" = .ok content ∧ content.signerDeviceId = o.claimedSignerId
  delta : DenseDelta o.manifest
  /-- Exactly the successors point at a predecessor. -/
  genesis : o.manifest.generation = 0 ↔ o.manifest.previous = none

theorem opens_of_openManifest {encrypted : Bytes} {key : SecretKey} {o : OpenedManifest}
    (h : openManifest P encrypted key = .ok o) : Opens P encrypted key o := by
  simp only [openManifest, except_bind_eq_ok, bailIf_eq_ok] at h
  obtain ⟨⟨⟩, hformat, envelope, henv, exactHeader, hexact, header, hheader, ⟨⟩, hpublic, ⟨⟩,
    hcommit, sealedCt, -, bodyCt, -, -, -, sealedKey, -, sealedBytes, -, sealedHeader, -,
    content, -, -, -, -, -, parsed, hparsed, -, -, signature, -, bodyKey, -, bodyBytes, -,
    body, -, introduced, -, ⟨⟩, hdelta, -, -, -, hprev, ho⟩ := h
  cases ho
  refine ⟨?_, hcommit, rfl, rfl, rfl, ⟨parsed, hparsed, rfl⟩, denseDelta_of_validate hdelta, ?_⟩
  · simp only [peekManifestHeader, except_bind_eq_ok]
    exact ⟨(), hformat, envelope, henv, exactHeader, hexact, header, hheader, (), hpublic, rfl⟩
  · push Not at hprev
    constructor
    · intro h0
      have := hprev.1 h0
      simpa using this
    · intro hnone
      by_contra hne
      have := hprev.2 (Nat.pos_of_ne_zero hne)
      rw [hnone] at this
      simp at this

/-- Both parts of every envelope have the size of an HPKE envelope of a key. -/
theorem validateEnvelopeLayoutFrom_ok {prior : Option Bytes}
    {envelopes : List GenerationKeyEnvelope}
    (h : validateEnvelopeLayoutFrom prior envelopes = .ok ()) :
    ∀ e ∈ envelopes, ∃ encapsulated ciphertext,
      base64Decode e.encapsulatedKey = some encapsulated
        ∧ base64Decode e.ciphertext = some ciphertext
        ∧ encapsulated.length = HPKE_ENCAPSULATED_KEY_SIZE
        ∧ ciphertext.length = HPKE_CIPHERTEXT_SIZE := by
  induction envelopes generalizing prior with
  | nil => exact fun e he => absurd he List.not_mem_nil
  | cons envelope rest ih =>
    simp only [validateEnvelopeLayoutFrom, except_bind_eq_ok, bailIf_eq_ok, decodeBase64As,
      decodeBase64, withContext_eq_ok, orBail_eq_ok] at h
    obtain ⟨encapsulated, henc, ciphertext, hct, ⟨⟩, hlen, ⟨⟩, -, hrest⟩ := h
    push Not at hlen
    intro e he
    rcases List.mem_cons.mp he with rfl | he
    · exact ⟨encapsulated, ciphertext, henc, hct, hlen⟩
    · exact ih hrest e he

/-- What `unwrapPredecessorKey` guarantees. -/
theorem unwrapPredecessorKey_ok {key parentKey : SecretKey} {manifest : Manifest}
    {parentHeader : ManifestHeader}
    (h : unwrapPredecessorKey P key manifest parentHeader = .ok parentKey) :
    parentHeader.generation + 1 = manifest.generation
      ∧ parentHeader.repositoryRoot = manifest.repositoryRoot
      ∧ verifyKeyCommitment P parentKey parentHeader.keyCommitment = .ok () := by
  simp only [unwrapPredecessorKey, except_bind_eq_ok, bailIf_eq_ok] at h
  obtain ⟨previousId, -, wrap, -, ⟨⟩, hgen, linkKey, -, ct, -, plaintext, -, k, -, ⟨⟩, hcommit,
    hk⟩ := h
  push Not at hgen
  cases hk
  exact ⟨(checkedAdd_eq_some.mp hgen.1).1, hgen.2, hcommit⟩

end GitE2EE

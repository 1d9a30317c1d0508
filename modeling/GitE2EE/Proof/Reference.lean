import GitE2EE.Proof.Publishing

/-!
# Libraries that keep the promises

The theorems assume things of the libraries: laws (`Lawful`) and that certain ids and
commitments do not collide. This module shows the assumptions hold together, for
libraries that keep every law and hide nothing: a signature is the key and the end of
the message, a ciphertext is the plaintext and part of the key, and a digest of a
manifest is its generation. With them an honest device can seal (`seals`).
-/

namespace GitE2EE

open Wire Effect

namespace Reference

/-! ## The libraries -/

/-- The last 32 bytes, padded on the left. -/
def last32 (bytes : Bytes) : Bytes32 :=
  ⟨(List.replicate 32 0 ++ bytes).drop bytes.length, by
    rw [List.length_drop, List.length_append, List.length_replicate, Nat.add_sub_cancel]⟩

@[simp] theorem last32_append (front : Bytes) (back : Bytes32) :
    last32 (front ++ back.val) = back := by
  refine Subtype.ext ?_
  show (List.replicate 32 0 ++ (front ++ back.val)).drop (front ++ back.val).length = back.val
  have hlength : (List.replicate 32 (0 : UInt8) ++ front).length = (front ++ back.val).length := by
    rw [List.length_append, List.length_append, List.length_replicate, back.property, Nat.add_comm]
  rw [← List.append_assoc, ← hlength, List.drop_left]

@[simp] theorem last32_val (bytes : Bytes32) : last32 bytes.val = bytes :=
  last32_append [] bytes

/-- A number as 32 bytes. -/
def number (n : Nat) : Bytes32 := ⟨leBytes 32 n, length_leBytes 32 n⟩

/-- Part of a key, appended to what it seals. -/
def tag (key : Bytes) : Bytes := (last32 key).val.take 16

@[simp] theorem length_tag (key : Bytes) : (tag key).length = 16 := by
  simp [tag, (last32 key).property]

def sealTagged (key plaintext : Bytes) : Bytes := plaintext ++ tag key

def openTagged (key ciphertext : Bytes) : Option Bytes :=
  if ciphertext.drop (ciphertext.length - 16) = tag key then
    some (ciphertext.take (ciphertext.length - 16))
  else none

/-- What was sealed under a key opens under it. -/
theorem openTagged_sealTagged (key plaintext : Bytes) :
    openTagged key (sealTagged key plaintext) = some plaintext := by
  simp [openTagged, sealTagged]

theorem length_sealTagged (key plaintext : Bytes) :
    (sealTagged key plaintext).length = plaintext.length + 16 := by
  simp [sealTagged]

/-- Everything but the digest. -/
def undigested : Primitives where
  sha256 := last32
  parseJson := Json.parse
  ed25519Public key := key
  ed25519Sign key message := key.val ++ (last32 message).val
  ed25519Verify key message signature := signature == key.val ++ (last32 message).val
  x25519Public secret := secret
  hpkeSeal recipient _ plaintext _ rng := some ((last32 rng).val, sealTagged recipient plaintext)
  hpkeOpen secret _ _ ciphertext _ := openTagged secret ciphertext
  hpkeKeypair rng := ((last32 rng).val, rng)
  aeadSeal key _ plaintext _ := some (sealTagged key.val plaintext)
  aeadOpen key _ ciphertext _ := openTagged key.val ciphertext
  hkdf _ key info := last32 (key.val.take 7 ++ info.drop 32 ++ List.replicate 8 0)

/-- The generation of a manifest; of anything else, its last bytes. -/
def digest (bytes : Bytes) : Bytes32 :=
  if bytes.head? = some 123 then
    match peekManifestHeader undigested bytes with
    | .ok header => number header.generation
    | .error _ => last32 bytes
  else last32 bytes

def primitives : Primitives := { undigested with sha256 := digest }

/-- **They keep every law.** -/
theorem lawful : Lawful primitives where
  json := fun v hv => Json.parse_write_of_readable hv
  aead_open := by
    rintro key nonce plaintext aad ciphertext ⟨⟩
    exact ⟨openTagged_sealTagged _ _, length_sealTagged _ _⟩
  sign_verify key message := by
    refine ⟨beq_self_eq_true (key.val ++ (last32 message).val), ?_⟩
    show (key.val ++ (last32 message).val).length = 64
    rw [List.length_append, key.property, (last32 message).property]
  hpke_open := by
    rintro secret info plaintext aad rng encapsulated ciphertext - ⟨⟩
    exact openTagged_sealTagged _ _
  hpke_length := by
    rintro recipient info plaintext aad rng encapsulated ciphertext ⟨⟩
    exact ⟨(last32 rng).property, length_sealTagged _ _⟩
  x25519_length := fun secret h => h

/-- Wrapping opens with the secret it was sealed for. -/
theorem hpkeInverts : HpkeInverts primitives :=
  fun _ _ _ _ _ _ _ hlength hseal => lawful.hpke_open hlength hseal

/-- Whatever does not begin with a brace is its own last bytes. -/
theorem digest_last32 {c : UInt8} {rest : Bytes} (h : c ≠ 123) :
    digest (c :: rest) = last32 (c :: rest) := by
  simp [digest, h]

/-! ## Commitments and ids do not collide -/

theorem number_injective {a b : Nat} (ha : a < 2 ^ 64) (hb : b < 2 ^ 64)
    (h : number a = number b) : a = b := by
  have hle : (2 : Nat) ^ 64 ≤ 256 ^ 32 := by decide
  exact leBytes_injective (Nat.lt_of_lt_of_le ha hle) (Nat.lt_of_lt_of_le hb hle)
    (congrArg Subtype.val h)

/-- A commitment gives the key away, so no two keys share one. -/
theorem commitKey_injective : Function.Injective (commitKey primitives) := by
  have hdigest : ∀ key : SecretKey,
      digest (domain "generation key commitment" ++ key.val) = key := by
    intro key
    rw [show domain "generation key commitment" ++ key.val
      = 103 :: ((domain "generation key commitment").tail ++ key.val) from rfl,
      digest_last32 (by decide)]
    exact last32_append (domain "generation key commitment") key
  intro a b h
  have := hexEncode_injective h
  simp only [primitives, hdigest] at this
  exact Subtype.ext this

/-- Reading a header needs no digest. -/
theorem peekManifestHeader_undigested (bytes : Bytes) :
    peekManifestHeader undigested bytes = peekManifestHeader primitives bytes := rfl

/-- The id of a stored manifest is its generation. -/
theorem objectId_encrypted {generationKey : SecretKey} {manifest : Manifest} {parts : SealParts}
    (h : Framed primitives generationKey manifest parts) :
    objectId primitives (parts.encrypted primitives generationKey manifest)
      = hexEncode (number manifest.generation).val := by
  have hpeek : peekManifestHeader undigested (parts.encrypted primitives generationKey manifest)
      = .ok (parts.header primitives generationKey manifest) := by
    rw [peekManifestHeader_undigested]
    exact h.peek lawful.json
  have hhead : (parts.encrypted primitives generationKey manifest).head? = some 123 :=
    Json.head?_write_obj _
  have hdigest : digest (parts.encrypted primitives generationKey manifest)
      = number manifest.generation := by
    rw [digest, if_pos hhead, hpeek]
    rfl
  rw [objectId, show primitives.sha256 = digest from rfl, hdigest]

/-! ## An honest device can seal -/

/-- The key file of a device with one secret for both of its keys. -/
def keyFile (root : Text) (secret : Bytes32) : KeyFile where
  formatVersion := 3
  repositoryRoot := root
  signingPrivateKey := base64Encode secret.val
  wrappingPrivateKey := base64Encode secret.val

/-- Its public half. -/
def device (root : Text) (secret : Bytes32) : PublicDevice where
  repositoryRoot := root
  deviceId := hexEncode secret.val
  signingPublicKey := base64Encode secret.val
  wrappingPublicKey := base64Encode secret.val

/-- The digest of a device's keys ends in them. -/
theorem digest_keys (purpose : Bytes) (hpurpose : purpose.head? = some 103) (secret : Bytes32) :
    digest (purpose ++ [0] ++ secret.val ++ secret.val) = secret := by
  have hhead : (purpose ++ [0] ++ secret.val ++ secret.val).head? = some 103 := by
    cases purpose with
    | nil => cases hpurpose
    | cons c rest => exact hpurpose
  rw [digest, if_neg (by rw [hhead]; decide)]
  exact last32_append _ _

/-- The public half is derived from the key file as the program derives it. -/
theorem publicDevice_keyFile (root : Text) (secret : Bytes32) :
    (keyFile root secret).publicDevice primitives = .ok (device root secret) := by
  have hid : deviceIdForPublicKeys primitives secret.val secret.val = hexEncode secret.val := by
    rw [deviceIdForPublicKeys, show primitives.sha256 = digest from rfl,
      digest_keys (text "git-remote-e2ee device id v3") rfl]
  simp only [KeyFile.publicDevice, except_bind_eq_ok, KeyFile.signingKey, KeyFile.wrappingKey,
    keyFile, decodeBase64, base64Decode_base64Encode, orBail_eq_ok, bailIf_eq_ok]
  refine ⟨secret, ⟨secret.val, rfl, toBytes32_val _⟩, secret.val,
    ⟨secret.val, rfl, (), by simp [secret.property], rfl⟩, ?_⟩
  show Except.ok _ = Except.ok _
  simp only [show primitives.ed25519Public secret = secret from rfl,
    show primitives.x25519Public secret.val = secret.val from rfl, hid]
  rfl

/-- An envelope that could stand in a header. -/
structure WellSized (pair : EnvelopePair) : Prop where
  encapsulated : pair.encapsulated.length = 32
  envelope : ∃ ciphertext, pair.envelope = ⟨base64Encode pair.encapsulated, base64Encode ciphertext⟩
    ∧ ciphertext.length = 48

theorem lexLe_eq_false {a b : Bytes} (h : lexLe a b = true) (hne : a ≠ b) : lexLe b a = false := by
  cases hba : lexLe b a with
  | false => rfl
  | true => exact absurd (lexLe_antisymm h hba) hne

/-- Envelopes in order, with different encapsulated keys, are laid out as required. -/
theorem validateEnvelopeLayoutFrom_sorted {pairs : List EnvelopePair} {previous : Option Bytes}
    (hsized : ∀ pair ∈ pairs, WellSized pair)
    (hsorted : pairs.Pairwise fun a b => lexLe b.encapsulated a.encapsulated = false)
    (hprevious : ∀ prior, previous = some prior →
      ∀ pair ∈ pairs, lexLe pair.encapsulated prior = false) :
    validateEnvelopeLayoutFrom previous (pairs.map EnvelopePair.envelope) = .ok () := by
  induction pairs generalizing previous with
  | nil => rfl
  | cons pair rest ih =>
    obtain ⟨hlength, ciphertext, henvelope, hciphertext⟩ := hsized pair List.mem_cons_self
    obtain ⟨hfirst, hrest⟩ := List.pairwise_cons.mp hsorted
    rw [List.map_cons, henvelope]
    simp only [validateEnvelopeLayoutFrom, decodeBase64As_encode, except_bind_eq_ok, bailIf_eq_ok]
    -- sizes, the order against the envelope before, and the rest
    refine ⟨_, rfl, _, rfl, (), ?_, (), ?_, ih (fun p hp => hsized p (List.mem_cons_of_mem _ hp))
      hrest ?_⟩
    · rw [hlength, hciphertext]
      decide
    · cases previous with
      | none => simp
      | some prior => simp [hprevious prior rfl pair List.mem_cons_self]
    · rintro prior ⟨⟩ p hp
      exact hfirst p hp

/-- A list of steps that all succeed succeeds as a whole. -/
theorem mapM_total {α β ε : Type} {l : List α} {f : α → Except ε β} {Q : α → β → Prop}
    (h : ∀ x ∈ l, ∃ y, f x = .ok y ∧ Q x y) :
    ∃ ys, l.mapM f = .ok ys ∧ List.Forall₂ Q l ys := by
  simp only [mapM_eq_ok]
  induction l with
  | nil => exact ⟨[], .nil, .nil⟩
  | cons x xs ih =>
    obtain ⟨y, hy, hq⟩ := h x List.mem_cons_self
    obtain ⟨ys, hys, hqs⟩ := ih fun z hz => h z (List.mem_cons_of_mem _ hz)
    exact ⟨y :: ys, .cons hy hys, .cons hq hqs⟩

/-- Draws with no encapsulated key twice. -/
def coins : Coins where
  seeds index := number (2 * index)
  dummyRngs index := number (2 * index + 1)
  dummyKeys _ := number 0
  dummyAads _ := number 0
  bodyNonce := ⟨List.replicate 24 0, List.length_replicate⟩
  headerNonce := ⟨List.replicate 24 0, List.length_replicate⟩

/-- The encapsulated key is the seed. -/
theorem wrapGenerationKeyWithSeed_eq {publicKey : Text} {wrapping : Bytes32}
    (h : base64Decode publicKey = some wrapping.val) (generationKey : SecretKey) (aad : Bytes)
    (seed : Bytes32) :
    wrapGenerationKeyWithSeed primitives publicKey generationKey aad seed
      = .ok (seed.val, sealTagged wrapping.val generationKey.val) := by
  simp only [wrapGenerationKeyWithSeed, decodeBase64, h, except_bind_eq_ok, orBail_eq_ok,
    bailIf_eq_ok]
  refine ⟨wrapping.val, rfl, (), by simp [wrapping.property], ?_⟩
  show some ((last32 seed.val).val, _) = _
  rw [last32_val]

/-- The envelope of a reader can always be sealed. -/
theorem readerEnvelope_total {d : DeviceRecord} {wrapping : Bytes32}
    (h : base64Decode d.pub.wrappingPublicKey = some wrapping.val) (manifest : Manifest)
    (generationKey : SecretKey) (commitment : Text) (index : Nat) :
    ∃ pair, readerEnvelope primitives coins manifest generationKey commitment index d = .ok pair
      ∧ WellSized pair ∧ pair.encapsulated = (number (2 * index)).val := by
  simp only [readerEnvelope, wrapGenerationKeyWithSeed_eq h]
  refine ⟨_, rfl, ⟨(number (2 * index)).property, _, rfl, ?_⟩, rfl⟩
  rw [length_sealTagged, generationKey.property]

/-- So can a dummy. -/
theorem paddingEnvelope_total (index : Nat) :
    ∃ pair, paddingEnvelope primitives coins index = .ok pair ∧ WellSized pair
      ∧ pair.encapsulated = (number (2 * index + 1)).val := by
  have hseal : dummyGenerationEnvelope primitives (number (2 * index + 1)) (number 0) (number 0)
      = .ok ((number (2 * index + 1)).val,
        sealTagged (last32 (number (2 * index + 1)).val).val (number 0).val) := by
    simp only [dummyGenerationEnvelope, orBail_eq_ok]
    show some ((last32 (number (2 * index + 1)).val).val, _) = _
    rw [last32_val]
    rfl
  simp only [paddingEnvelope, show coins.dummyRngs index = number (2 * index + 1) from rfl,
    show coins.dummyKeys index = number 0 from rfl,
    show coins.dummyAads index = number 0 from rfl, hseal]
  refine ⟨_, rfl, ⟨(number (2 * index + 1)).property, _, rfl, ?_⟩, rfl⟩
  rw [length_sealTagged, (number 0).property]

theorem map_eq_of_forall₂ {α β γ : Type} {f : α → γ} {g : β → γ} {xs : List α} {ys : List β}
    (h : List.Forall₂ (fun x y => g y = f x) xs ys) : ys.map g = xs.map f := by
  induction h with
  | nil => rfl
  | cons hxy _ ih => rw [List.map_cons, List.map_cons, hxy, ih]

/-- The draws of readers are even, those of padding odd, so none comes twice. -/
theorem encapsulated_nodup {n k : Nat} (hn : n ≤ 4096) (hk : k ≤ 4096) :
    ((List.range n).map (fun i => (number (2 * i)).val)
      ++ (List.range k).map fun i => (number (2 * i + 1)).val).Nodup := by
  have hinj : ∀ {a b : Nat}, a < 2 ^ 64 → b < 2 ^ 64 → (number a).val = (number b).val → a = b :=
    fun ha hb h => number_injective ha hb (Subtype.ext h)
  refine List.nodup_append.mpr ⟨?_, ?_, ?_⟩
  · refine List.Nodup.map_on (fun a ha b hb h => ?_) List.nodup_range
    rw [List.mem_range] at ha hb
    have := hinj (by omega) (by omega) h
    omega
  · refine List.Nodup.map_on (fun a ha b hb h => ?_) List.nodup_range
    rw [List.mem_range] at ha hb
    have := hinj (by omega) (by omega) h
    omega
  · intro x hx y hy hxy
    obtain ⟨a, ha, rfl⟩ := List.mem_map.mp hx
    obtain ⟨b, hb, rfl⟩ := List.mem_map.mp hy
    rw [List.mem_range] at ha hb
    have := hinj (by omega) (by omega) hxy
    omega

instance : Std.Total fun left right : EnvelopePair =>
    lexLe left.encapsulated right.encapsulated = true :=
  ⟨fun _ _ => lexLe_total _ _⟩

instance : IsTrans EnvelopePair fun left right =>
    lexLe left.encapsulated right.encapsulated = true :=
  ⟨fun _ _ _ => lexLe_trans⟩

/-- **Envelopes can be built** for every policy with at most 4096 readers. -/
theorem buildEnvelopes_total {policy : PolicyState} {count : Nat}
    (hreaders : activeReaders policy ≠ [])
    (hcount : paddedEnvelopeCount (activeReaders policy).length = .ok count)
    (hkeys : ∀ d ∈ activeReaders policy, ∃ wrapping : Bytes32,
      base64Decode d.pub.wrappingPublicKey = some wrapping.val)
    (manifest : Manifest) (generationKey : SecretKey) (commitment : Text) :
    ∃ pairs : List EnvelopePair,
      buildEnvelopes primitives coins policy manifest generationKey commitment
        = .ok (pairs.map EnvelopePair.envelope, pairs.map EnvelopePair.entry)
      ∧ pairs.length = count ∧ (∀ pair ∈ pairs, WellSized pair)
      ∧ pairs.Pairwise fun a b => lexLe b.encapsulated a.encapsulated = false := by
  obtain ⟨hle, -, hmax⟩ := paddedEnvelopeCount_bounds hcount
  have hmax' : count ≤ 4096 := hmax
  obtain ⟨real, hreal, hrealOk⟩ := mapM_total (l := (activeReaders policy).zipIdx)
    (f := fun x => readerEnvelope primitives coins manifest generationKey commitment x.2 x.1)
    (Q := fun x pair => WellSized pair ∧ pair.encapsulated = (number (2 * x.2)).val) (by
      rintro ⟨d, index⟩ hx
      have hd : d ∈ activeReaders policy := (List.mem_zipIdx hx).2.2 ▸ List.getElem_mem _
      obtain ⟨wrapping, hw⟩ := hkeys d hd
      exact readerEnvelope_total hw manifest generationKey commitment index)
  obtain ⟨padding, hpadding, hpaddingOk⟩ := mapM_total (l := List.range (count - real.length))
    (f := paddingEnvelope primitives coins)
    (Q := fun i pair => WellSized pair ∧ pair.encapsulated = (number (2 * i + 1)).val)
    fun i _ => paddingEnvelope_total i
  have hrealLength : real.length = (activeReaders policy).length := by
    rw [← hrealOk.length_eq, List.length_zipIdx]
  have hpaddingLength : padding.length = count - real.length := by
    rw [← hpaddingOk.length_eq, List.length_range]
  have hsized : ∀ pair ∈ real ++ padding, WellSized pair := by
    intro pair hpair
    rcases List.mem_append.mp hpair with hr | hp
    · obtain ⟨x, -, hsized, -⟩ := forall₂_exists_left hrealOk hr
      exact hsized
    · obtain ⟨i, -, hsized, -⟩ := forall₂_exists_left hpaddingOk hp
      exact hsized
  -- the sort is strict because no encapsulated key comes twice
  have hnodup : ((real ++ padding).map EnvelopePair.encapsulated).Nodup := by
    have hindices : (activeReaders policy).zipIdx.map Prod.snd = List.range real.length := by
      rw [List.zipIdx_map_snd, hrealLength, List.range_eq_range']
    have hrealKeys : real.map EnvelopePair.encapsulated
        = (List.range real.length).map fun i => (number (2 * i)).val := by
      rw [← hindices, List.map_map]
      exact map_eq_of_forall₂ (hrealOk.imp fun _ _ h => h.2)
    have hpaddingKeys := map_eq_of_forall₂ (hpaddingOk.imp fun _ _ h => h.2)
    rw [List.map_append, hrealKeys, hpaddingKeys]
    exact encapsulated_nodup (by omega) (by omega)
  refine ⟨(real ++ padding).insertionSort fun left right =>
    lexLe left.encapsulated right.encapsulated = true, ?_, ?_, ?_, ?_⟩
  · simp only [buildEnvelopes, except_bind_eq_ok, bailIf_eq_ok]
    exact ⟨(), hreaders, count, hcount, real, hreal, padding, hpadding, rfl⟩
  · rw [List.length_insertionSort, List.length_append]
    omega
  · exact fun pair hpair => hsized pair ((List.mem_insertionSort _).mp hpair)
  · have hsorted := List.pairwise_insertionSort (fun left right : EnvelopePair =>
      lexLe left.encapsulated right.encapsulated = true) (real ++ padding)
    have hdistinct := List.pairwise_map.mp
      (((List.perm_insertionSort (fun left right : EnvelopePair =>
        lexLe left.encapsulated right.encapsulated = true) (real ++ padding)).map
          EnvelopePair.encapsulated).nodup_iff.mpr hnodup)
    exact (hsorted.and hdistinct).imp fun h => lexLe_eq_false h.1 h.2

/-- The search for a power of two returns one. -/
theorem nextPowerOfTwoFrom_pow {fuel j n k : Nat}
    (h : nextPowerOfTwoFrom fuel (2 ^ j) n = some k) : ∃ i, i < j + fuel ∧ k = 2 ^ i := by
  induction fuel generalizing j with
  | zero => cases h
  | succ fuel ih =>
    simp only [nextPowerOfTwoFrom] at h
    split at h
    · cases h
      exact ⟨j, by omega, rfl⟩
    · rw [← Nat.pow_succ'] at h
      obtain ⟨i, hi, rfl⟩ := ih h
      exact ⟨i, by omega, rfl⟩

/-- The padded count passes the check of the public header. -/
theorem isPowerOfTwo_padded {readers count : Nat} (h : paddedEnvelopeCount readers = .ok count) :
    isPowerOfTwo count = true := by
  simp only [paddedEnvelopeCount, except_bind_eq_ok, orBail_eq_ok] at h
  obtain ⟨power, hpower, ⟨⟩, -, h⟩ := h
  cases h
  obtain ⟨i, hi, rfl⟩ := nextPowerOfTwoFrom_pow (j := 0) hpower
  -- the least count is a power of two itself
  have hmax : max (2 ^ i) MIN_GENERATION_ENVELOPES = 2 ^ max i 2 := by
    rw [show MIN_GENERATION_ENVELOPES = 2 ^ 2 from rfl]
    rcases Nat.le_total i 2 with hle | hle
    · rw [Nat.max_eq_right (Nat.pow_le_pow_right (by decide) hle : 2 ^ i ≤ 2 ^ 2),
        Nat.max_eq_right hle]
    · rw [Nat.max_eq_left (Nat.pow_le_pow_right (by decide) hle : 2 ^ 2 ≤ 2 ^ i),
        Nat.max_eq_left hle]
  rw [hmax, isPowerOfTwo, List.any_eq_true]
  exact ⟨max i 2, List.mem_range.mpr (by omega), beq_self_eq_true _⟩

/-- A subkey begins with its generation key, the generation and the kind. -/
def subkey (generationKey : SecretKey) (generation : Nat) (kind : SubkeyKind) (ordinal : Nat) :
    SecretKey :=
  last32 (generationKey.val.take 7 ++ (leBytes 8 generation ++ [kind.code] ++ leBytes 8 ordinal)
    ++ List.replicate 8 0)

/-- Deriving a subkey drops the root from the context and keeps the rest. -/
theorem deriveSubkey_eq {root : Bytes32} (generationKey : SecretKey) (generation : Nat)
    (kind : SubkeyKind) (ordinal : Nat) :
    deriveSubkey primitives generationKey (hexEncode root.val) generation kind ordinal
      = .ok (subkey generationKey generation kind ordinal) := by
  have hinfo : (subkeyInfo root.val generation kind ordinal).drop 32
      = leBytes 8 generation ++ [kind.code] ++ leBytes 8 ordinal := by
    rw [subkeyInfo, List.append_assoc, List.append_assoc, List.drop_left' root.property,
      List.append_assoc]
  simp only [deriveSubkey, hexDecode_hexEncode, except_bind_eq_ok, orBail_eq_ok, bailIf_eq_ok]
  refine ⟨root.val, rfl, (), by simp [root.property], ?_⟩
  show Except.ok (last32 (generationKey.val.take 7
    ++ (subkeyInfo root.val generation kind ordinal).drop 32 ++ List.replicate 8 0)) = _
  rw [hinfo, subkey]

theorem sealWithKey_total (key : SecretKey) (nonce : Nonce) (plaintext aad : Bytes) :
    ∃ envelope, sealWithKey primitives key nonce plaintext aad = .ok envelope :=
  ⟨SYMMETRIC_MAGIC ++ nonce.val ++ sealTagged key.val plaintext, rfl⟩

theorem signDomain_keyFile (root : Text) (secret : Bytes32) (purpose bytes : Bytes) :
    ∃ signature, (keyFile root secret).signDomain primitives purpose bytes = .ok signature := by
  simp only [KeyFile.signDomain, KeyFile.signingKey, keyFile, decodeBase64,
    base64Decode_base64Encode, except_bind_eq_ok, orBail_eq_ok]
  exact ⟨_, secret, ⟨secret.val, rfl, toBytes32_val _⟩, rfl⟩

/-- The header that sealing builds passes the public check. -/
theorem validatePublicHeader_sealed {P : Primitives} {parts : SealParts}
    {generationKey : SecretKey} {manifest : Manifest} {root : Bytes32} {readers : Nat}
    (hversion : manifest.formatVersion = FORMAT_VERSION)
    (hroot : manifest.repositoryRoot = hexEncode root.val)
    (hcount : paddedEnvelopeCount readers = .ok parts.envelopes.length) :
    validatePublicHeader (parts.header P generationKey manifest) = .ok () := by
  obtain ⟨-, hmin, hmax⟩ := paddedEnvelopeCount_bounds hcount
  rw [validatePublicHeader, if_neg (by simp [SealParts.header, hversion])]
  simp only [SealParts.header, except_bind_eq_ok, bailIf_eq_ok, hroot, commitKey,
    isHex64_hexEncode, isPowerOfTwo_padded hcount]
  refine ⟨(), by simp, (), by simp, (), by simp, ?_⟩
  rintro (h | h | h)
  · omega
  · omega
  · cases h

/-- The last two steps of sealing, after everything the header depends on. -/
theorem sealed_of_unsigned {P : Primitives} {coins : Coins} {key : KeyFile} {policy : PolicyState}
    {generationKey : SecretKey} {manifest : Manifest} (unsigned : SealParts)
    (hmatches : validateManifestPolicy manifest policy = .ok ())
    (hintroduction : validateIntroduction P manifest.authorization manifest policy = .ok ())
    (hdelta : validatePackDelta manifest = .ok ())
    (henvelopes : buildEnvelopes P coins policy manifest generationKey (commitKey P generationKey)
      = .ok (unsigned.envelopes, unsigned.audit))
    (hbody : ∃ bodyKey, deriveSubkey P generationKey manifest.repositoryRoot manifest.generation
        .manifestBody 0 = .ok bodyKey
      ∧ sealWithKey P bodyKey coins.bodyNonce (SealParts.body manifest).toJson.write
        (manifestBodyAad manifest.repositoryRoot manifest.generation)
          = .ok unsigned.bodyCiphertext)
    (hsigner : key.deviceId P = .ok unsigned.signerId)
    (hpublic : validatePublicHeader (unsigned.header P generationKey manifest) = .ok ())
    (hlayout : validateEnvelopeLayout (unsigned.header P generationKey manifest) = .ok ())
    (hsign : ∀ bytes, ∃ signature,
      key.signDomain P MANIFEST_SIGNATURE_DOMAIN bytes = .ok signature)
    (hseal : ∀ plaintext aad, ∃ sealedKey ciphertext, deriveSubkey P generationKey
        manifest.repositoryRoot manifest.generation .sealedHeader 0 = .ok sealedKey
      ∧ sealWithKey P sealedKey coins.headerNonce plaintext aad = .ok ciphertext) :
    ∃ parts, Sealed P coins key policy generationKey manifest parts := by
  obtain ⟨envelopes, audit, bodyCiphertext, signerId, _, _⟩ := unsigned
  -- neither the header nor the content depends on the signature or the sealed header
  obtain ⟨signature, hsignature⟩ := hsign (manifestSignedBytes
    ((SealParts.mk envelopes audit bodyCiphertext signerId [] []).header P generationKey
      manifest).toJson.write
    ((SealParts.mk envelopes audit bodyCiphertext signerId [] []).content manifest).toJson.write
    ((SealParts.mk envelopes audit bodyCiphertext signerId [] []).header P generationKey
      manifest).bodyDigest)
  obtain ⟨sealedKey, ciphertext, hkey, hciphertext⟩ := hseal
    ((SealParts.mk envelopes audit bodyCiphertext signerId signature []).sealedHeader
      manifest).toJson.write
    ((SealParts.mk envelopes audit bodyCiphertext signerId signature []).header P generationKey
      manifest).toJson.write
  exact ⟨⟨envelopes, audit, bodyCiphertext, signerId, signature, ciphertext⟩, hmatches,
    hintroduction, hdelta, henvelopes, hbody, hsigner, hpublic, hlayout, hsignature,
      sealedKey, hkey,
    hciphertext⟩

/-- **An honest device can seal** whatever passes the checks on the manifest itself. -/
theorem seals {policy : PolicyState} {manifest : Manifest} {root : Bytes32} {count : Nat}
    (hmatches : validateManifestPolicy manifest policy = .ok ())
    (hintroduction :
      validateIntroduction primitives manifest.authorization manifest policy = .ok ())
    (hdelta : validatePackDelta manifest = .ok ())
    (hroot : manifest.repositoryRoot = hexEncode root.val)
    (hreaders : activeReaders policy ≠ [])
    (hcount : paddedEnvelopeCount (activeReaders policy).length = .ok count)
    (hkeys : ∀ d ∈ activeReaders policy, ∃ wrapping : Bytes32,
      base64Decode d.pub.wrappingPublicKey = some wrapping.val)
    (generationKey : SecretKey) (keyRoot : Text) (secret : Bytes32) :
    ∃ parts, Sealed primitives coins (keyFile keyRoot secret) policy generationKey manifest
      parts := by
  obtain ⟨pairs, hpairs, hlength, hsized, hsorted⟩ := buildEnvelopes_total hreaders hcount hkeys
    manifest generationKey (commitKey primitives generationKey)
  have hsubkey : ∀ kind, deriveSubkey primitives generationKey manifest.repositoryRoot
      manifest.generation kind 0 = .ok (subkey generationKey manifest.generation kind 0) := by
    intro kind
    rw [hroot]
    exact deriveSubkey_eq _ _ _ _
  obtain ⟨bodyCiphertext, hbody⟩ := sealWithKey_total
    (subkey generationKey manifest.generation .manifestBody 0) coins.bodyNonce
    (SealParts.body manifest).toJson.write
    (manifestBodyAad manifest.repositoryRoot manifest.generation)
  refine sealed_of_unsigned ⟨pairs.map EnvelopePair.envelope, pairs.map EnvelopePair.entry,
    bodyCiphertext, (device keyRoot secret).deviceId, [], []⟩ hmatches hintroduction hdelta hpairs
    ⟨_, hsubkey _, hbody⟩
    (publicDevice_ok (publicDevice_keyFile keyRoot secret)).2.2.2.2.1
    (validatePublicHeader_sealed (matchesPolicy_ok hmatches).1 hroot
      (by rw [List.length_map, hlength]; exact hcount))
    (validateEnvelopeLayoutFrom_sorted hsized hsorted fun prior h => (by cases h))
    (signDomain_keyFile keyRoot secret MANIFEST_SIGNATURE_DOMAIN) fun plaintext aad => ?_
  obtain ⟨ciphertext, hciphertext⟩ := sealWithKey_total
    (subkey generationKey manifest.generation .sealedHeader 0) coins.headerNonce plaintext aad
  exact ⟨_, ciphertext, hsubkey _, hciphertext⟩

end Reference

end GitE2EE

import GitE2EE.Proof.Accepted
import GitE2EE.Proof.Messages

/-!
# A cipher that opens only what was sealed

The results about runs of publications assume of the cipher that it opens a ciphertext of
the run only as what it was sealed as (`IdealAead`). Such a cipher can be had from any
libraries and any run: it looks the call up in what the run has sealed.

* `Publication.reopened`: sealing opens nothing, so the publications of the run are
  publications with this cipher too.
* `idealAead_opening`: it is ideal for the run, if no ciphertext comes from two calls.
* `opensAs_self`: every message that is no pack still opens in its own place.

With the reference libraries, creating a repository and pushing to it is such a run.
-/

namespace GitE2EE

open Wire Effect

variable {P : Primitives} {messages : List Message}

/-! ## The cipher -/

/-- This call opens this segment of this message. -/
def Message.Answers (P : Primitives) (key : SecretKey) (nonce : Nonce) (ciphertext aad : Bytes)
    (m : Message) (s : Segment) : Prop :=
  m.subkey P = .ok key ∧ s.nonce = nonce ∧ s.ciphertext = ciphertext ∧ m.aad = aad

instance Message.decidableAnswers (P : Primitives) (key : SecretKey) (nonce : Nonce)
    (ciphertext aad : Bytes) (m : Message) (s : Segment) :
    Decidable (m.Answers P key nonce ciphertext aad s) :=
  inferInstanceAs (Decidable (_ ∧ _))

/-- The libraries, with a cipher that opens what these messages were sealed as. -/
def Primitives.opening (P : Primitives) (messages : List Message) : Primitives :=
  { P with
    aeadOpen := fun key nonce ciphertext aad => messages.findSome? fun m =>
      (m.segments.find? fun s => m.Answers P key nonce ciphertext aad s).map Segment.plain }

theorem aeadOpen_opening {key : SecretKey} {nonce : Nonce} {ciphertext aad plain : Bytes}
    (h : (P.opening messages).aeadOpen key nonce ciphertext aad = some plain) :
    ∃ m ∈ messages, ∃ s ∈ m.segments, m.Answers P key nonce ciphertext aad s := by
  obtain ⟨m, hm, hfound⟩ := List.exists_of_findSome?_eq_some h
  obtain ⟨s, hs, -⟩ := Option.map_eq_some_iff.mp hfound
  have hanswers := List.find?_some hs
  exact ⟨m, hm, s, List.mem_of_find?_eq_some hs, of_decide_eq_true hanswers⟩

theorem opening_aeadOpen {m : Message} {s : Segment} {key : SecretKey} (hm : m ∈ messages)
    (hs : s ∈ m.segments) (hkey : m.subkey P = .ok key) :
    ∃ plain, (P.opening messages).aeadOpen key s.nonce s.ciphertext m.aad = some plain := by
  rw [← Option.isSome_iff_exists]
  refine List.findSome?_isSome_iff.mpr ⟨m, hm, ?_⟩
  rw [Option.isSome_map, List.find?_isSome]
  exact ⟨s, hs, decide_eq_true ⟨hkey, rfl, rfl, rfl⟩⟩

/-- **It is ideal for these messages**, if no ciphertext comes from two calls of the cipher. -/
theorem idealAead_opening
    (hapart : ∀ m ∈ messages, ∀ s ∈ m.segments, ∀ m' ∈ messages, ∀ s' ∈ m'.segments,
      s.ciphertext = s'.ciphertext →
        m.subkey P = m'.subkey P ∧ s.nonce = s'.nonce ∧ m.aad = m'.aad)
    (htag : ∀ m ∈ messages, ∀ s ∈ m.segments,
      s.ciphertext.length = s.plain.length + PACK_STREAM_TAG_SIZE) :
    IdealAead (P.opening messages) messages where
  bound m hm s hs key nonce aad plain hopen := by
    obtain ⟨m', hm', s', hs', hkey, hnonce, hciphertext, haad⟩ := aeadOpen_opening hopen
    obtain ⟨hsubkey, hsame, hcontext⟩ := hapart m' hm' s' hs' m hm s hs hciphertext
    exact ⟨hsubkey.symm.trans hkey, hnonce.symm.trans hsame, haad.symm.trans hcontext⟩
  tag := htag

/-! ## The same publications -/

/-- The segments of a pack do not depend on what the cipher opens. -/
theorem streamSegments_opening {key : SecretKey} {nonce : StreamNonce} {aad : Bytes}
    (chunks : List Bytes) : ∀ segment,
    streamSegments (P.opening messages) key nonce aad segment chunks
      = streamSegments P key nonce aad segment chunks := by
  induction chunks with
  | nil => exact fun _ => rfl
  | cons chunk rest ih => exact fun segment => congrArg (_ :: ·) (ih (segment + 1))

theorem sealSegments_opening {key : SecretKey} {nonce : StreamNonce} {aad : Bytes}
    (chunks : List Bytes) : ∀ segment size,
    sealSegments (P.opening messages) key nonce aad segment size chunks
      = sealSegments P key nonce aad segment size chunks := by
  induction chunks with
  | nil => exact fun _ _ => rfl
  | cons chunk rest ih =>
    intro segment size
    simp only [sealSegments, ih]
    rfl

theorem validateDevicesFrom_opening (devices : List DeviceRecord) : ∀ ids labels,
    validateDevicesFrom (P.opening messages) ids labels devices
      = validateDevicesFrom P ids labels devices := by
  induction devices with
  | nil => exact fun _ _ => rfl
  | cons device rest ih =>
    intro ids labels
    simp only [validateDevicesFrom, ih]
    rfl

theorem validateIntroduction_opening (authorization : ManifestAuthorization) (manifest : Manifest)
    (policy : PolicyState) :
    validateIntroduction (P.opening messages) authorization manifest policy
      = validateIntroduction P authorization manifest policy := by
  have hparse : ∀ bytes, PolicyState.parse (P.opening messages) bytes
      = PolicyState.parse P bytes := by
    intro bytes
    simp only [PolicyState.parse, validateDevices, validateDevicesFrom_opening]
    rfl
  cases authorization <;> simp only [validateIntroduction, validateIntroducedPolicy, hparse]

/-- A publication, made with the cipher that opens these messages. -/
def Publication.reopened (pub : Publication P) (messages : List Message) :
    Publication (P.opening messages) where
  coins := pub.coins
  signer := pub.signer
  policy := pub.policy
  generationKey := pub.generationKey
  manifest := pub.manifest
  parts := pub.parts
  linkNonce := pub.linkNonce
  previousKey := pub.previousKey
  packs := pub.packs
  encodable := pub.encodable
  parent := pub.parent
  sealed := ⟨pub.sealed.matchesPolicy,
    (validateIntroduction_opening _ _ _).trans pub.sealed.introduction, pub.sealed.delta,
    pub.sealed.envelopes, pub.sealed.body, pub.sealed.signer, pub.sealed.publicHeader,
    pub.sealed.layout, pub.sealed.signature, pub.sealed.sealedHeader⟩
  linked := pub.linked
  described := pub.described
  packed pack hpack := by
    refine ⟨(pub.packed pack hpack).1, ?_⟩
    rw [← (pub.packed pack hpack).2]
    simp only [sealPackStream, sealSegments_opening]
    rfl

/-- It seals the same messages. -/
theorem Publication.messages_reopened (pub : Publication P) (messages : List Message) :
    (pub.reopened messages).messages = pub.messages := by
  have hpacks : ∀ pack : PackSeal, (pub.reopened messages).pack pack = pub.pack pack := by
    intro pack
    simp only [Publication.pack, streamSegments_opening]
    rfl
  have hmap : (pub.reopened messages).packs.map (pub.reopened messages).pack
      = pub.packs.map pub.pack := List.map_congr_left fun pack _ => hpacks pack
  rw [Publication.messages, Publication.messages, hmap]
  rfl

theorem sealedBy_reopened (run : List (Publication P)) (messages : List Message) :
    sealedBy (run.map fun pub => pub.reopened messages) = sealedBy run := by
  rw [sealedBy, List.flatMap_map]
  exact List.flatMap_congr fun pub _ => pub.messages_reopened messages

/-! ## Messages in their own places -/

/-- A message in a frame: its one call of the cipher, and how it is stored. -/
structure Message.Framed (P : Primitives) (m : Message) (key : SecretKey) (s : Segment) :
    Prop where
  segments : m.segments = [s]
  subkey : m.subkey P = .ok key
  aead : P.aeadSeal key s.nonce s.plain m.aad = some s.ciphertext
  stored : m.stored = SYMMETRIC_MAGIC ++ s.nonce.val ++ s.ciphertext
  kind : m.kind ≠ .pack
  ordinal : m.ordinal = 0

/-- Without packs, everything a publication seals is framed. -/
theorem Publication.framed_of_mem (pub : Publication P) (hpacks : pub.packs = []) {m : Message}
    (h : m ∈ pub.messages) : ∃ key s, m.Framed P key s := by
  rcases pub.shape_of_mem h with ⟨kind, nonce, plain, aad, stored, rfl, hlabel, key, hkey, hseal⟩ |
    ⟨pack, hpack, -⟩
  · obtain ⟨ciphertext, haead, rfl⟩ := sealWithKey_ok hseal
    have hdrop := drop_frame nonce ciphertext
    refine ⟨key, ⟨nonce, plain, ciphertext⟩, ⟨?_, hkey, haead, rfl, hlabel.ne_pack, rfl⟩⟩
    rw [Publication.framed, hdrop]
  · rw [hpacks] at hpack
    cases hpack

/-- **What was sealed opens in its own place.** -/
theorem opensAs_self (hP : Lawful P) {m : Message} {key : SecretKey} {s : Segment}
    (hm : m ∈ messages) (h : m.Framed P key s) : m.OpensAs (P.opening messages) m := by
  obtain ⟨-, hlength⟩ := hP.aead_open h.aead
  obtain ⟨plain, hopen⟩ := opening_aeadOpen hm (by rw [h.segments]; exact List.mem_singleton_self s)
    h.subkey
  refine ⟨key, h.subkey, ?_⟩
  rw [if_neg h.kind, h.stored]
  refine ⟨plain, ?_⟩
  simp only [openWithKey, except_bind_eq_ok, orBail_eq_ok]
  exact ⟨(s.nonce, s.ciphertext), splitEnvelope_frame _ _ (by omega), hopen⟩

/-! ## Creating a repository and pushing to it -/

namespace Reference

/-- The part of a subkey that its ciphertexts end with tells the first two generations and
the kinds apart. -/
theorem tag_subkey_injective : ∀ g < 2, ∀ g' < 2, ∀ kind kind' : SubkeyKind,
    tag (subkey (number g) g kind 0).val = tag (subkey (number g') g' kind' 0).val →
      g = g' ∧ kind = kind' := by
  have hall : ∀ g < 2, ∀ g' < 2,
      ∀ kind ∈ [SubkeyKind.manifestBody, .pack, .predecessorLink, .sealedHeader],
      ∀ kind' ∈ [SubkeyKind.manifestBody, .pack, .predecessorLink, .sealedHeader],
        tag (subkey (number g) g kind 0).val = tag (subkey (number g') g' kind' 0).val →
          g = g' ∧ kind = kind' := by decide
  intro g hg g' hg' kind kind'
  exact hall g hg g' hg' kind (by cases kind <;> decide) kind' (by cases kind' <;> decide)

/-- A message of the owner in one of the first two generations. -/
structure Early (m : Message) : Prop where
  framed : ∃ key s, m.Framed primitives key s
  root : m.root = root
  generation : m.generation < 2
  generationKey : m.generationKey = number m.generation

theorem Early.subkey {m : Message} (h : Early m) :
    m.subkey primitives = .ok (subkey (number m.generation) m.generation m.kind 0) := by
  obtain ⟨key, s, hframed⟩ := h.framed
  rw [Message.subkey, h.generationKey, h.root, hframed.ordinal]
  exact deriveSubkey_eq _ _ _ _

/-- Messages of one place have the same generation key and info. -/
theorem Early.keyed_eq {m m' : Message} (h : Early m) (h' : Early m')
    (hgeneration : m.generation = m'.generation) (hkind : m.kind = m'.kind) :
    m.keyed = m'.keyed := by
  obtain ⟨_, _, hframed⟩ := h.framed
  obtain ⟨_, _, hframed'⟩ := h'.framed
  rw [Message.keyed, Message.keyed, h.generationKey, h'.generationKey, h.root, h'.root,
    hframed.ordinal, hframed'.ordinal, hgeneration, hkind]

/-- Their ciphertexts tell them apart. -/
theorem Early.keyed_eq_of_ciphertext {m m' : Message} (h : Early m) (h' : Early m')
    {s s' : Segment} (hs : s ∈ m.segments) (hs' : s' ∈ m'.segments)
    (heq : s.ciphertext = s'.ciphertext) : m.keyed = m'.keyed := by
  obtain ⟨key, t, hframed⟩ := h.framed
  obtain ⟨key', t', hframed'⟩ := h'.framed
  rw [hframed.segments, List.mem_singleton] at hs
  rw [hframed'.segments, List.mem_singleton] at hs'
  subst hs hs'
  obtain rfl := Except.ok.inj (hframed.subkey.symm.trans h.subkey)
  obtain rfl := Except.ok.inj (hframed'.subkey.symm.trans h'.subkey)
  have hseal := Option.some.inj hframed.aead
  have hseal' := Option.some.inj hframed'.aead
  rw [← hseal, ← hseal'] at heq
  obtain ⟨-, htag⟩ := List.append_inj' heq (by rw [length_tag, length_tag])
  obtain ⟨hgeneration, hkind⟩ :=
    tag_subkey_injective _ h.generation _ h'.generation _ _ htag
  exact h.keyed_eq h' hgeneration hkind

theorem Early.keyed_eq_of_subkey {m m' : Message} (h : Early m) (h' : Early m') {key : SecretKey}
    (hkey : m.subkey primitives = .ok key) (hkey' : m'.subkey primitives = .ok key) :
    m.keyed = m'.keyed := by
  have heq := Except.ok.inj ((h.subkey.symm.trans hkey).trans (hkey'.symm.trans h'.subkey))
  obtain ⟨hgeneration, hkind⟩ := tag_subkey_injective _ h.generation _ h'.generation _ _
    (congrArg (fun key : SecretKey => tag key.val) heq)
  exact h.keyed_eq h' hgeneration hkind

theorem packs_eq_nil {pub : Publication primitives} (h : pub.manifest.newPacks = []) :
    pub.packs = [] := by
  rw [pub.described, List.map_eq_nil_iff] at h
  exact h

theorem early_of_mem {pub : Publication primitives} (hroot : pub.manifest.repositoryRoot = root)
    (hgeneration : pub.manifest.generation < 2)
    (hkey : pub.generationKey = number pub.manifest.generation)
    (hpacks : pub.manifest.newPacks = []) {m : Message} (hm : m ∈ pub.messages) : Early m := by
  obtain ⟨hk, hr, hg⟩ := pub.of_mem hm
  exact ⟨pub.framed_of_mem (packs_eq_nil hpacks) hm, hr.trans hroot, by rw [hg]; exact hgeneration,
    by rw [hk, hg, hkey]⟩

/-- The owner creates a repository and pushes to it. -/
theorem owner_operations : ∃ genesis push : SealedManifest,
    genesis.ByOperation primitives ∧ push.ByOperation primitives
      ∧ (genesis.generationKey = number 0 ∧ genesis.manifest.generation = 0
        ∧ genesis.manifest.repositoryRoot = root ∧ genesis.manifest.newPacks = []
        ∧ genesis.manifest.previous = none)
      ∧ push.generationKey = number 1 ∧ push.manifest.generation = 1
        ∧ push.manifest.repositoryRoot = root ∧ push.manifest.newPacks = []
        ∧ push.manifest.previous.isSome = true
        ∧ push.manifest.predecessorKeyWrap.isSome = true := by
  obtain ⟨prepared, object, p, hprepared, hsealed, -, hmanifest, hsample, -, -, -, htotal, -⟩ :=
    genesis_published
  obtain ⟨_, hpublishes, -⟩ := publishes_genesis lawful hprepared hsealed ownerKey_owns
    (isUtf8_text _)
  obtain ⟨-, _, -, -, hid⟩ := sealNext_eq_ok.mp hsealed
  obtain ⟨_, _, _, -, -, heq⟩ := genesisManifest_ok hprepared
  obtain ⟨next, parts, hnext, hsealedNext, hpublishesNext, -⟩ := refs_published hsample (by decide)
    [] .empty (by rw [htotal]; decide) rfl (fun pack h => by cases h) (fun e h => by cases h)
  obtain ⟨-, -, hroot, hgeneration, hpacks, -, -, hprevious, -, wrap, hwrap, -⟩ :=
    prepareRefs_ok hnext
  -- a push that packs nothing stores no object
  have hstored (m : Machine Directory (Option CheckoutProgress)) :
      storePacks primitives (Directory.storage primitives "shelf") checkout (draws 1) p 1 .empty m
        = (.ok [], m) := rfl
  refine ⟨_, _, .genesis hprepared hsealed hpublishes.encodable,
    .refs ⟨object, hid⟩ (hstored ⟨.empty, ⟨none, []⟩, none⟩) hnext hsealedNext
      hpublishesNext.encodable, ⟨rfl, ?_, ?_, ?_, ?_⟩,
    rfl, hgeneration, hroot.trans hsample.repositoryRoot, hpacks, ?_, ?_⟩
  · rw [heq]; rfl
  · rw [heq]; rfl
  · rw [heq]; rfl
  · rw [heq]; rfl
  · rw [hprevious]; rfl
  · rw [hwrap]; rfl

/-- The run of the two: the five messages it seals. -/
theorem owner_run : ∃ run : List (Publication primitives),
    run.map (fun pub => pub.manifest.generation) = [0, 1]
      ∧ (sealedBy run).map Message.kind
        = [.manifestBody, .sealedHeader, .manifestBody, .sealedHeader, .predecessorLink]
      ∧ run.Pairwise (fun p q => p.generationKey ≠ q.generationKey)
      ∧ ∀ m ∈ sealedBy run, Early m := by
  obtain ⟨genesis, push, hgenesis, hpush, ⟨hkey, hgen, hroot, hpacks, hfirst⟩, hkey', hgen',
    hroot', hpacks', hprevious, hwrap⟩ := owner_operations
  have hapart : number 0 ≠ number 1 := by decide
  obtain ⟨run, hrun, hkeys⟩ := @run_of_operations primitives [genesis, push]
    (by simp [hgenesis, hpush]) (by simp [hkey, hkey', hapart])
  obtain ⟨pub, rest, rfl, rfl, hrest⟩ := List.map_eq_cons_iff.mp hrun
  obtain ⟨pub', rest', rfl, rfl, hnil⟩ := List.map_eq_cons_iff.mp hrest
  obtain rfl := List.map_eq_nil_iff.mp hnil
  simp only [Publication.sealedManifest] at hkey hgen hroot hpacks hfirst
  simp only [Publication.sealedManifest] at hkey' hgen' hroot' hpacks' hprevious hwrap
  obtain ⟨id, hprevious⟩ := Option.isSome_iff_exists.mp hprevious
  obtain ⟨wrap, hwrap⟩ := Option.isSome_iff_exists.mp hwrap
  have hnone := packs_eq_nil hpacks
  have hnone' := packs_eq_nil hpacks'
  -- the genesis has no link, and the push has one
  have hlink : pub.link = [] := by
    unfold Publication.link
    rw [hfirst]
    cases pub.manifest.predecessorKeyWrap <;> rfl
  have hlink' : pub'.link.map Message.kind = [.predecessorLink] := by
    unfold Publication.link
    rw [hwrap, hprevious]
    rfl
  refine ⟨[pub, pub'], by simp [hgen, hgen'], ?_, hkeys, fun m hm => ?_⟩
  · simp [sealedBy, Publication.messages, hlink, hlink', hnone, hnone', Publication.body,
      Publication.header, Publication.framed]
  · obtain ⟨source, hsource, hmem⟩ := List.mem_flatMap.mp hm
    rcases List.mem_pair.mp hsource with rfl | rfl
    · exact early_of_mem hroot (by rw [hgen]; decide) (by rw [hgen]; exact hkey) hpacks hmem
    · exact early_of_mem hroot' (by rw [hgen']; decide) (by rw [hgen']; exact hkey') hpacks' hmem

/-- For such a run, the cipher that looks up what was sealed is ideal. -/
theorem early_ideal {run : List (Publication primitives)}
    (hkeys : run.Pairwise fun p q => p.generationKey ≠ q.generationKey)
    (hearly : ∀ m ∈ sealedBy run, Early m) :
    IdealAead (primitives.opening (sealedBy run)) (sealedBy run)
      ∧ SeparatesKeys (primitives.opening (sealedBy run)) (sealedBy run) := by
  refine ⟨idealAead_opening (fun m hm s hs m' hm' s' hs' h => ?_) fun m hm s hs => ?_,
    fun m hm m' hm' key hkey hkey' =>
      (hearly m hm).keyed_eq_of_subkey (hearly m' hm') hkey hkey'⟩
  · have hkeyed := (hearly m hm).keyed_eq_of_ciphertext (hearly m' hm') hs hs' h
    obtain rfl := List.inj_on_of_nodup_map (sealedBy_nodup hkeys) hm hm' hkeyed
    -- a message in a frame has one segment
    obtain ⟨_, t, hframed⟩ := (hearly m hm).framed
    rw [hframed.segments, List.mem_singleton] at hs hs'
    subst hs hs'
    exact ⟨rfl, rfl, rfl⟩
  · obtain ⟨_, t, hframed⟩ := (hearly m hm).framed
    rw [hframed.segments, List.mem_singleton] at hs
    subst hs
    exact (lawful.aead_open hframed.aead).2

/-- Creating a repository and pushing to it, with an ideal cipher: of the five messages each
opens in its own place and in no other. -/
theorem contexts_separate_owner : ∃ (P : Primitives) (run : List (Publication P)),
    run.map (fun pub => pub.manifest.generation) = [0, 1]
      ∧ (sealedBy run).map Message.kind
        = [.manifestBody, .sealedHeader, .manifestBody, .sealedHeader, .predecessorLink]
      ∧ IdealAead P (sealedBy run) ∧ SeparatesKeys P (sealedBy run)
      ∧ ∀ m ∈ sealedBy run, ∀ place ∈ sealedBy run, m.OpensAs P place ↔ m = place := by
  obtain ⟨run, hgenerations, hkinds, hkeys, hearly⟩ := owner_run
  obtain ⟨hideal, hseparates⟩ := early_ideal hkeys hearly
  -- the same run under the cipher that opens only what the run has sealed
  have hsame := sealedBy_reopened run (sealedBy run)
  refine ⟨primitives.opening (sealedBy run), run.map fun pub => pub.reopened (sealedBy run), ?_⟩
  rw [hsame]
  refine ⟨?_, hkinds, hideal, hseparates, fun m hm place hplace => ⟨fun hopens => ?_, ?_⟩⟩
  · rw [List.map_map]
    exact hgenerations
  · have hkeys' : (run.map fun pub => pub.reopened (sealedBy run)).Pairwise
        fun p q => p.generationKey ≠ q.generationKey := List.pairwise_map.mpr hkeys
    have hopen := (contexts_separate (primitives.opening (sealedBy run))).opens _ hkeys'
    rw [hsame] at hopen
    exact (hopen hideal m hm place hplace hopens).2 hseparates
  · rintro rfl
    obtain ⟨key, s, hframed⟩ := (hearly m hm).framed
    exact opensAs_self lawful hm hframed

end Reference

end GitE2EE

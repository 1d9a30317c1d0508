import GitE2EE.Proof.Contexts
import GitE2EE.Proof.Publishing
import Mathlib.Data.Set.List

/-!
# What publications seal

A publication seals its body, its header, its predecessor link and its packs under
subkeys of one generation key. Over any run of publications with distinct generation
keys no two of these messages share a generation key and an HKDF info. With an ideal
cipher, what was sealed as one of them does not open in the place of another.

Every operation that seals a manifest makes a publication of it (`ByOperation.publication`),
so this speaks of what the code seals.
-/

namespace GitE2EE

open Wire Effect

variable {P : Primitives}

/-! ## The segments of a message -/

/-- One call of the cipher. -/
structure Segment where
  nonce : Nonce
  plain : Bytes
  ciphertext : Bytes

/-- The calls of the cipher for a pack stream, from `segment` on. -/
def streamSegments (P : Primitives) (key : SecretKey) (nonce : StreamNonce) (aad : Bytes) :
    Nat → List Bytes → List Segment
  | _, [] => []
  | segment, chunk :: rest =>
    let position := segmentNonce nonce segment rest.isEmpty
    ⟨position, chunk, (P.aeadSeal key position chunk aad).getD []⟩
      :: streamSegments P key nonce aad (segment + 1) rest

section

variable {key : SecretKey} {nonce : StreamNonce} {aad : Bytes}

/-- What the sealer writes is its segments, one after the other. -/
theorem sealSegments_segments (chunks : List Bytes) : ∀ (segment size : Nat) (cipher : Bytes)
    (total : Nat), sealSegments P key nonce aad segment size chunks = .ok (cipher, total) →
    cipher = (streamSegments P key nonce aad segment chunks).flatMap Segment.ciphertext
      ∧ ∀ s ∈ streamSegments P key nonce aad segment chunks,
        P.aeadSeal key s.nonce s.plain aad = some s.ciphertext := by
  induction chunks with
  | nil =>
    intro segment size cipher total h
    cases h
  | cons chunk rest ih =>
    intro segment size cipher total h
    simp only [sealSegments, except_bind_eq_ok, orBail_eq_ok] at h
    obtain ⟨size', -, _, -, sealed, hseal, h⟩ := h
    rw [streamSegments, hseal]
    dsimp only [Option.getD_some]
    rw [List.flatMap_cons, List.forall_mem_cons]
    by_cases hrest : rest.isEmpty = true
    · rw [if_pos hrest] at h
      cases h
      rw [List.isEmpty_iff] at hrest
      subst hrest
      refine ⟨by simp [streamSegments], hseal, by simp [streamSegments]⟩
    · rw [if_neg hrest] at h
      simp only [except_bind_eq_ok] at h
      obtain ⟨⟨more, total'⟩, hmore, h⟩ := h
      cases h
      obtain ⟨hcipher, hall⟩ := ih _ _ _ _ hmore
      exact ⟨by rw [hcipher], hseal, hall⟩

/-- Segments that are a tag longer than their chunks: the size of the stream. -/
theorem length_streamSegments (fuel : Nat) : ∀ (bytes : Bytes) (segment : Nat),
    bytes.length ≤ fuel →
    (∀ s ∈ streamSegments P key nonce aad segment (chunksOf PACK_STREAM_CHUNK_SIZE fuel bytes),
      s.ciphertext.length = s.plain.length + PACK_STREAM_TAG_SIZE) →
    ((streamSegments P key nonce aad segment (chunksOf PACK_STREAM_CHUNK_SIZE fuel bytes)).flatMap
      Segment.ciphertext).length
      = bytes.length + packSegments bytes.length * PACK_STREAM_TAG_SIZE := by
  induction fuel with
  | zero =>
    intro bytes segment hfuel _
    rw [List.length_eq_zero_iff.mp (Nat.le_zero.mp hfuel)]
    rfl
  | succ fuel ih =>
    intro bytes segment hfuel htags
    by_cases hne : bytes = []
    · subst hne
      rfl
    have hpos : 0 < bytes.length := List.length_pos_iff.mpr hne
    have hone : 0 < PACK_STREAM_CHUNK_SIZE := by decide
    have hrest : (bytes.drop PACK_STREAM_CHUNK_SIZE).length
        = bytes.length - PACK_STREAM_CHUNK_SIZE := List.length_drop
    have hchunk : (bytes.take PACK_STREAM_CHUNK_SIZE).length
        = min PACK_STREAM_CHUNK_SIZE bytes.length := List.length_take
    -- one segment more for each chunk, and one tag with it
    rw [chunksOf_succ hne, streamSegments] at htags ⊢
    rw [List.forall_mem_cons] at htags
    have hmore := ih (bytes.drop PACK_STREAM_CHUNK_SIZE) (segment + 1) (by omega) htags.2
    have hfirst := htags.1
    dsimp only at hfirst
    rw [List.flatMap_cons, List.length_append, hmore, hfirst, packSegments_succ hpos, hrest,
      Nat.succ_mul]
    omega

end

theorem packSegments_mono {a b : Nat} (h : a ≤ b) : packSegments a ≤ packSegments b :=
  Nat.div_le_div_right (by omega)

/-- The size of a pack's ciphertext tells the size of the pack. -/
theorem packSize_injective {a b : Nat}
    (h : a + packSegments a * PACK_STREAM_TAG_SIZE = b + packSegments b * PACK_STREAM_TAG_SIZE) :
    a = b := by
  rcases Nat.lt_trichotomy a b with hlt | rfl | hlt
  · have := Nat.mul_le_mul_right PACK_STREAM_TAG_SIZE (packSegments_mono (Nat.le_of_lt hlt))
    omega
  · rfl
  · have := Nat.mul_le_mul_right PACK_STREAM_TAG_SIZE (packSegments_mono (Nat.le_of_lt hlt))
    omega

/-! ## What the opener read -/

section

variable {σ : Type} {write : Bytes → Action Error σ Unit} {key : SecretKey} {nonce : StreamNonce}
variable {aad : Bytes}

theorem readExact_ok {reader rest : Reader} {count : Nat} {what : String} {bytes : Bytes}
    (h : reader.readExact count what = .ok (bytes, rest)) :
    count ≤ reader.bytes.length ∧ bytes = reader.bytes.take count
      ∧ rest.bytes = reader.bytes.drop count := by
  unfold Reader.readExact at h
  by_cases hle : count ≤ reader.bytes.length
  · rw [if_pos hle] at h
    cases h
    exact ⟨hle, rfl, rfl⟩
  · rw [if_neg hle] at h
    cases h

/-- A segment that opened. -/
theorem openSegment_ok {segment plainLength : Nat} {last : Bool} {reader rest : Reader}
    {plain chunk : Bytes}
    (h : openSegment P key nonce aad segment last plainLength reader = .ok (plain, rest, chunk)) :
    P.aeadOpen key (segmentNonce nonce segment last) chunk aad = some plain
      ∧ chunk = reader.bytes.take (plainLength + PACK_STREAM_TAG_SIZE)
      ∧ chunk ++ rest.bytes = reader.bytes := by
  simp only [openSegment, except_bind_eq_ok, orBail_eq_ok, bailIf_eq_ok] at h
  obtain ⟨⟨chunk', rest'⟩, hread, plain', hopen, _, -, h⟩ := h
  cases h
  obtain ⟨-, hchunk, hrest⟩ := readExact_ok hread
  exact ⟨hopen, hchunk, by rw [hchunk, hrest, List.take_append_drop]⟩

/-- The loop loses no byte. -/
theorem openSegments_bytes (count : Nat) : ∀ (segment remaining : Nat) (reader reader' : Reader)
    (consumed consumed' : Bytes) (s s' : σ),
    openSegments P write key nonce aad count segment remaining reader consumed s
      = (.ok (reader', consumed'), s') →
    consumed' ++ reader'.bytes = consumed ++ reader.bytes := by
  induction count with
  | zero =>
    intro segment remaining reader reader' consumed consumed' s s' h
    cases h
    rfl
  | succ count ih =>
    intro segment remaining reader reader' consumed consumed' s s' h
    rw [openSegments, Action.bind_eq_ok] at h
    obtain ⟨⟨plain, rest, chunk⟩, s₁, hopen, h⟩ := h
    obtain ⟨hsegment, -⟩ := Action.lift_eq_ok.mp hopen
    obtain ⟨_, s₂, -, h⟩ := Action.bind_eq_ok.mp h
    rw [ih _ _ _ _ _ _ _ _ h, List.append_assoc, (openSegment_ok hsegment).2.2]

/-- The loop opens its first segment. -/
theorem openSegments_first {count segment remaining : Nat} {reader reader' : Reader}
    {consumed consumed' : Bytes} {s s' : σ}
    (h : openSegments P write key nonce aad (count + 1) segment remaining reader consumed s
      = (.ok (reader', consumed'), s')) :
    ∃ last plain, P.aeadOpen key (segmentNonce nonce segment last)
      (reader.bytes.take (min remaining PACK_STREAM_CHUNK_SIZE + PACK_STREAM_TAG_SIZE)) aad
        = some plain := by
  rw [openSegments, Action.bind_eq_ok] at h
  obtain ⟨⟨plain, rest, chunk⟩, s₁, hopen, -⟩ := h
  obtain ⟨hsegment, -⟩ := Action.lift_eq_ok.mp hopen
  obtain ⟨hplain, hchunk, -⟩ := openSegment_ok hsegment
  exact ⟨_, plain, hchunk ▸ hplain⟩

/-- **A pack that opened**: its size, its header, and its first segment. -/
theorem openPackStream_ok {bytes baseAad : Bytes} {n size : Nat} {id : Text} {s s' : σ}
    (h : openPackStream P write key ⟨bytes, none⟩ baseAad n id s = (.ok size, s')) :
    bytes.length = PACK_STREAM_HEADER_SIZE + n + packSegments n * PACK_STREAM_TAG_SIZE
      ∧ ∃ nonce last plain, parsePackHeader (bytes.take PACK_STREAM_HEADER_SIZE) = .ok nonce
        ∧ P.aeadOpen key (segmentNonce nonce 0 last)
          ((bytes.drop PACK_STREAM_HEADER_SIZE).take
            (min n PACK_STREAM_CHUNK_SIZE + PACK_STREAM_TAG_SIZE))
          (packStreamAad baseAad (bytes.take PACK_STREAM_HEADER_SIZE)) = some plain := by
  rw [openPackStream, Action.bind_eq_ok] at h
  obtain ⟨⟨header, rest, nonce, expected⟩, s₁, hheader, h⟩ := h
  obtain ⟨hfields, -⟩ := Action.lift_eq_ok.mp hheader
  simp only [openPackHeader, except_bind_eq_ok, bailIf_eq_ok] at hfields
  obtain ⟨_, hnonzero, ⟨header', rest'⟩, hread, nonce', hnonce, expected', hexpected, hfields⟩ :=
    hfields
  cases hfields
  obtain ⟨-, rfl, hrest⟩ := readExact_ok hread
  have hsize : expected = PACK_STREAM_HEADER_SIZE + n + packSegments n * PACK_STREAM_TAG_SIZE := by
    simp only [packCiphertextSize, except_bind_eq_ok, bailIf_eq_ok] at hexpected
    obtain ⟨_, -, _, -, hexpected⟩ := hexpected
    cases hexpected
    rfl
  have hsegments := packSegments_succ (Nat.pos_of_ne_zero hnonzero)
  -- from here on only the number of segments matters, not how it is computed
  obtain ⟨segments, hcount⟩ : ∃ segments, packSegments n = segments + 1 := ⟨_, hsegments⟩
  rw [hcount] at h hsize ⊢
  obtain ⟨⟨reader', consumed⟩, s₂, hopen, h⟩ := Action.bind_eq_ok.mp h
  obtain ⟨hend, -⟩ := Action.lift_eq_ok.mp h
  obtain ⟨last, plain, hplain⟩ := openSegments_first hopen
  have hbytes := openSegments_bytes _ _ _ _ _ _ _ _ _ hopen
  simp only [checkPackEnd, Reader.expectEnd, except_bind_eq_ok, bailIf_eq_ok] at hend
  obtain ⟨_, ⟨_, hempty, -⟩, _, hlength, -⟩ := hend
  rw [not_not] at hempty hlength
  rw [hempty, List.append_nil, hrest, List.take_append_drop] at hbytes
  refine ⟨by rw [← hsize, ← hlength, hbytes], nonce, last, plain, hnonce, ?_⟩
  rw [hrest] at hplain
  exact hplain

end

/-! ## Publications -/

/-- A message sealed under a generation key: the arguments of its subkey, the associated
data of its segments, and the framed ciphertext that is stored. -/
structure Message where
  generationKey : SecretKey
  root : Text
  generation : Nat
  kind : SubkeyKind
  ordinal : Nat
  aad : Bytes
  segments : List Segment
  stored : Bytes

/-- A pack as `storePack` seals it. -/
structure PackSeal where
  ordinal : Nat
  nonce : StreamNonce
  source : Reader
  key : SecretKey
  result : StreamSealResult

/-- A publication: what the code sealed for a manifest, under one generation key. -/
structure Publication (P : Primitives) where
  coins : Coins
  signer : KeyFile
  policy : PolicyState
  generationKey : SecretKey
  manifest : Manifest
  parts : SealParts
  linkNonce : Nonce
  previousKey : SecretKey
  packs : List PackSeal
  /-- The manifest is one the code's types can hold. -/
  encodable : manifest.Encodable
  /-- Its parent is named by its id. -/
  parent : ∀ id, manifest.previous = some id → ∃ bytes, id = objectId P bytes
  /-- `sealManifest` succeeded, with these parts. -/
  sealed : Sealed P coins signer policy generationKey manifest parts
  linked : ∀ wrap, manifest.predecessorKeyWrap = some wrap → ∃ previousId,
    manifest.previous = some previousId ∧ wrapPredecessorKey P linkNonce generationKey previousKey
      manifest.repositoryRoot manifest.generation previousId = .ok wrap
  described : manifest.newPacks
    = packs.map fun pack => describePack manifest.generation pack.ordinal pack.result
  packed : ∀ pack ∈ packs, deriveSubkey P generationKey manifest.repositoryRoot
      manifest.generation .pack pack.ordinal = .ok pack.key
    ∧ sealPackStream P pack.key pack.nonce pack.source
      (packAad manifest.repositoryRoot manifest.generation pack.ordinal) = .ok pack.result

namespace Publication

/-- A message of one segment, framed by `sealWithKey`. -/
def framed (pub : Publication P) (kind : SubkeyKind) (nonce : Nonce) (plain aad stored : Bytes) :
    Message where
  generationKey := pub.generationKey
  root := pub.manifest.repositoryRoot
  generation := pub.manifest.generation
  kind := kind
  ordinal := 0
  aad := aad
  segments := [⟨nonce, plain, stored.drop 32⟩]
  stored := stored

def body (pub : Publication P) : Message :=
  pub.framed .manifestBody pub.coins.bodyNonce (SealParts.body pub.manifest).toJson.write
    (manifestBodyAad pub.manifest.repositoryRoot pub.manifest.generation) pub.parts.bodyCiphertext

def header (pub : Publication P) : Message :=
  pub.framed .sealedHeader pub.coins.headerNonce (pub.parts.sealedHeader pub.manifest).toJson.write
    (pub.parts.header P pub.generationKey pub.manifest).toJson.write
    pub.parts.sealedHeaderCiphertext

def link (pub : Publication P) : List Message :=
  match pub.manifest.predecessorKeyWrap, pub.manifest.previous with
  | some wrap, some previousId =>
    [pub.framed .predecessorLink pub.linkNonce pub.previousKey.val
      (predecessorLinkAad pub.manifest.repositoryRoot pub.manifest.generation previousId)
      ((base64Decode wrap).getD [])]
  | _, _ => []

def pack (pub : Publication P) (pack : PackSeal) : Message :=
  let aad := packStreamAad
    (packAad pub.manifest.repositoryRoot pub.manifest.generation pack.ordinal)
    (packHeader pack.nonce)
  { generationKey := pub.generationKey
    root := pub.manifest.repositoryRoot
    generation := pub.manifest.generation
    kind := .pack
    ordinal := pack.ordinal
    aad
    segments := streamSegments P pack.key pack.nonce aad 0
      (chunksOf PACK_STREAM_CHUNK_SIZE (pack.source.bytes.length + 1) pack.source.bytes)
    stored := pack.result.ciphertext }

/-- Everything a publication seals under its generation key. -/
def messages (pub : Publication P) : List Message :=
  pub.body :: pub.header :: pub.link ++ pub.packs.map pub.pack

end Publication

/-- Everything a run of publications seals. -/
def sealedBy (run : List (Publication P)) : List Message := run.flatMap Publication.messages

/-! ### Generation key and info -/

/-- What the subkey of a message is derived from. -/
def Message.keyed (m : Message) : SecretKey × Option Bytes :=
  (m.generationKey, subkeyInfoOf m.root m.generation m.kind m.ordinal)

namespace Publication

theorem root_isHex64 (pub : Publication P) : isHex64 pub.manifest.repositoryRoot = true := by
  have h := pub.sealed.publicHeader
  unfold validatePublicHeader at h
  split at h
  · cases h
  · simp only [except_bind_eq_ok, bailIf_eq_ok] at h
    obtain ⟨_, hroot, -⟩ := h
    exact Bool.not_eq_false _ ▸ hroot

/-- The ordinals of the packs count from zero. -/
theorem ordinal_eq (pub : Publication P) {i : Nat} (hi : i < pub.packs.length) :
    (pub.packs.get ⟨i, hi⟩).ordinal = i := by
  have hdense := denseDelta_of_validate pub.sealed.delta
  have hlength : pub.manifest.newPacks.length = pub.packs.length := by
    rw [pub.described, List.length_map]
  obtain ⟨-, hordinal, -⟩ := hdense i (by rw [hlength]; exact hi)
  simp only [pub.described, List.get_eq_getElem, List.getElem_map] at hordinal
  exact hordinal

theorem ordinal_lt (pub : Publication P) {pack : PackSeal} (h : pack ∈ pub.packs) :
    pack.ordinal < 2 ^ 64 := by
  have hmem : describePack pub.manifest.generation pack.ordinal pack.result
      ∈ pub.manifest.newPacks := by
    rw [pub.described]
    exact List.mem_map_of_mem h
  exact (pub.encodable.newPacks _ hmem).2.2.2

/-- The messages of a publication share everything a subkey depends on but the kind and
the ordinal. -/
theorem of_mem (pub : Publication P) {m : Message} (h : m ∈ pub.messages) :
    m.generationKey = pub.generationKey ∧ m.root = pub.manifest.repositoryRoot
      ∧ m.generation = pub.manifest.generation := by
  rw [messages, List.mem_append, List.mem_cons, List.mem_cons] at h
  rcases h with (rfl | rfl | h) | h
  · exact ⟨rfl, rfl, rfl⟩
  · exact ⟨rfl, rfl, rfl⟩
  · unfold link at h
    split at h
    · rw [List.mem_singleton] at h
      subst h
      exact ⟨rfl, rfl, rfl⟩
    · cases h
  · obtain ⟨pack, -, rfl⟩ := List.mem_map.mp h
    exact ⟨rfl, rfl, rfl⟩

theorem ordinals_eq_range (pub : Publication P) :
    pub.packs.map PackSeal.ordinal = List.range pub.packs.length := by
  refine List.ext_getElem (by simp) fun i hi hi' => ?_
  rw [List.getElem_map, List.getElem_range]
  exact pub.ordinal_eq (by rw [List.length_map] at hi; exact hi)

/-- Each kind but the packs occurs at most once, and the packs have their ordinals. -/
theorem kinds_nodup (pub : Publication P) :
    (pub.messages.map fun m => (m.kind, m.ordinal)).Nodup := by
  have hpacks : (pub.packs.map pub.pack).map (fun m => (m.kind, m.ordinal))
      = (List.range pub.packs.length).map fun i => (SubkeyKind.pack, i) := by
    rw [← pub.ordinals_eq_range, List.map_map, List.map_map]
    rfl
  have hlink : pub.link.map (fun m => (m.kind, m.ordinal)) = []
      ∨ pub.link.map (fun m => (m.kind, m.ordinal)) = [(.predecessorLink, 0)] := by
    unfold link
    split
    · exact .inr rfl
    · exact .inl rfl
  have hdistinct : ((List.range pub.packs.length).map fun i => (SubkeyKind.pack, i)).Nodup :=
    List.nodup_range.map fun i j h => (Prod.mk.inj h).2
  rw [messages, List.map_append, List.map_cons, List.map_cons, hpacks]
  rcases hlink with hlink | hlink
  · rw [hlink]
    simp [body, header, framed, hdistinct]
  · rw [hlink]
    simp [body, header, framed, hdistinct]

theorem ordinal_lt_of_mem (pub : Publication P) {m : Message} (h : m ∈ pub.messages) :
    m.ordinal < 2 ^ 64 := by
  rw [messages, List.mem_append, List.mem_cons, List.mem_cons] at h
  rcases h with (rfl | rfl | h) | h
  · exact (by decide : 0 < 2 ^ 64)
  · exact (by decide : 0 < 2 ^ 64)
  · unfold link at h
    split at h
    · rw [List.mem_singleton] at h
      subst h
      exact (by decide : 0 < 2 ^ 64)
    · cases h
  · obtain ⟨pack, hpack, rfl⟩ := List.mem_map.mp h
    exact pub.ordinal_lt hpack

/-- No two messages of a publication have the info of their subkeys in common. -/
theorem keyed_nodup (pub : Publication P) : (pub.messages.map Message.keyed).Nodup := by
  obtain ⟨_, hkey, -⟩ := pub.sealed.body
  simp only [deriveSubkey, except_bind_eq_ok, orBail_eq_ok] at hkey
  obtain ⟨root, hroot, -⟩ := hkey
  have hkinds : pub.messages.Pairwise fun m m' => (m.kind, m.ordinal) ≠ (m'.kind, m'.ordinal) :=
    List.pairwise_map.mp pub.kinds_nodup
  refine List.pairwise_map.mpr (hkinds.imp_of_mem fun {m m'} hm hm' hne h => hne ?_)
  obtain ⟨-, hr, hg⟩ := pub.of_mem hm
  obtain ⟨-, hr', hg'⟩ := pub.of_mem hm'
  have hinfo := (Prod.mk.inj h).2
  rw [subkeyInfoOf, subkeyInfoOf, hr, hr', hg, hg', hroot] at hinfo
  obtain ⟨-, -, hkind, hordinal⟩ := subkeyInfo_injective rfl pub.encodable.generation
    pub.encodable.generation (pub.ordinal_lt_of_mem hm) (pub.ordinal_lt_of_mem hm')
    (Option.some.inj hinfo)
  rw [hkind, hordinal]

end Publication

/-- **No two messages of a run share a generation key and an info**, if its publications
drew different generation keys. -/
theorem sealedBy_nodup {run : List (Publication P)}
    (hrun : run.Pairwise fun p q => p.generationKey ≠ q.generationKey) :
    ((sealedBy run).map Message.keyed).Nodup := by
  rw [sealedBy, List.map_flatMap, List.nodup_flatMap]
  refine ⟨fun pub _ => pub.keyed_nodup, hrun.imp fun {p q} hne => ?_⟩
  intro keyed hp hq
  obtain ⟨m, hm, rfl⟩ := List.mem_map.mp hp
  obtain ⟨m', hm', heq⟩ := List.mem_map.mp hq
  have hkey : m'.generationKey = m.generationKey := (Prod.mk.inj heq).1
  exact hne ((p.of_mem hm).1.symm.trans (hkey.symm.trans (q.of_mem hm').1))

/-! ### Opening in another's place -/

theorem sealWithKey_ok {key : SecretKey} {nonce : Nonce} {plain aad stored : Bytes}
    (h : sealWithKey P key nonce plain aad = .ok stored) :
    ∃ ciphertext, P.aeadSeal key nonce plain aad = some ciphertext
      ∧ stored = SYMMETRIC_MAGIC ++ nonce.val ++ ciphertext := by
  simp only [sealWithKey, except_bind_eq_ok, orBail_eq_ok] at h
  obtain ⟨ciphertext, hseal, h⟩ := h
  cases h
  exact ⟨ciphertext, hseal, rfl⟩

theorem sealWithKey_magic {key : SecretKey} {nonce : Nonce} {plain aad stored : Bytes}
    (h : sealWithKey P key nonce plain aad = .ok stored) :
    stored.take 8 = SYMMETRIC_MAGIC := by
  obtain ⟨ciphertext, -, rfl⟩ := sealWithKey_ok h
  rw [List.append_assoc]
  exact List.take_left' rfl

theorem openWithKey_ok {key : SecretKey} {stored aad plain : Bytes}
    (h : openWithKey P key stored aad = .ok plain) :
    stored.take 8 = SYMMETRIC_MAGIC
      ∧ ∃ nonce, P.aeadOpen key nonce (stored.drop 32) aad = some plain := by
  simp only [openWithKey, except_bind_eq_ok, orBail_eq_ok] at h
  obtain ⟨⟨nonce, ciphertext⟩, hsplit, hopen⟩ := h
  unfold splitEnvelope at hsplit
  split at hsplit
  · cases hsplit
  · rename_i hframe
    split at hsplit
    · cases hsplit
      rw [not_or, not_not] at hframe
      exact ⟨hframe.2, _, hopen⟩
    · cases hsplit

namespace Publication

/-- The associated data of the messages of one segment. -/
inductive Label (pub : Publication P) : SubkeyKind → Bytes → Prop where
  | body : Label pub .manifestBody
      (manifestBodyAad pub.manifest.repositoryRoot pub.manifest.generation)
  | header : Label pub .sealedHeader
      (pub.parts.header P pub.generationKey pub.manifest).toJson.write
  | link {previousId : Text} (h : pub.manifest.previous = some previousId) :
      Label pub .predecessorLink
        (predecessorLinkAad pub.manifest.repositoryRoot pub.manifest.generation previousId)

/-- A message is framed under a label of its own, or it is a pack. -/
theorem shape_of_mem (pub : Publication P) {m : Message} (h : m ∈ pub.messages) :
    (∃ kind nonce plain aad stored, m = pub.framed kind nonce plain aad stored
      ∧ pub.Label kind aad
      ∧ ∃ key, deriveSubkey P pub.generationKey pub.manifest.repositoryRoot pub.manifest.generation
          kind 0 = .ok key ∧ sealWithKey P key nonce plain aad = .ok stored)
    ∨ ∃ pack ∈ pub.packs, m = pub.pack pack := by
  rw [messages, List.mem_append, List.mem_cons, List.mem_cons] at h
  rcases h with (rfl | rfl | h) | h
  · exact .inl ⟨_, _, _, _, _, rfl, .body, pub.sealed.body⟩
  · exact .inl ⟨_, _, _, _, _, rfl, .header, pub.sealed.sealedHeader⟩
  · -- the link of a manifest with a predecessor, which is stored in Base64
    unfold link at h
    split at h
    · rename_i wrap previousId hwrap hprevious
      rw [List.mem_singleton] at h
      subst h
      obtain ⟨previousId', hprevious', hlink⟩ := pub.linked wrap hwrap
      rw [hprevious] at hprevious'
      cases hprevious'
      simp only [wrapPredecessorKey, except_bind_eq_ok] at hlink
      obtain ⟨key, hkey, stored, hseal, hlink⟩ := hlink
      cases hlink
      refine .inl ⟨_, _, _, _, _, rfl, .link hprevious, key, hkey, ?_⟩
      rw [base64Decode_base64Encode]
      exact hseal
    · cases h
  · obtain ⟨pack, hpack, rfl⟩ := List.mem_map.mp h
    exact .inr ⟨pack, hpack, rfl⟩

theorem root_fits (pub : Publication P) : FitsField pub.manifest.repositoryRoot := by
  have h := pub.root_isHex64
  simp only [isHex64, Bool.and_eq_true, beq_iff_eq] at h
  rw [FitsField, h.1]
  decide

theorem previous_fits (pub : Publication P) {id : Text} (h : pub.manifest.previous = some id) :
    FitsField id := by
  obtain ⟨bytes, rfl⟩ := pub.parent id h
  rw [FitsField, objectId, length_hexEncode, (P.sha256 bytes).property]
  decide

theorem header_encodable (pub : Publication P) :
    (pub.parts.header P pub.generationKey pub.manifest).Encodable :=
  (pub.sealed.framed pub.encodable.generation pub.encodable.previous).header

theorem header_write_injective {header header' : ManifestHeader} (h : header.Encodable)
    (h' : header'.Encodable) (heq : header.toJson.write = header'.toJson.write) :
    header = header' := by
  have hparse := Json.parse_write_of_readable (ManifestHeader.readable h 123)
  rw [heq, Json.parse_write_of_readable (ManifestHeader.readable h' 123)] at hparse
  have hread := ManifestHeader.ofJson_toJson h
  rw [← Option.some.inj hparse, ManifestHeader.ofJson_toJson h'] at hread
  exact (Option.some.inj hread).symm

/-- A header is no associated data of another kind: those begin with a domain. -/
theorem header_write_ne {header : ManifestHeader} {c : Context} :
    header.toJson.write ≠ c.bytes := by
  intro h
  have hheader : header.toJson.write.head? = some 123 := Json.head?_write_obj _
  obtain ⟨rest, hrest⟩ := c.domain_prefix
  have hdomain : (domain c.purpose ++ rest).head? = some 103 := rfl
  rw [hrest, ← h, hheader] at hdomain
  cases hdomain

/-- Where a message with this associated data belongs. -/
def place : Context → Option (SubkeyKind × Text × Nat)
  | .manifestBody root generation => some (.manifestBody, root, generation)
  | .predecessorLink root generation _ => some (.predecessorLink, root, generation)
  | _ => none

/-- A label is a context that says where it belongs, or the header itself. -/
theorem Label.context {pub : Publication P} {kind : SubkeyKind} {aad : Bytes}
    (h : pub.Label kind aad) :
    (∃ c : Context, c.Fits ∧ aad = c.bytes
      ∧ place c = some (kind, pub.manifest.repositoryRoot, pub.manifest.generation))
    ∨ kind = .sealedHeader
      ∧ aad = (pub.parts.header P pub.generationKey pub.manifest).toJson.write := by
  cases h with
  | body => exact .inl ⟨.manifestBody _ _, ⟨pub.root_fits, pub.encodable.generation⟩, rfl, rfl⟩
  | header => exact .inr ⟨rfl, rfl⟩
  | link hprevious =>
    exact .inl ⟨.predecessorLink _ _ _, ⟨pub.root_fits, pub.encodable.generation,
      pub.previous_fits hprevious⟩, rfl, rfl⟩

/-- Equal labels, equal places in a repository. -/
theorem Label.agree {pub pub' : Publication P} {kind kind' : SubkeyKind} {aad : Bytes}
    (h : pub.Label kind aad) (h' : pub'.Label kind' aad) :
    kind = kind' ∧ pub.manifest.repositoryRoot = pub'.manifest.repositoryRoot
      ∧ pub.manifest.generation = pub'.manifest.generation := by
  rcases h.context with ⟨c, hfits, hbytes, hplace⟩ | ⟨hkind, hbytes⟩
  · rcases h'.context with ⟨c', hfits', hbytes', hplace'⟩ | ⟨-, hbytes'⟩
    · have hsame := Context.bytes_injective hfits hfits' (hbytes.symm.trans hbytes')
      rw [hsame, hplace'] at hplace
      simp only [Option.some.injEq, Prod.mk.injEq] at hplace
      exact ⟨hplace.1.symm, hplace.2.1.symm, hplace.2.2.symm⟩
    · exact absurd (hbytes'.symm.trans hbytes) header_write_ne
  · rcases h'.context with ⟨c', -, hbytes', -⟩ | ⟨hkind', hbytes'⟩
    · exact absurd (hbytes.symm.trans hbytes') header_write_ne
    · have hheader := header_write_injective pub.header_encodable pub'.header_encodable
        (hbytes.symm.trans hbytes')
      exact ⟨hkind.trans hkind'.symm, congrArg ManifestHeader.repositoryRoot hheader,
        congrArg ManifestHeader.generation hheader⟩

end Publication

/-- The key a message is sealed under. -/
def Message.subkey (P : Primitives) (m : Message) : Result SecretKey :=
  deriveSubkey P m.generationKey m.root m.generation m.kind m.ordinal

/-- What is stored of `m` opens where the reader expects `place`: under the subkey of
`place`, and with the associated data the reader has for it. -/
def Message.OpensAs (P : Primitives) (m place : Message) : Prop :=
  ∃ key, place.subkey P = .ok key
    ∧ if place.kind = .pack then
        ∃ (σ : Type) (write : Bytes → Action Error σ Unit) (n size : Nat) (id : Text) (s s' : σ),
          openPackStream P write key ⟨m.stored, none⟩
            (packAad place.root place.generation place.ordinal) n id s = (.ok size, s')
      else ∃ plain, openWithKey P key m.stored place.aad = .ok plain

/-- An ideal cipher, as far as these messages go: what was sealed opens only under its key
and with its associated data, and is a tag longer than its plaintext. -/
structure IdealAead (P : Primitives) (messages : List Message) : Prop where
  bound : ∀ m ∈ messages, ∀ s ∈ m.segments, ∀ key nonce aad plain,
    P.aeadOpen key nonce s.ciphertext aad = some plain →
      m.subkey P = .ok key ∧ nonce = s.nonce ∧ aad = m.aad
  tag : ∀ m ∈ messages, ∀ s ∈ m.segments,
    s.ciphertext.length = s.plain.length + PACK_STREAM_TAG_SIZE

/-- HKDF gives no two of these messages the same subkey from different inputs. -/
def SeparatesKeys (P : Primitives) (messages : List Message) : Prop :=
  ∀ m ∈ messages, ∀ m' ∈ messages, ∀ key, m.subkey P = .ok key → m'.subkey P = .ok key →
    m.keyed = m'.keyed

/-- Two messages of one kind, repository, generation and ordinal, and of one context: the
associated data of a link and of a header name the parent. -/
structure Message.SamePlace (m place : Message) : Prop where
  kind : m.kind = place.kind
  root : m.root = place.root
  generation : m.generation = place.generation
  ordinal : m.ordinal = place.ordinal
  context : m.kind ≠ .pack → m.aad = place.aad

/-- A sealed pack: the header, and the segments behind it. -/
theorem sealPackStream_ok {key : SecretKey} {nonce : StreamNonce} {source : Reader}
    {baseAad : Bytes} {result : StreamSealResult}
    (h : sealPackStream P key nonce source baseAad = .ok result) :
    source.bytes ≠ []
      ∧ result.ciphertext = packHeader nonce ++ (streamSegments P key nonce
          (packStreamAad baseAad (packHeader nonce)) 0
          (chunksOf PACK_STREAM_CHUNK_SIZE (source.bytes.length + 1) source.bytes)).flatMap
            Segment.ciphertext := by
  simp only [sealPackStream, except_bind_eq_ok] at h
  obtain ⟨bytes, hread, ⟨cipher, size⟩, hseal, h⟩ := h
  cases h
  have hbytes : bytes = source.bytes := by
    unfold Reader.readToEnd at hread
    cases hfailure : source.failure with
    | none =>
      rw [hfailure] at hread
      cases hread
      rfl
    | some error =>
      rw [hfailure] at hread
      cases hread
  subst hbytes
  refine ⟨?_, ?_⟩
  · intro hnil
    rw [hnil] at hseal
    cases hseal
  · rw [(sealSegments_segments _ _ _ _ _ hseal).1]

theorem packAad_fits (pub : Publication P) (ordinal : Nat) :
    FitsField (packAad pub.manifest.repositoryRoot pub.manifest.generation ordinal) := by
  have hroot := pub.root_isHex64
  simp only [isHex64, Bool.and_eq_true, beq_iff_eq] at hroot
  have hdomain : (domain "pack").length = 24 := by decide
  simp only [FitsField, packAad, pushField, List.length_append, length_leBytes, hdomain, hroot.1]
  decide

/-- A stored pack that opens in some place was sealed for it. -/
theorem pack_opens {pub : Publication P} {pack : PackSeal} (hpack : pack ∈ pub.packs)
    {messages : List Message} (hideal : IdealAead P messages) (hmem : pub.pack pack ∈ messages)
    {σ : Type} {write : Bytes → Action Error σ Unit} {key : SecretKey} {baseAad : Bytes}
    {n size : Nat} {id : Text} {s s' : σ}
    (h : openPackStream P write key ⟨(pub.pack pack).stored, none⟩ baseAad n id s
      = (.ok size, s')) :
    (pub.pack pack).subkey P = .ok key
      ∧ packStreamAad baseAad (packHeader pack.nonce) = (pub.pack pack).aad := by
  obtain ⟨hne, hstored⟩ := sealPackStream_ok (pub.packed pack hpack).2
  obtain ⟨hlength, nonce, last, plain, -, hopen⟩ := openPackStream_ok h
  have htags := hideal.tag _ hmem
  have hheader : (packHeader pack.nonce).length = PACK_STREAM_HEADER_SIZE :=
    length_packHeader pack.nonce
  have hbytes : (pub.pack pack).stored
      = packHeader pack.nonce ++ (pub.pack pack).segments.flatMap Segment.ciphertext := hstored
  -- the size of the ciphertext tells the size of the pack
  have hsize : n = pack.source.bytes.length := by
    refine packSize_injective ?_
    rw [hbytes, List.length_append, hheader, Publication.pack,
      length_streamSegments _ _ _ (Nat.le_succ _) htags] at hlength
    omega
  have htake : (pub.pack pack).stored.take PACK_STREAM_HEADER_SIZE = packHeader pack.nonce := by
    rw [hbytes]
    exact List.take_left' hheader
  have hdrop : (pub.pack pack).stored.drop PACK_STREAM_HEADER_SIZE
      = (pub.pack pack).segments.flatMap Segment.ciphertext := by
    rw [hbytes]
    exact List.drop_left' hheader
  -- rest
  obtain ⟨first, rest, hsegments, hplain⟩ : ∃ first rest, (pub.pack pack).segments = first :: rest
      ∧ first.plain = pack.source.bytes.take PACK_STREAM_CHUNK_SIZE := by
    rw [Publication.pack, chunksOf_succ hne]
    exact ⟨_, _, rfl, rfl⟩
  have hfirst : first ∈ (pub.pack pack).segments := hsegments ▸ List.mem_cons_self
  have hcipher : ((pub.pack pack).segments.flatMap Segment.ciphertext).take
      (min n PACK_STREAM_CHUNK_SIZE + PACK_STREAM_TAG_SIZE) = first.ciphertext := by
    rw [hsegments, List.flatMap_cons]
    refine List.take_left' ?_
    rw [htags first hfirst, hplain, List.length_take, hsize, Nat.min_comm]
  rw [htake, hdrop, hcipher] at hopen
  obtain ⟨hkey, -, haad⟩ := hideal.bound _ hmem first hfirst _ _ _ _ hopen
  exact ⟨hkey, haad⟩

theorem Publication.Label.ne_pack {pub : Publication P} {kind : SubkeyKind} {aad : Bytes}
    (h : pub.Label kind aad) : kind ≠ .pack := by
  cases h with
  | body => decide
  | header => decide
  | link _ => decide

theorem magic_ne : SYMMETRIC_MAGIC ≠ PACK_STREAM_MAGIC := by decide

/-- **What opens in a place was sealed for it**, under the same subkey. -/
theorem opensAs_samePlace {run : List (Publication P)} (hideal : IdealAead P (sealedBy run))
    {m place : Message} (hm : m ∈ sealedBy run) (hplace : place ∈ sealedBy run)
    (h : m.OpensAs P place) :
    m.SamePlace place ∧ ∃ key, m.subkey P = .ok key ∧ place.subkey P = .ok key := by
  obtain ⟨key, hkey, hopen⟩ := h
  obtain ⟨pub, -, hpub⟩ := List.mem_flatMap.mp hm
  obtain ⟨pub', -, hpub'⟩ := List.mem_flatMap.mp hplace
  rcases pub'.shape_of_mem hpub' with ⟨kind', nonce', plain', aad', stored', rfl, hlabel', -⟩ |
    ⟨pack', hpack', rfl⟩
  · have hkind : (pub'.framed kind' nonce' plain' aad' stored').kind ≠ .pack := hlabel'.ne_pack
    rw [if_neg hkind] at hopen
    obtain ⟨plain, hopen⟩ := hopen
    obtain ⟨hmagic, position, hcipher⟩ := openWithKey_ok hopen
    rcases pub.shape_of_mem hpub with ⟨kind, nonce, text, aad, stored, rfl, hlabel, -⟩ |
      ⟨pack, hpack, rfl⟩
    · obtain ⟨hsame, -, haad⟩ := hideal.bound _ hm _ (List.mem_singleton_self _) _ _ _ _ hcipher
      have haad' : aad' = aad := haad
      subst haad'
      obtain ⟨hkind, hroot, hgeneration⟩ := hlabel.agree hlabel'
      exact ⟨⟨hkind, hroot, hgeneration, rfl, fun _ => rfl⟩, key, hsame, hkey⟩
    · -- a pack begins with the magic of packs
      obtain ⟨-, hstored⟩ := sealPackStream_ok (pub.packed pack hpack).2
      have htake : (pub.pack pack).stored.take 8 = PACK_STREAM_MAGIC := by
        show pack.result.ciphertext.take 8 = _
        rw [hstored, packHeader, List.append_assoc, List.append_assoc]
        exact List.take_left' rfl
      exact absurd (hmagic.symm.trans htake) magic_ne
  · rw [if_pos (show (pub'.pack pack').kind = .pack from rfl)] at hopen
    obtain ⟨σ, write, n, size, id, s, s', hopen⟩ := hopen
    rcases pub.shape_of_mem hpub with ⟨kind, nonce, text, aad, stored, rfl, -, _, -, hseal⟩ |
      ⟨pack, hpack, rfl⟩
    · -- a framed ciphertext begins with another magic
      obtain ⟨-, _, _, _, hparse, -⟩ := openPackStream_ok hopen
      simp only [parsePackHeader, except_bind_eq_ok, bailIf_eq_ok] at hparse
      obtain ⟨_, hpackMagic, -⟩ := hparse
      rw [not_not, List.take_take] at hpackMagic
      exact absurd ((sealWithKey_magic hseal).symm.trans hpackMagic) magic_ne
    · obtain ⟨hsame, haad⟩ := pack_opens hpack hideal hm hopen
      have hheader : FitsField (packHeader pack.nonce) := by
        rw [FitsField, length_packHeader]
        decide
      have hbase := @Context.bytes_injective (.packStream _ _) (.packStream _ _)
        ⟨packAad_fits pub' pack'.ordinal, hheader⟩ ⟨packAad_fits pub pack.ordinal, hheader⟩ haad
      have hpackAad := (Context.packStream.inj hbase).1
      have hcontext := @Context.bytes_injective (.pack _ _ _) (.pack _ _ _)
        ⟨pub'.root_fits, pub'.encodable.generation, pub'.ordinal_lt hpack'⟩
        ⟨pub.root_fits, pub.encodable.generation, pub.ordinal_lt hpack⟩ hpackAad
      obtain ⟨hroot, hgeneration, hordinal⟩ := Context.pack.inj hcontext
      exact ⟨⟨rfl, hroot.symm, hgeneration.symm, hordinal.symm, fun h => absurd rfl h⟩, key, hsame,
        hkey⟩

/-! ### The publications of the code -/

/-- What an operation has sealed: the key it drew, the manifest, and the bytes it stores. -/
structure SealedManifest where
  generationKey : SecretKey
  manifest : Manifest
  encrypted : Bytes

def Publication.sealedManifest (pub : Publication P) : SealedManifest :=
  ⟨pub.generationKey, pub.manifest, pub.parts.encrypted P pub.generationKey pub.manifest⟩

section

variable {S G : Type} {storage : Storage S} {repo : GitRepository G} {key : KeyFile}
variable {coins : Coins} {draws : Draws} {prepared : Prepared} {id : Text} {encrypted : Bytes}

/-- Creating a repository is a publication under the key it drew. -/
theorem publication_of_genesis {ownerLabel : Text}
    (hprepared : genesisManifest P key ownerLabel draws = .ok prepared)
    (hseal : sealNext P key coins none prepared = .ok (id, encrypted))
    (hencodable : prepared.manifest.Encodable) :
    ∃ pub : Publication P,
      pub.sealedManifest = ⟨draws.generationKey, prepared.manifest, encrypted⟩ := by
  obtain ⟨-, parts, hsealed, rfl, -⟩ := sealNext_eq_ok.mp hseal
  obtain ⟨_, policy, policyBytes, -, -, rfl⟩ := genesisManifest_ok hprepared
  exact ⟨{
    coins, signer := key, policy, generationKey := draws.generationKey
    manifest := .genesis key.repositoryRoot policy policyBytes
    parts, linkNonce := draws.linkNonce, previousKey := draws.generationKey, packs := []
    encodable := hencodable
    parent := fun id h => by cases h
    sealed := hsealed
    linked := fun wrap h => by cases h
    described := rfl
    packed := fun pack h => by cases h }, rfl⟩

/-- A change of the members is one. -/
theorem publication_of_transition {current : OpenedState}
    {nextDevices : OpenedState → Result (List DeviceRecord)}
    (hcurrent : ∃ bytes, current.id = objectId P bytes)
    (hprepared : prepareTransition P key nextDevices draws current = .ok prepared)
    (hseal : sealNext P key coins (some current) prepared = .ok (id, encrypted))
    (hencodable : prepared.manifest.Encodable) :
    ∃ pub : Publication P,
      pub.sealedManifest = ⟨draws.generationKey, prepared.manifest, encrypted⟩ := by
  obtain ⟨-, parts, hsealed, rfl, -⟩ := sealNext_eq_ok.mp hseal
  obtain ⟨_, _, wrap, -, -, -, hwrap, -, hkey, hmanifest⟩ := prepareTransition_ok hprepared
  rw [hkey] at hsealed ⊢
  refine ⟨{
    coins, signer := key, policy := prepared.policy, generationKey := draws.generationKey
    manifest := prepared.manifest
    parts, linkNonce := draws.linkNonce, previousKey := current.generationKey, packs := []
    encodable := hencodable
    parent := fun id h => ?_
    sealed := hsealed
    linked := fun wrap' h => ?_
    described := by rw [hmanifest]; rfl
    packed := fun pack h => by cases h }, rfl⟩
  · rw [hmanifest] at h
    cases h
    exact hcurrent
  · rw [hmanifest] at h ⊢
    cases h
    exact ⟨current.id, rfl, hwrap⟩

/-- The packs a push stores, as they were sealed. -/
theorem storePacks_sealed {current : OpenedState} {generation : Nat} {packRefs : RefMap}
    {newPacks : List PackDescriptor} {m m' : Machine S G}
    (h : storePacks P storage repo draws current generation packRefs m = (.ok newPacks, m')) :
    ∃ packs : List PackSeal,
      newPacks = packs.map (fun pack => describePack generation pack.ordinal pack.result)
        ∧ ∀ pack ∈ packs, deriveSubkey P draws.generationKey current.manifest.repositoryRoot
              generation .pack pack.ordinal = .ok pack.key
            ∧ sealPackStream P pack.key pack.nonce pack.source
              (packAad current.manifest.repositoryRoot generation pack.ordinal)
                = .ok pack.result := by
  unfold storePacks at h
  -- a push seals at most one pack, and none where no ref needs one
  by_cases hempty : packRefs.isEmpty = true
  · rw [if_pos hempty] at h
    cases h
    exact ⟨[], rfl, fun pack h => by cases h⟩
  · rw [if_neg hempty] at h
    obtain ⟨pack, m₁, hpack, h⟩ := Action.bind_eq_ok.mp h
    cases h
    unfold storePack at hpack
    obtain ⟨_, _, -, hpack⟩ := Action.bind_eq_ok.mp hpack
    obtain ⟨packKey, _, hkey, hpack⟩ := Action.bind_eq_ok.mp hpack
    obtain ⟨source, _, -, hpack⟩ := Action.bind_eq_ok.mp hpack
    obtain ⟨_, _, -, hpack⟩ := Action.bind_eq_ok.mp hpack
    obtain ⟨result, _, hsealed, hpack⟩ := Action.bind_eq_ok.mp hpack
    obtain ⟨_, _, -, hpack⟩ := Action.bind_eq_ok.mp hpack
    obtain ⟨_, _, -, hpack⟩ := Action.bind_eq_ok.mp hpack
    cases hpack
    refine ⟨[⟨0, draws.packNonce, source, packKey, result⟩], rfl, fun pack h => ?_⟩
    rw [List.mem_singleton.mp h]
    exact ⟨(Action.lift_eq_ok.mp hkey).1, (Action.lift_eq_ok.mp hsealed).1⟩

/-- A push is one, with the packs it stored. -/
theorem publication_of_refs {current : OpenedState} {generation : Nat} {packRefs nextRefs : RefMap}
    {newPacks : List PackDescriptor} {m m' : Machine S G}
    (hcurrent : ∃ bytes, current.id = objectId P bytes)
    (hpacks : storePacks P storage repo draws current generation packRefs m = (.ok newPacks, m'))
    (hprepared : prepareRefs P draws current generation newPacks nextRefs = .ok prepared)
    (hseal : sealNext P key coins (some current) prepared = .ok (id, encrypted))
    (hencodable : prepared.manifest.Encodable) :
    ∃ pub : Publication P,
      pub.sealedManifest = ⟨draws.generationKey, prepared.manifest, encrypted⟩ := by
  obtain ⟨-, parts, hsealed, rfl, -⟩ := sealNext_eq_ok.mp hseal
  obtain ⟨-, hkey, hroot, hgeneration, hnew, -, -, hprevious, -, wrap, hwrap, hlink⟩ :=
    prepareRefs_ok hprepared
  obtain ⟨packs, hdescribed, hpacked⟩ := storePacks_sealed hpacks
  rw [hkey] at hsealed ⊢
  refine ⟨{
    coins, signer := key, policy := prepared.policy, generationKey := draws.generationKey
    manifest := prepared.manifest
    parts, linkNonce := draws.linkNonce, previousKey := current.generationKey, packs
    encodable := hencodable
    parent := fun id h => ?_
    sealed := hsealed
    linked := fun wrap' h => ?_
    described := by rw [hnew, hgeneration]; exact hdescribed
    packed := by rw [hroot, hgeneration]; exact hpacked }, rfl⟩
  · rw [hprevious] at h
    cases h
    exact hcurrent
  · rw [hwrap] at h
    cases h
    exact ⟨current.id, hprevious, by rw [hroot, hgeneration]; exact hlink⟩

end

/-- The operations that seal a manifest: creating a repository, changing the members, and a
push, with the packs it has stored. The manifest is one the code's types can hold, and its
parent is named by its id. -/
inductive SealedManifest.ByOperation (P : Primitives) : SealedManifest → Prop where
  | genesis {key : KeyFile} {ownerLabel : Text} {draws : Draws} {coins : Coins}
    {prepared : Prepared} {id : Text} {encrypted : Bytes} :
    genesisManifest P key ownerLabel draws = .ok prepared →
    sealNext P key coins none prepared = .ok (id, encrypted) → prepared.manifest.Encodable →
      ByOperation P ⟨draws.generationKey, prepared.manifest, encrypted⟩
  | transition {key : KeyFile} {nextDevices : OpenedState → Result (List DeviceRecord)}
    {draws : Draws} {coins : Coins} {current : OpenedState} {prepared : Prepared} {id : Text}
    {encrypted : Bytes} :
    (∃ bytes, current.id = objectId P bytes) →
    prepareTransition P key nextDevices draws current = .ok prepared →
    sealNext P key coins (some current) prepared = .ok (id, encrypted) →
    prepared.manifest.Encodable →
      ByOperation P ⟨draws.generationKey, prepared.manifest, encrypted⟩
  | refs {S G : Type} {storage : Storage S} {repo : GitRepository G} {key : KeyFile}
    {draws : Draws} {coins : Coins} {current : OpenedState} {generation : Nat}
    {packRefs nextRefs : RefMap} {newPacks : List PackDescriptor} {m m' : Machine S G}
    {prepared : Prepared} {id : Text} {encrypted : Bytes} :
    (∃ bytes, current.id = objectId P bytes) →
    storePacks P storage repo draws current generation packRefs m = (.ok newPacks, m') →
    prepareRefs P draws current generation newPacks nextRefs = .ok prepared →
    sealNext P key coins (some current) prepared = .ok (id, encrypted) →
    prepared.manifest.Encodable →
      ByOperation P ⟨draws.generationKey, prepared.manifest, encrypted⟩

theorem SealedManifest.ByOperation.publication {sealed : SealedManifest}
    (h : sealed.ByOperation P) : ∃ pub : Publication P, pub.sealedManifest = sealed := by
  cases h with
  | genesis hprepared hseal hencodable =>
    exact publication_of_genesis hprepared hseal hencodable
  | transition hcurrent hprepared hseal hencodable =>
    exact publication_of_transition hcurrent hprepared hseal hencodable
  | refs hcurrent hpacks hprepared hseal hencodable =>
    exact publication_of_refs hcurrent hpacks hprepared hseal hencodable

/-- What operations seal under keys drawn apart is a run of publications. -/
theorem run_of_operations {seals : List SealedManifest}
    (hseals : ∀ sealed ∈ seals, sealed.ByOperation P)
    (hkeys : seals.Pairwise fun s t => s.generationKey ≠ t.generationKey) :
    ∃ run : List (Publication P), run.map Publication.sealedManifest = seals
      ∧ run.Pairwise fun p q => p.generationKey ≠ q.generationKey := by
  have hrange : seals ∈ Set.range (List.map (Publication.sealedManifest (P := P))) := by
    rw [Set.range_list_map]
    exact fun sealed hsealed => (hseals sealed hsealed).publication
  obtain ⟨run, rfl⟩ := hrange
  rw [List.pairwise_map] at hkeys
  exact ⟨run, rfl, hkeys⟩

/-- What the contexts of the code tell apart. -/
structure ContextsSeparate (P : Primitives) : Prop where
  /-- Equal associated data come from equal calls. -/
  associated : ∀ c c' : Context, c.Fits → c'.Fits → c.bytes = c'.bytes → c = c'
  signed : ∀ header content header' content' : Bytes, ∀ digest digest' : Text,
    FitsField header → FitsField content → FitsField digest →
    FitsField header' → FitsField content' → FitsField digest' →
    manifestSignedBytes header content digest = manifestSignedBytes header' content' digest' →
    header = header' ∧ content = content' ∧ digest = digest'
  info : ∀ root root' generation generation' kind kind' ordinal ordinal',
    LowerHex64 root → LowerHex64 root' → generation < 2 ^ 64 → generation' < 2 ^ 64 →
    ordinal < 2 ^ 64 → ordinal' < 2 ^ 64 →
    subkeyInfoOf root generation kind ordinal = subkeyInfoOf root' generation' kind' ordinal' →
    root = root' ∧ generation = generation' ∧ kind = kind' ∧ ordinal = ordinal'
  /-- Over a run, no generation key and info are used twice. -/
  keyed : ∀ run : List (Publication P),
    run.Pairwise (fun p q => p.generationKey ≠ q.generationKey) →
    ((sealedBy run).map Message.keyed).Nodup
  /-- Over a run, nothing opens in the place of something else. -/
  opens : ∀ run : List (Publication P),
    run.Pairwise (fun p q => p.generationKey ≠ q.generationKey) → IdealAead P (sealedBy run) →
    ∀ m ∈ sealedBy run, ∀ place ∈ sealedBy run, m.OpensAs P place →
      m.SamePlace place ∧ (SeparatesKeys P (sealedBy run) → m = place)
  /-- Whatever the operations seal, under keys drawn apart, is such a run. -/
  operations : ∀ seals : List SealedManifest, (∀ sealed ∈ seals, sealed.ByOperation P) →
    seals.Pairwise (fun s t => s.generationKey ≠ t.generationKey) →
    ∃ run : List (Publication P), run.map Publication.sealedManifest = seals
      ∧ run.Pairwise fun p q => p.generationKey ≠ q.generationKey

/-- **Cryptographic contexts are injective and disjoint**, so no message of a run opens in
the place of another. -/
theorem contexts_separate (P : Primitives) : ContextsSeparate P where
  associated _ _ hc hc' h := Context.bytes_injective hc hc' h
  signed _ _ _ _ _ _ hh hc hd hh' hc' hd' h :=
    manifestSignedBytes_injective hh hc hd hh' hc' hd' h
  info _ _ _ _ _ _ _ _ hr hr' hg hg' ho ho' h :=
    subkeyInfoOf_injective hr hr' hg hg' ho ho' h
  keyed _ hrun := sealedBy_nodup hrun
  opens run hrun hideal m hm place hplace h := by
    obtain ⟨hsame, key, hkey, hkey'⟩ := opensAs_samePlace hideal hm hplace h
    refine ⟨hsame, fun hseparates => ?_⟩
    exact List.inj_on_of_nodup_map (sealedBy_nodup hrun) hm hplace
      (hseparates m hm place hplace key hkey hkey')
  operations _ hseals hkeys := run_of_operations hseals hkeys

end GitE2EE

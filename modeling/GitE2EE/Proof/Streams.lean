import GitE2EE.Model.Streamed
import GitE2EE.Proof.Reference

/-!
# Pack streams

The sealer finds the last segment by reading one chunk ahead, from a source that yields
its bytes in any pieces; the opener computes the segments from the declared size. Both
are the functions of `PackStream` on whole byte strings, and these are inverse to each
other.
-/

namespace GitE2EE

open Wire Effect

variable {P : Primitives}

/-- The segments have room for every byte. -/
theorem packSegments_covers (n : Nat) : n ≤ packSegments n * PACK_STREAM_CHUNK_SIZE := by
  unfold packSegments
  have hpos : 0 < PACK_STREAM_CHUNK_SIZE := by decide
  have := Nat.div_add_mod (n + PACK_STREAM_CHUNK_SIZE - 1) PACK_STREAM_CHUNK_SIZE
  have hlt := Nat.mod_lt (n + PACK_STREAM_CHUNK_SIZE - 1) hpos
  rw [Nat.mul_comm] at this
  omega

namespace Streamed

/-! ## Sources -/

/-- The bytes before the first failure. -/
def content : Source → Bytes
  | [] => []
  | .data bytes :: rest => bytes ++ content rest
  | .interrupted :: rest => content rest
  | .failed _ :: _ => []

/-- The first failure. -/
def failure : Source → Option Error
  | [] => none
  | .failed error :: _ => some error
  | _ :: rest => failure rest

/-- A `read` that returns 0 is the end, so no other piece is empty. -/
def Proper (source : Source) : Prop := ∀ bytes, Piece.data bytes ∈ source → bytes ≠ []

/-- The source as one byte string and a failure behind it. -/
def toReader (source : Source) : Reader := ⟨content source, failure source⟩

theorem Proper.tail {piece : Piece} {rest : Source} (h : Proper (piece :: rest)) : Proper rest :=
  fun bytes hmem => h bytes (List.mem_cons_of_mem _ hmem)

theorem content_length_le (source : Source) : (content source).length ≤ size source := by
  induction source with
  | nil => exact Nat.le_refl 0
  | cons piece rest ih =>
    cases piece with
    | data bytes =>
      rw [content, size, List.length_append]
      omega
    | interrupted => exact ih
    | failed error => exact Nat.zero_le _

theorem fill_zero (source : Source) : fill 0 source = .ok ([], source) := by
  cases source with
  | nil => rfl
  | cons piece rest => cases piece <;> rfl

/-- **A buffer is filled** whatever the pieces are. -/
theorem fill_ok {source : Source} (hproper : Proper source) {want : Nat}
    (h : want ≤ (content source).length ∨ failure source = none) :
    ∃ rest, fill want source = .ok ((content source).take want, rest) ∧ Proper rest
      ∧ content rest = (content source).drop want ∧ failure rest = failure source := by
  induction source generalizing want with
  | nil => exact ⟨[], by rw [fill]; simp [content]; rfl, hproper, by simp [content], rfl⟩
  | cons piece rest ih =>
    cases want with
    | zero => exact ⟨piece :: rest, fill_zero _, hproper, rfl, rfl⟩
    | succ want =>
      cases piece with
      | failed error =>
        rcases h with h | h
        · cases h
        · cases h
      | interrupted =>
        obtain ⟨rest', hfill, hrest⟩ := ih hproper.tail h
        exact ⟨rest', by rw [fill]; exact hfill, hrest⟩
      | data bytes =>
        have hne : bytes ≠ [] := hproper bytes List.mem_cons_self
        by_cases hfits : bytes.length ≤ want + 1
        · -- the whole piece goes into the buffer, and the next ones fill the rest
          have hrest : want + 1 - bytes.length ≤ (content rest).length ∨ failure rest = none := by
            rcases h with h | h
            · rw [content, List.length_append] at h
              exact .inl (by omega)
            · exact .inr h
          obtain ⟨rest', hfill, hp, hcontent, hfailure⟩ := ih hproper.tail hrest
          refine ⟨rest', ?_, hp, ?_, hfailure⟩
          · rw [fill, if_neg hne, if_pos hfits, hfill]
            rw [content, List.take_append, List.take_of_length_le hfits]
            rfl
          · rw [hcontent, content, List.drop_append, List.drop_eq_nil_of_le hfits]
            rfl
        · -- the piece is longer than the buffer: its end stays
          refine ⟨.data (bytes.drop (want + 1)) :: rest, ?_, ?_, ?_, rfl⟩
          · rw [fill, if_neg hne, if_neg hfits, content,
              List.take_append_of_le_length (by omega)]
            rfl
          · intro other hmem
            rcases List.mem_cons.mp hmem with heq | hmem
            · cases heq
              rw [ne_eq, List.drop_eq_nil_iff]
              omega
            · exact hproper.tail other hmem
          · rw [content, content, List.drop_append_of_le_length (by omega)]

/-- A failure before the buffer is full is returned. -/
theorem fill_error {source : Source} (hproper : Proper source) {want : Nat} {error : Error}
    (hshort : (content source).length < want) (h : failure source = some error) :
    fill want source = .error error := by
  induction source generalizing want with
  | nil => cases h
  | cons piece rest ih =>
    cases want with
    | zero => cases hshort
    | succ want =>
      cases piece with
      | failed other =>
        cases h
        rw [fill]
      | interrupted =>
        rw [fill]
        exact ih hproper.tail hshort h
      | data bytes =>
        rw [content, List.length_append] at hshort
        rw [fill, if_neg (hproper bytes List.mem_cons_self), if_pos (by omega),
          ih hproper.tail (by omega) h]
        rfl

/-- What `read_exact` makes of a source is what it makes of its bytes. -/
theorem readExact_eq {source : Source} (hproper : Proper source) (count : Nat) (what : String) :
    (∃ bytes rest, readExact source count what = .ok (bytes, rest) ∧ Proper rest
      ∧ (toReader source).readExact count what = .ok (bytes, toReader rest))
    ∨ ∃ error, readExact source count what = .error error
      ∧ (toReader source).readExact count what = .error error := by
  by_cases hcount : count ≤ (content source).length
  · obtain ⟨rest, hfill, hp, hcontent, hfailure⟩ := fill_ok hproper (.inl hcount)
    refine .inl ⟨(content source).take count, rest, ?_, hp, ?_⟩
    · have hlength : ¬ ((content source).take count).length < count := by
        rw [List.length_take]
        omega
      unfold readExact
      rw [hfill]
      show withContext (if _ then _ else _) what = _
      rw [if_neg hlength]
      rfl
    · unfold Reader.readExact
      rw [if_pos (show count ≤ (toReader source).bytes.length from hcount)]
      unfold toReader
      rw [hcontent, hfailure]
  · right
    have hread : (toReader source).readExact count what = .error (((failure source).getD
        (.of (.io .unexpectedEof "failed to fill whole buffer"))).context what) := by
      unfold Reader.readExact
      rw [if_neg (show ¬ count ≤ (toReader source).bytes.length from hcount)]
      rfl
    cases hfailure : failure source with
    -- the source ends too early
    | none =>
      obtain ⟨rest, hfill, -⟩ : ∃ rest, fill count source = .ok ((content source).take count, rest)
          ∧ _ := fill_ok hproper (.inr hfailure)
      refine ⟨_, ?_, hread⟩
      have hlength : ((content source).take count).length < count := by
        rw [List.length_take]
        omega
      unfold readExact
      rw [hfill]
      show withContext (if _ then _ else _) what = _
      rw [if_pos hlength, hfailure]
      rfl
    | some error =>
      refine ⟨_, ?_, hread⟩
      unfold readExact
      rw [fill_error hproper (by omega) hfailure, hfailure]
      rfl

/-! ## Opening -/

section

variable {σ : Type} {write : Bytes → Action Error σ Unit} {key : SecretKey} {nonce : StreamNonce}
  {aad : Bytes}

/-- As many bytes are read as were asked for. -/
theorem readExact_length {reader rest : Reader} {bytes : Bytes} {count : Nat} {what : String}
    (h : reader.readExact count what = .ok (bytes, rest)) : bytes.length = count := by
  unfold Reader.readExact at h
  split at h
  · cases h
    rw [List.length_take]
    omega
  · cases h

/-- The plaintext of a segment that has been read. -/
def openChunk (P : Primitives) (key : SecretKey) (nonce : StreamNonce) (aad : Bytes)
    (segment : Nat) (last : Bool) (plainLength : Nat) (chunk : Bytes) : Result Bytes := do
  let plain ← orBail (P.aeadOpen key (segmentNonce nonce segment last) chunk aad)
    "pack stream authentication failed"
  bailIf (plain.length ≠ plainLength) "pack stream segment length mismatch"
  pure plain

theorem openChunk_map {τ : Type} (rest : τ) (segment : Nat) (last : Bool) (plainLength : Nat)
    (chunk : Bytes) : (do
      let plain ← orBail (P.aeadOpen key (segmentNonce nonce segment last) chunk aad)
        "pack stream authentication failed"
      bailIf (plain.length ≠ plainLength) "pack stream segment length mismatch"
      pure (plain, rest, chunk) : Result (Bytes × τ × Bytes))
    = (openChunk P key nonce aad segment last plainLength chunk).map fun plain =>
        (plain, rest, chunk) := by
  unfold openChunk
  cases P.aeadOpen key (segmentNonce nonce segment last) chunk aad with
  | none => rfl
  | some plain =>
    show (bailIf _ _ >>= _) = Except.map _ (bailIf _ _ >>= _)
    cases bailIf (plain.length ≠ plainLength) "pack stream segment length mismatch" with
    | error error => rfl
    | ok u => rfl

/-- One segment, whatever the pieces. -/
theorem openSegment_eq {source : Source} (hproper : Proper source) (segment : Nat) (last : Bool)
    (plainLength : Nat) :
    (∃ plain rest chunk,
      openSegment P key nonce aad segment last plainLength source = .ok (plain, rest, chunk)
        ∧ Proper rest ∧ chunk.length = plainLength + PACK_STREAM_TAG_SIZE
        ∧ GitE2EE.openSegment P key nonce aad segment last plainLength (toReader source)
          = .ok (plain, toReader rest, chunk))
    ∨ ∃ error, openSegment P key nonce aad segment last plainLength source = .error error
      ∧ GitE2EE.openSegment P key nonce aad segment last plainLength (toReader source)
        = .error error := by
  rcases readExact_eq hproper (plainLength + PACK_STREAM_TAG_SIZE)
    s!"truncated pack stream segment {segment}" with
    ⟨chunk, rest, hread, hp, hreader⟩ | ⟨error, hread, hreader⟩
  · have hopened : GitE2EE.openSegment P key nonce aad segment last plainLength (toReader source)
        = (openChunk P key nonce aad segment last plainLength chunk).map fun plain =>
          (plain, toReader rest, chunk) := by
      unfold GitE2EE.openSegment
      rw [hreader]
      exact openChunk_map _ _ _ _ _
    have hstreamed : openSegment P key nonce aad segment last plainLength source
        = (openChunk P key nonce aad segment last plainLength chunk).map fun plain =>
          (plain, rest, chunk) := by
      unfold openSegment
      rw [hread]
      exact openChunk_map _ _ _ _ _
    rw [hstreamed, hopened]
    cases openChunk P key nonce aad segment last plainLength chunk with
    | error error => exact .inr ⟨error, rfl, rfl⟩
    | ok plain => exact .inl ⟨plain, rest, chunk, rfl, hp, readExact_length hreader, rfl⟩
  · refine .inr ⟨error, ?_, ?_⟩
    · unfold openSegment
      rw [hread]
      rfl
    · unfold GitE2EE.openSegment
      rw [hreader]
      rfl

/-- **The loop of the opener**, whatever the pieces: the counters are the lengths of what
they count. -/
theorem openSegments_eq {progress : Progress} (hproper : Proper progress.source)
    (hcount : progress.ciphertextCount = progress.hashed.length) (count segment : Nat)
    (hbound : progress.hashed.length + progress.remaining + count * PACK_STREAM_TAG_SIZE < 2 ^ 64)
    (s : σ) :
    (∃ after s', openSegments P write key nonce aad count segment progress s = (.ok after, s')
      ∧ GitE2EE.openSegments P write key nonce aad count segment progress.remaining
          (toReader progress.source) progress.hashed s
        = (.ok (toReader after.source, after.hashed), s')
      ∧ Proper after.source ∧ after.ciphertextCount = after.hashed.length
      ∧ after.remaining = progress.remaining - count * PACK_STREAM_CHUNK_SIZE)
    ∨ ∃ error s', openSegments P write key nonce aad count segment progress s = (.error error, s')
      ∧ GitE2EE.openSegments P write key nonce aad count segment progress.remaining
          (toReader progress.source) progress.hashed s = (.error error, s') := by
  induction count generalizing progress segment s with
  | zero =>
    refine .inl ⟨progress, s, rfl, rfl, hproper, hcount, ?_⟩
    rw [Nat.zero_mul]
    rfl
  | succ count ih =>
    unfold openSegments GitE2EE.openSegments
    dsimp only
    generalize hplain : min progress.remaining PACK_STREAM_CHUNK_SIZE = plainLength
    have hle : plainLength ≤ progress.remaining := by omega
    have hsegment := @openSegment_eq P key nonce aad _ hproper segment (count == 0) plainLength
    rcases hsegment with ⟨plain, rest, chunk, hopen, hp, hlength, hopened⟩ | ⟨error, hopen, hopened⟩
    · have hadd : plus progress.ciphertextCount chunk.length
          = .ok (progress.hashed ++ chunk).length := by
        refine orBail_eq_ok.mpr (checkedAdd_eq_some.mpr ⟨?_, ?_⟩)
        · rw [hcount, List.length_append]
        · rw [List.length_append, hlength]
          rw [Nat.succ_mul] at hbound
          omega
      -- neither counter leaves its range
      have hsub : minus progress.remaining plainLength = .ok (progress.remaining - plainLength) :=
        if_pos hle
      rw [hopen, hopened]
      rw [Action.bind_of_ok (Action.lift_apply _ _), Action.bind_of_ok (Action.lift_apply _ _)]
      dsimp only
      rw [hadd, Action.bind_of_ok (Action.lift_apply _ _)]
      cases hwrite : write plain s with
      | mk r s₁ =>
        cases r with
        | error error =>
          refine .inr ⟨error, s₁, ?_, ?_⟩
          · rw [Action.bind_of_error hwrite]
          · rw [Action.bind_of_error hwrite]
        | ok u =>
          rw [Action.bind_of_ok hwrite, Action.bind_of_ok hwrite, hsub,
            Action.bind_of_ok (Action.lift_apply _ _)]
          have hnext : (progress.hashed ++ chunk).length + (progress.remaining - plainLength)
              + count * PACK_STREAM_TAG_SIZE < 2 ^ 64 := by
            rw [Nat.succ_mul] at hbound
            rw [List.length_append, hlength]
            omega
          have hrest := @ih ⟨rest, progress.hashed ++ chunk, (progress.hashed ++ chunk).length,
            progress.remaining - plainLength⟩ hp rfl (segment + 1) hnext s₁
          rcases hrest with ⟨after, s', h, h', hafter, hcounted, hremaining⟩ | herror
          · refine .inl ⟨after, s', h, h', hafter, hcounted, ?_⟩
            rw [hremaining, Nat.succ_mul]
            dsimp only
            omega
          · exact .inr herror
    · refine .inr ⟨error, s, ?_, ?_⟩
      · rw [hopen]
        rfl
      · rw [hopened]
        rfl

/-- The end of the stream, whatever the pieces. -/
theorem checkEnd_eq {progress : Progress} (hproper : Proper progress.source)
    (hcount : progress.ciphertextCount = progress.hashed.length)
    (hremaining : progress.remaining = 0)
    (expectedSize : Nat) (expectedId : Text) :
    checkEnd P progress expectedSize expectedId
      = checkPackEnd P (toReader progress.source) progress.hashed expectedSize expectedId := by
  unfold checkEnd checkPackEnd Reader.expectEnd toReader
  by_cases hend : content progress.source = []
  · rw [bailIf_neg (show ¬ content progress.source ≠ [] from not_not.mpr hend)]
    cases hfailure : failure progress.source with
    | some error =>
      rw [fill_error hproper (by rw [hend]; exact Nat.one_pos) hfailure]
      rfl
    | none =>
      obtain ⟨rest, hread, -⟩ : ∃ rest, fill 1 progress.source
          = .ok ((content progress.source).take 1, rest) ∧ _ := fill_ok hproper (.inr hfailure)
      rw [hread, hend, hcount, hremaining]
      simp only [ne_eq, not_true_eq_false, false_or]
      rfl
  · -- a byte behind the last segment
    obtain ⟨rest, hread, -⟩ : ∃ rest, fill 1 progress.source
        = .ok ((content progress.source).take 1, rest) ∧ _ :=
      fill_ok hproper (.inl (List.length_pos_iff.mpr hend))
    have htrailing : (content progress.source).take 1 ≠ [] := by
      rw [ne_eq, List.take_eq_nil_iff]
      rintro (hzero | hnil)
      · cases hzero
      · exact hend hnil
    rw [hread, bailIf_pos (show content progress.source ≠ [] from hend)]
    show (bailIf _ _ >>= _) = _
    rw [bailIf_pos htrailing]
    rfl

/-- What a header and the declared size say. -/
def headerFields (n : Nat) (header : Bytes) : Result (StreamNonce × Nat) := do
  let nonce ← parsePackHeader header
  pure (nonce, ← packCiphertextSize n)

theorem headerFields_map {τ : Type} (rest : τ) (n : Nat) (header : Bytes) : (do
      let nonce ← parsePackHeader header
      pure (header, rest, nonce, ← packCiphertextSize n) : Result (Bytes × τ × StreamNonce × Nat))
    = (headerFields n header).map fun fields => (header, rest, fields.1, fields.2) := by
  unfold headerFields
  generalize packCiphertextSize n = sized
  cases parsePackHeader header with
  | error error => rfl
  | ok nonce =>
    cases sized with
    | error error => rfl
    | ok size => rfl

/-- The size of the ciphertext fits 64 bits. -/
theorem headerFields_size {n size : Nat} {header : Bytes} {nonce : StreamNonce}
    (h : headerFields n header = .ok (nonce, size)) :
    PACK_STREAM_HEADER_SIZE + n + packSegments n * PACK_STREAM_TAG_SIZE < 2 ^ 64 := by
  simp only [headerFields, packCiphertextSize, except_bind_eq_ok, bailIf_eq_ok] at h
  obtain ⟨_, -, _, ⟨⟨⟩, -, ⟨⟩, hsize, -⟩, -⟩ := h
  exact Nat.lt_of_not_le hsize

/-- The header, whatever the pieces. -/
theorem openHeader_eq {source : Source} (hproper : Proper source) (n : Nat) :
    (∃ header rest nonce size, openHeader source n = .ok (header, rest, nonce, size)
      ∧ Proper rest ∧ openPackHeader (toReader source) n = .ok (header, toReader rest, nonce, size)
      ∧ header.length = PACK_STREAM_HEADER_SIZE
      ∧ PACK_STREAM_HEADER_SIZE + n + packSegments n * PACK_STREAM_TAG_SIZE < 2 ^ 64)
    ∨ ∃ error, openHeader source n = .error error
      ∧ openPackHeader (toReader source) n = .error error := by
  by_cases hzero : n = 0
  · unfold openHeader openPackHeader
    rw [bailIf_pos hzero]
    exact .inr ⟨_, rfl, rfl⟩
  rcases readExact_eq hproper PACK_STREAM_HEADER_SIZE "truncated pack stream header" with
    ⟨header, rest, hread, hp, hreader⟩ | ⟨error, hread, hreader⟩
  · have hstreamed : openHeader source n
        = (headerFields n header).map fun fields => (header, rest, fields.1, fields.2) := by
      unfold openHeader
      rw [bailIf_neg hzero]
      show (readExact _ _ _ >>= _) = _
      rw [hread]
      exact headerFields_map _ _ _
    have hwhole : openPackHeader (toReader source) n
        = (headerFields n header).map fun fields =>
          (header, toReader rest, fields.1, fields.2) := by
      unfold openPackHeader
      rw [bailIf_neg hzero]
      show (Reader.readExact _ _ _ >>= _) = _
      rw [hreader]
      exact headerFields_map _ _ _
    cases hfields : headerFields n header with
    | error error =>
      rw [hfields] at hstreamed hwhole
      exact .inr ⟨error, hstreamed, hwhole⟩
    | ok fields =>
      rw [hfields] at hstreamed hwhole
      exact .inl ⟨header, rest, fields.1, fields.2, hstreamed, hp, hwhole,
        readExact_length hreader, headerFields_size hfields⟩
  · unfold openHeader openPackHeader
    rw [bailIf_neg hzero]
    refine .inr ⟨error, ?_, ?_⟩
    · show (readExact _ _ _ >>= _) = _
      rw [hread]
      rfl
    · show (Reader.readExact _ _ _ >>= _) = _
      rw [hreader]
      rfl

/-- **The opener** is the one on whole byte strings, and does not overflow, on every source. -/
theorem openPackStream_eq {source : Source} (hproper : Proper source) (baseAad : Bytes) (n : Nat)
    (expectedId : Text) (s : σ) :
    openPackStream P write key source baseAad n expectedId s
      = GitE2EE.openPackStream P write key (toReader source) baseAad n expectedId s := by
  rw [openPackStream, GitE2EE.openPackStream]
  have hheader := openHeader_eq hproper n
  have hcovers := packSegments_covers n
  -- from here on only the number of segments matters, not how it is computed
  obtain ⟨segments, hsegments⟩ : ∃ segments, packSegments n = segments := ⟨_, rfl⟩
  rw [hsegments] at hheader hcovers ⊢
  rcases hheader with ⟨header, rest, nonce, size, h, hp, h', hlength, hsize⟩ | ⟨error, h, h'⟩
  · rw [h, h', Action.bind_of_ok (Action.lift_apply _ _), Action.bind_of_ok (Action.lift_apply _ _)]
    dsimp only
    have hloop := @openSegments_eq P σ write key nonce (packStreamAad baseAad header)
      ⟨rest, header, PACK_STREAM_HEADER_SIZE, n⟩ hp hlength.symm segments 0
      (by dsimp only; omega) s
    rcases hloop with ⟨after, s', hopen, hopened, hafter, hcount, hremaining⟩ |
      ⟨error, s', hopen, hopened⟩
    · rw [Action.bind_of_ok hopen, Action.bind_of_ok hopened]
      have hzero : after.remaining = 0 := by
        rw [hremaining]
        exact Nat.sub_eq_zero_of_le hcovers
      rw [checkEnd_eq hafter hcount hzero]
    · rw [Action.bind_of_error hopen, Action.bind_of_error hopened]
  · rw [h, h', Action.bind_of_error (Action.lift_apply _ _),
      Action.bind_of_error (Action.lift_apply _ _)]

end

end Streamed

/-! ## The round trip -/

/-- The segment cipher: what is sealed at a position opens there, 16 bytes longer. -/
def SegmentCipher (P : Primitives) : Prop :=
  ∀ (key : SecretKey) (nonce : StreamNonce) (segment : Nat) (last : Bool) (plain aad : Bytes),
    plain.length ≤ PACK_STREAM_CHUNK_SIZE → ∃ sealed,
      P.aeadSeal key (segmentNonce nonce segment last) plain aad = some sealed
        ∧ P.aeadOpen key (segmentNonce nonce segment last) sealed aad = some plain
        ∧ sealed.length = plain.length + PACK_STREAM_TAG_SIZE

/-- A sink that takes everything. -/
def collect (plain : Bytes) : Action Error Bytes Unit := Action.modify (· ++ plain)

theorem packSegments_zero : packSegments 0 = 0 := by decide

/-- A segment takes up to a chunk. -/
theorem packSegments_succ {n : Nat} (h : 0 < n) :
    packSegments n = packSegments (n - PACK_STREAM_CHUNK_SIZE) + 1 := by
  unfold packSegments
  have hpos : 0 < PACK_STREAM_CHUNK_SIZE := by decide
  by_cases hle : n ≤ PACK_STREAM_CHUNK_SIZE
  · rw [show n + PACK_STREAM_CHUNK_SIZE - 1 = (n - 1) + PACK_STREAM_CHUNK_SIZE by omega,
      Nat.add_div_right _ hpos, Nat.div_eq_of_lt (show n - 1 < PACK_STREAM_CHUNK_SIZE by omega),
      Nat.sub_eq_zero_of_le hle,
      Nat.div_eq_of_lt (show 0 + PACK_STREAM_CHUNK_SIZE - 1 < PACK_STREAM_CHUNK_SIZE by omega)]
  · rw [show n + PACK_STREAM_CHUNK_SIZE - 1
      = (n - PACK_STREAM_CHUNK_SIZE + PACK_STREAM_CHUNK_SIZE - 1) + PACK_STREAM_CHUNK_SIZE by omega,
      Nat.add_div_right _ hpos]

theorem chunksOf_isEmpty {fuel : Nat} {bytes : Bytes} (hfuel : bytes.length ≤ fuel) :
    (chunksOf PACK_STREAM_CHUNK_SIZE fuel bytes).isEmpty = bytes.isEmpty := by
  cases bytes with
  | nil => cases fuel <;> rfl
  | cons b rest =>
    cases fuel with
    | zero => cases hfuel
    | succ fuel => rfl

/-- One chunk, and the chunks of what is left. -/
theorem chunksOf_succ {fuel : Nat} {bytes : Bytes} (h : bytes ≠ []) :
    chunksOf PACK_STREAM_CHUNK_SIZE (fuel + 1) bytes = bytes.take PACK_STREAM_CHUNK_SIZE
      :: chunksOf PACK_STREAM_CHUNK_SIZE fuel (bytes.drop PACK_STREAM_CHUNK_SIZE) := by
  cases bytes with
  | nil => exact absurd rfl h
  | cons b rest => rfl

section

variable {key : SecretKey} {nonce : StreamNonce} {aad : Bytes}

/-- One segment of a sealed stream, read back. -/
theorem openSegment_sealed {segment : Nat} {last : Bool} {plain sealed tail : Bytes}
    {failure : Option Error}
    (hopen : P.aeadOpen key (segmentNonce nonce segment last) sealed aad = some plain)
    (hlength : sealed.length = plain.length + PACK_STREAM_TAG_SIZE) :
    openSegment P key nonce aad segment last plain.length ⟨sealed ++ tail, failure⟩
      = .ok (plain, ⟨tail, failure⟩, sealed) := by
  have hread : Reader.readExact ⟨sealed ++ tail, failure⟩ (plain.length + PACK_STREAM_TAG_SIZE)
      s!"truncated pack stream segment {segment}" = .ok (sealed, ⟨tail, failure⟩) := by
    unfold Reader.readExact
    rw [← hlength, if_pos (by rw [List.length_append]; omega), List.take_left, List.drop_left]
  unfold openSegment
  rw [hread]
  show (orBail (P.aeadOpen _ _ _ _) _ >>= _) = _
  rw [hopen]
  show (bailIf _ _ >>= _) = _
  rw [bailIf_neg (not_not.mpr rfl)]
  rfl

/-- One segment of the sealer. -/
theorem sealSegments_cons {segment size : Nat} {chunk sealed : Bytes} {rest : List Bytes}
    (hsize : size + chunk.length < 2 ^ 64) (hsegment : segment + 1 < MAX_SEGMENTS)
    (hseal : P.aeadSeal key (segmentNonce nonce segment rest.isEmpty) chunk aad = some sealed) :
    sealSegments P key nonce aad segment size (chunk :: rest) =
      if rest.isEmpty then .ok (sealed, size + chunk.length)
      else (sealSegments P key nonce aad (segment + 1) (size + chunk.length) rest).map fun more =>
        (sealed ++ more.1, more.2) := by
  have hadd : checkedAdd size chunk.length = some (size + chunk.length) :=
    checkedAdd_eq_some.mpr ⟨rfl, hsize⟩
  rw [sealSegments, hadd, bailIf_neg (Nat.not_le_of_lt hsegment), hseal]
  show (if rest.isEmpty then _ else sealSegments _ _ _ _ _ _ _ >>= _) = _
  by_cases hrest : rest.isEmpty = true
  · rw [if_pos hrest, if_pos hrest]
    rfl
  · rw [if_neg hrest, if_neg hrest]
    cases sealSegments P key nonce aad (segment + 1) (size + chunk.length) rest with
    | error error => rfl
    | ok more => rfl

/-- One segment of the opener, into a sink that takes it. -/
theorem openSegments_succ {count segment remaining : Nat} {reader rest : Reader}
    {plain chunk consumed out : Bytes}
    (h : openSegment P key nonce aad segment (count == 0) (min remaining PACK_STREAM_CHUNK_SIZE)
      reader = .ok (plain, rest, chunk)) :
    openSegments P collect key nonce aad (count + 1) segment remaining reader consumed out
      = openSegments P collect key nonce aad count (segment + 1)
        (remaining - min remaining PACK_STREAM_CHUNK_SIZE) rest (consumed ++ chunk)
          (out ++ plain) := by
  rw [openSegments]
  dsimp only
  rw [h]
  rfl

/-- **What the sealer makes of the rest of a stream** the opener reads back. -/
theorem sealSegments_roundTrip (hcipher : SegmentCipher P) {fuel : Nat} {bytes : Bytes}
    (hne : bytes ≠ []) (hfuel : bytes.length ≤ fuel) {segment size : Nat}
    (hsegments : segment + packSegments bytes.length < MAX_SEGMENTS)
    (hsize : size + bytes.length < 2 ^ 64) :
    ∃ cipher, sealSegments P key nonce aad segment size
        (chunksOf PACK_STREAM_CHUNK_SIZE fuel bytes) = .ok (cipher, size + bytes.length)
      ∧ cipher.length = bytes.length + packSegments bytes.length * PACK_STREAM_TAG_SIZE
      ∧ ∀ tail failure consumed out,
        openSegments P collect key nonce aad (packSegments bytes.length) segment bytes.length
            ⟨cipher ++ tail, failure⟩ consumed out
          = (.ok (⟨tail, failure⟩, consumed ++ cipher), out ++ bytes) := by
  induction fuel generalizing bytes segment size with
  | zero => exact absurd (List.length_eq_zero_iff.mp (Nat.le_zero.mp hfuel)) hne
  | succ fuel ih =>
    have hpos : 0 < bytes.length := List.length_pos_iff.mpr hne
    have hchunk : (bytes.take PACK_STREAM_CHUNK_SIZE).length
        = min bytes.length PACK_STREAM_CHUNK_SIZE := by rw [List.length_take, Nat.min_comm]
    have hrest : (bytes.drop PACK_STREAM_CHUNK_SIZE).length
        = bytes.length - PACK_STREAM_CHUNK_SIZE := List.length_drop
    have hcount := packSegments_succ hpos
    rw [← hrest] at hcount
    have hone : 0 < PACK_STREAM_CHUNK_SIZE := by decide
    have hmore : (bytes.drop PACK_STREAM_CHUNK_SIZE).length ≤ fuel := by omega
    obtain ⟨sealed, hseal, hopen, hlength⟩ := hcipher key nonce segment
      (bytes.drop PACK_STREAM_CHUNK_SIZE).isEmpty (bytes.take PACK_STREAM_CHUNK_SIZE) aad
      (by omega)
    have hstep := @sealSegments_cons P key nonce aad segment size
      (bytes.take PACK_STREAM_CHUNK_SIZE) sealed
      (chunksOf PACK_STREAM_CHUNK_SIZE fuel (bytes.drop PACK_STREAM_CHUNK_SIZE))
      (by omega) (by omega) (by rw [chunksOf_isEmpty hmore]; exact hseal)
    rw [chunksOf_isEmpty hmore] at hstep
    rw [chunksOf_succ hne, hstep]
    -- the segment the opener reads first, whatever follows
    have hfirst : ∀ tail failure, openSegment P key nonce aad segment
        (packSegments (bytes.drop PACK_STREAM_CHUNK_SIZE).length == 0)
        (min bytes.length PACK_STREAM_CHUNK_SIZE) ⟨sealed ++ tail, failure⟩
        = .ok (bytes.take PACK_STREAM_CHUNK_SIZE, ⟨tail, failure⟩, sealed) := by
      intro tail failure
      have hlast : (packSegments (bytes.drop PACK_STREAM_CHUNK_SIZE).length == 0)
          = (bytes.drop PACK_STREAM_CHUNK_SIZE).isEmpty := by
        cases hdrop : bytes.drop PACK_STREAM_CHUNK_SIZE with
        | nil => rfl
        | cons b rest =>
          rw [packSegments_succ (by rw [List.length_cons]; omega)]
          exact beq_false_of_ne (Nat.succ_ne_zero _)
      rw [hlast, ← hchunk]
      exact openSegment_sealed hopen hlength
    by_cases hlast : bytes.drop PACK_STREAM_CHUNK_SIZE = []
    · -- the last segment, which may be short
      have hnil : (bytes.drop PACK_STREAM_CHUNK_SIZE).length = 0 := by rw [hlast]; rfl
      have hwhole : bytes.take PACK_STREAM_CHUNK_SIZE = bytes :=
        List.take_of_length_le (List.drop_eq_nil_iff.mp hlast)
      rw [hnil, packSegments_zero] at hcount hfirst
      rw [hwhole] at hfirst hlength hchunk ⊢
      rw [hlast, if_pos (show [].isEmpty = true from rfl)]
      refine ⟨sealed, rfl, by rw [hlength, hcount, Nat.zero_add, Nat.one_mul], ?_⟩
      intro tail failure consumed out
      rw [hcount, openSegments_succ (hfirst tail failure)]
      rfl
    · obtain ⟨more, hmoreSealed, hmoreLength, hmoreOpen⟩ :=
        @ih (bytes.drop PACK_STREAM_CHUNK_SIZE) hlast hmore (segment + 1)
          (size + (bytes.take PACK_STREAM_CHUNK_SIZE).length) (by omega) (by omega)
      have hnonempty : ¬ (bytes.drop PACK_STREAM_CHUNK_SIZE).isEmpty = true := by
        rw [List.isEmpty_iff]
        exact hlast
      rw [if_neg hnonempty, hmoreSealed]
      refine ⟨sealed ++ more, ?_, ?_, ?_⟩
      · have htotal : size + (bytes.take PACK_STREAM_CHUNK_SIZE).length
            + (bytes.drop PACK_STREAM_CHUNK_SIZE).length = size + bytes.length := by omega
        rw [htotal]
        rfl
      · rw [List.length_append, hlength, hmoreLength, hcount, Nat.succ_mul]
        omega
      · intro tail failure consumed out
        rw [hcount, List.append_assoc, openSegments_succ (hfirst (more ++ tail) failure)]
        have hremaining : bytes.length - min bytes.length PACK_STREAM_CHUNK_SIZE
            = (bytes.drop PACK_STREAM_CHUNK_SIZE).length := by omega
        rw [hremaining, hmoreOpen, List.append_assoc, List.append_assoc, List.take_append_drop]

/-- The header of a stream. -/
abbrev packHeader (nonce : StreamNonce) : Bytes :=
  PACK_STREAM_MAGIC ++ leBytes 4 PACK_STREAM_CHUNK_SIZE ++ nonce.val

theorem length_packHeader (nonce : StreamNonce) :
    (packHeader nonce).length = PACK_STREAM_HEADER_SIZE := by
  rw [packHeader, List.length_append, List.length_append, nonce.property, length_leBytes]
  rfl

/-- A header is read as it was written. -/
theorem parsePackHeader_packHeader (nonce : StreamNonce) :
    parsePackHeader (packHeader nonce) = .ok nonce := by
  have hmagic : (packHeader nonce).take 8 = PACK_STREAM_MAGIC := rfl
  have hchunk : ((packHeader nonce).drop 8).take 4 = leBytes 4 PACK_STREAM_CHUNK_SIZE := rfl
  have hnonce : (packHeader nonce).drop 12 = nonce.val := rfl
  unfold parsePackHeader
  rw [bailIf_neg (not_not.mpr hmagic), if_neg (not_not.mpr hchunk),
    dif_pos (by rw [hnonce]; exact nonce.property)]
  rfl

/-- **A sealed stream opens**: the sizes, and the plaintext. -/
theorem sealPackStream_opens (hcipher : SegmentCipher P) (key : SecretKey) (nonce : StreamNonce)
    (baseAad : Bytes) {p : Bytes} (hne : p ≠ [])
    (hsegments : packSegments p.length < MAX_SEGMENTS) :
    ∃ cipher, sealSegments P key nonce (packStreamAad baseAad (packHeader nonce)) 0 0
        (chunksOf PACK_STREAM_CHUNK_SIZE (p.length + 1) p) = .ok (cipher, p.length)
      ∧ (packHeader nonce ++ cipher).length
        = PACK_STREAM_HEADER_SIZE + p.length + packSegments p.length * PACK_STREAM_TAG_SIZE
      ∧ (packHeader nonce ++ cipher).length < 2 ^ 64
      ∧ openPackStream P collect key ⟨packHeader nonce ++ cipher, none⟩ baseAad p.length
          (objectId P (packHeader nonce ++ cipher)) []
        = (.ok (packHeader nonce ++ cipher).length, p) := by
  have hcover := packSegments_covers p.length
  -- the largest stream is far from overflowing a size
  have hlt : p.length + packSegments p.length * PACK_STREAM_TAG_SIZE + PACK_STREAM_HEADER_SIZE
      < 2 ^ 64 := by
    have hchunk : PACK_STREAM_CHUNK_SIZE = 1048576 := rfl
    have hmax : MAX_SEGMENTS = 4294967295 := rfl
    have htag : PACK_STREAM_TAG_SIZE = 16 := rfl
    have hheader : PACK_STREAM_HEADER_SIZE = 31 := rfl
    rw [hchunk] at hcover
    rw [hmax] at hsegments
    rw [htag, hheader]
    omega
  obtain ⟨cipher, hseal, hlength, hopen⟩ := @sealSegments_roundTrip P key nonce
    (packStreamAad baseAad (packHeader nonce)) hcipher (p.length + 1) p hne (Nat.le_succ _) 0 0
    (by omega) (by omega)
  rw [Nat.zero_add] at hseal
  have hsize : (packHeader nonce ++ cipher).length
      = PACK_STREAM_HEADER_SIZE + p.length + packSegments p.length * PACK_STREAM_TAG_SIZE := by
    rw [List.length_append, length_packHeader, hlength]
    omega
  refine ⟨cipher, hseal, hsize, by omega, ?_⟩
  have hpos : p.length ≠ 0 := fun h => hne (List.length_eq_zero_iff.mp h)
  have hcount : packCiphertextSize p.length = .ok (packHeader nonce ++ cipher).length := by
    simp only [packCiphertextSize, except_bind_eq_ok, bailIf_eq_ok]
    refine ⟨(), Nat.not_le_of_lt hsegments, (), ?_, ?_⟩
    · rw [← hsize]
      omega
    · rw [hsize]
      rfl
  have hread : Reader.readExact ⟨packHeader nonce ++ cipher, none⟩ PACK_STREAM_HEADER_SIZE
      "truncated pack stream header" = .ok (packHeader nonce, ⟨cipher, none⟩) := by
    have hle : (packHeader nonce).length ≤ (packHeader nonce ++ cipher).length :=
      (List.prefix_append _ _).length_le
    unfold Reader.readExact
    rw [← length_packHeader nonce, if_pos hle, List.take_left, List.drop_left]
  have hheader : openPackHeader ⟨packHeader nonce ++ cipher, none⟩ p.length
      = .ok (packHeader nonce, ⟨cipher, none⟩, nonce, (packHeader nonce ++ cipher).length) := by
    simp only [openPackHeader, except_bind_eq_ok, bailIf_eq_ok]
    exact ⟨(), hpos, (packHeader nonce, ⟨cipher, none⟩), hread, nonce,
      parsePackHeader_packHeader nonce, _, hcount, rfl⟩
  have hsegmentsOpen := hopen [] none (packHeader nonce) []
  rw [List.append_nil, List.nil_append] at hsegmentsOpen
  rw [openPackStream, hheader]
  obtain ⟨segments, hcount⟩ : ∃ segments, packSegments p.length = segments := ⟨_, rfl⟩
  rw [hcount] at hsegmentsOpen ⊢
  rw [Action.bind_of_ok (Action.lift_apply _ _)]
  dsimp only
  rw [Action.bind_of_ok hsegmentsOpen]
  have hend : checkPackEnd P ⟨[], none⟩ (packHeader nonce ++ cipher)
      (packHeader nonce ++ cipher).length (objectId P (packHeader nonce ++ cipher))
      = .ok (packHeader nonce ++ cipher).length := by
    simp only [checkPackEnd, except_bind_eq_ok, bailIf_eq_ok]
    exact ⟨(), rfl, (), not_not.mpr rfl, (), not_not.mpr rfl, rfl⟩
  rw [hend]
  rfl

/-- What the sealer did with its first chunk. -/
theorem sealSegments_ok {segment size total : Nat} {chunk cipher : Bytes} {rest : List Bytes}
    (h : sealSegments P key nonce aad segment size (chunk :: rest) = .ok (cipher, total)) :
    size + chunk.length < 2 ^ 64 ∧ segment + 1 < MAX_SEGMENTS ∧ ∃ sealed,
      P.aeadSeal key (segmentNonce nonce segment rest.isEmpty) chunk aad = some sealed
        ∧ ((rest.isEmpty = true ∧ cipher = sealed ∧ total = size + chunk.length)
          ∨ (rest.isEmpty = false ∧ ∃ more, cipher = sealed ++ more
            ∧ sealSegments P key nonce aad (segment + 1) (size + chunk.length) rest
              = .ok (more, total))) := by
  simp only [sealSegments, except_bind_eq_ok, orBail_eq_ok, bailIf_eq_ok, checkedAdd_eq_some] at h
  obtain ⟨sum, ⟨rfl, hsum⟩, ⟨⟩, hsegment, sealed, hseal, h⟩ := h
  refine ⟨hsum, Nat.lt_of_not_le hsegment, sealed, hseal, ?_⟩
  by_cases hrest : rest.isEmpty = true
  · rw [if_pos hrest] at h
    cases h
    exact .inl ⟨hrest, rfl, rfl⟩
  · rw [if_neg hrest] at h
    obtain ⟨⟨more, sum⟩, hmore, h⟩ := except_bind_eq_ok.mp h
    cases h
    exact .inr ⟨by simpa using hrest, more, rfl, hmore⟩

namespace Streamed

/-- One segment of the sealer adds its ciphertext to what is written. -/
theorem sealSegment_ok {segments : Nat} {last : Bool} {chunk sealed : Bytes} {output : DigestWriter}
    (hseal : P.aeadSeal key (segmentNonce nonce segments last) chunk aad = some sealed)
    (hbound : output.count + sealed.length < 2 ^ 64) :
    sealSegment P key nonce aad segments last chunk output
      = .ok ⟨output.written ++ sealed, output.count + sealed.length⟩ := by
  have hplus : plus output.count sealed.length = .ok (output.count + sealed.length) :=
    orBail_eq_ok.mpr (checkedAdd_eq_some.mpr ⟨rfl, hbound⟩)
  unfold sealSegment DigestWriter.writeAll
  rw [hseal]
  exact except_bind_eq_ok.mpr ⟨sealed, rfl, except_bind_eq_ok.mpr ⟨_, hplus, rfl⟩⟩

/-- **The loop of the sealer**, whatever the pieces, does not overflow. -/
theorem sealLoop_ok {fuel cut : Nat} {source : Source} {current cipher : Bytes}
    {size segments total : Nat} {output : DigestWriter} (hproper : Proper source)
    (hclean : failure source = none) (hfuel : (content source).length < fuel)
    (hcut : (content source).length ≤ cut)
    (hseal : sealSegments P key nonce aad segments size
      (current :: chunksOf PACK_STREAM_CHUNK_SIZE cut (content source)) = .ok (cipher, total))
    (hbound : output.count + cipher.length < 2 ^ 64) :
    sealLoop P key nonce aad fuel source current size segments output
      = .ok (total, ⟨output.written ++ cipher, output.count + cipher.length⟩) := by
  induction fuel generalizing cut source current cipher size segments output with
  | zero => cases hfuel
  | succ fuel ih =>
    obtain ⟨hsize, hsegment, sealed, hsealed, hrest⟩ := sealSegments_ok hseal
    rw [chunksOf_isEmpty hcut] at hsealed hrest
    obtain ⟨rest, hread, hp, hcontent, hfailure⟩ : ∃ rest, fill PACK_STREAM_CHUNK_SIZE source
        = .ok ((content source).take PACK_STREAM_CHUNK_SIZE, rest) ∧ _ :=
      fill_ok hproper (.inr hclean)
    have hadd : checkedAdd size current.length = some (size + current.length) :=
      checkedAdd_eq_some.mpr ⟨rfl, hsize⟩
    have hplus : plus segments 1 = .ok (segments + 1) := by
      have hmax : MAX_SEGMENTS = 2 ^ 32 - 1 := rfl
      exact orBail_eq_ok.mpr (checkedAdd_eq_some.mpr ⟨rfl, by omega⟩)
    have hone : 0 < PACK_STREAM_CHUNK_SIZE := by decide
    unfold sealLoop readChunk
    refine except_bind_eq_ok.mpr ⟨_, hread, except_bind_eq_ok.mpr ⟨_, orBail_eq_ok.mpr hadd,
      except_bind_eq_ok.mpr ⟨_, hplus, except_bind_eq_ok.mpr
        ⟨(), bailIf_neg (Nat.not_le_of_lt hsegment), ?_⟩⟩⟩⟩
    rcases hrest with ⟨hlast, rfl, rfl⟩ | ⟨hmore, more, rfl, hsealedMore⟩
    · -- nothing was read ahead, so this is the last segment
      have hnext : (content source).take PACK_STREAM_CHUNK_SIZE = [] := by
        rw [List.isEmpty_iff.mp hlast]
        rfl
      rw [hlast] at hsealed
      rw [if_pos hnext]
      exact except_bind_eq_ok.mpr ⟨_, sealSegment_ok hsealed hbound, rfl⟩
    · have hne : content source ≠ [] := by
        intro hnil
        rw [hnil] at hmore
        cases hmore
      have hnext : (content source).take PACK_STREAM_CHUNK_SIZE ≠ [] := by
        rw [ne_eq, List.take_eq_nil_iff, not_or]
        exact ⟨by omega, hne⟩
      rw [hmore] at hsealed
      rw [List.length_append] at hbound
      rw [if_neg hnext]
      refine except_bind_eq_ok.mpr ⟨_, sealSegment_ok hsealed (by omega), ?_⟩
      -- the chunk just read is the next segment, and the rest of the source is cut as before
      have hpos : 0 < (content source).length := List.length_pos_iff.mpr hne
      obtain ⟨cut, rfl⟩ : ∃ n, cut = n + 1 := ⟨cut - 1, by omega⟩
      rw [chunksOf_succ hne, ← hcontent] at hsealedMore
      have hshorter : (content rest).length < (content source).length := by
        rw [hcontent, List.length_drop]
        omega
      have hloop := @ih cut rest _ more _ _
        ⟨output.written ++ sealed, output.count + sealed.length⟩ hp (hfailure.trans hclean)
        (by omega) (by omega) hsealedMore (by dsimp only; omega)
      rw [hloop, List.append_assoc, List.length_append, Nat.add_assoc]

/-- A source that yields these bytes, in pieces of its own choice. -/
structure Yields (source : Source) (bytes : Bytes) : Prop where
  proper : Proper source
  clean : failure source = none
  content : content source = bytes

/-- What one seal and one open of a pack come to. -/
structure RoundTrip (P : Primitives) (key : SecretKey) (nonce : StreamNonce) (plaintext : Source)
    (baseAad p : Bytes) (sealed : Sealed) : Prop where
  returns : sealPackStream P key nonce plaintext baseAad = .ok sealed
  plaintextSize : sealed.plaintextSize = p.length
  ciphertextSize : sealed.ciphertextSize = 31 + p.length + 16 * ((p.length + 1048575) / 1048576)
  written : sealed.written.length = sealed.ciphertextSize
  objectId : sealed.objectId = objectId P sealed.written
  opens : ∀ ciphertext, Yields ciphertext sealed.written →
    openPackStream P collect key ciphertext baseAad p.length sealed.objectId []
      = (.ok sealed.ciphertextSize, p)

/-- **Packs round-trip**, for every way the plaintext arrives and the ciphertext is read
back, and no counter overflows on the way. -/
theorem pack_stream_round_trip (hcipher : SegmentCipher P) (key : SecretKey) (nonce : StreamNonce)
    (baseAad : Bytes) {p : Bytes} (hpositive : 1 ≤ p.length)
    (hsegments : (p.length + 1048575) / 1048576 < 2 ^ 32 - 1) {plaintext : Source}
    (hyields : Yields plaintext p) :
    ∃ sealed, RoundTrip P key nonce plaintext baseAad p sealed := by
  have hne : p ≠ [] := List.length_pos_iff.mp hpositive
  have hcount : packSegments p.length = (p.length + 1048575) / 1048576 := by
    have hchunk : PACK_STREAM_CHUNK_SIZE = 1048576 := rfl
    rw [packSegments, hchunk, Nat.add_sub_assoc (by decide)]
  rw [← hcount] at hsegments
  obtain ⟨cipher, hseal, hsize, hlt, hopen⟩ := sealPackStream_opens hcipher key nonce baseAad hne
    hsegments
  have hlength : (packHeader nonce ++ cipher).length
      = 31 + p.length + 16 * ((p.length + 1048575) / 1048576) := by
    rw [hsize, hcount, Nat.mul_comm]
    rfl
  obtain ⟨hproper, hclean, hcontent⟩ := hyields
  refine ⟨⟨GitE2EE.objectId P (packHeader nonce ++ cipher), p.length,
    (packHeader nonce ++ cipher).length, packHeader nonce ++ cipher⟩, ?_, rfl,
      hlength, rfl, rfl, ?_⟩
  · obtain ⟨rest, hread, hp, hrest, hfailure⟩ : ∃ rest, fill PACK_STREAM_CHUNK_SIZE plaintext
        = .ok ((content plaintext).take PACK_STREAM_CHUNK_SIZE, rest) ∧ _ :=
      fill_ok hproper (.inr hclean)
    rw [hcontent] at hread hrest
    rw [chunksOf_succ hne, ← hrest] at hseal
    have hone : 0 < PACK_STREAM_CHUNK_SIZE := by decide
    have hrestLength : (content rest).length < p.length := by
      rw [hrest, List.length_drop]
      omega
    have hsizeLe := content_length_le plaintext
    rw [hcontent] at hsizeLe
    have hheader : DigestWriter.writeAll ⟨[], 0⟩ (packHeader nonce)
        = .ok ⟨packHeader nonce, (packHeader nonce).length⟩ := by
      have hplus : plus 0 (packHeader nonce).length = .ok (packHeader nonce).length := by
        rw [length_packHeader]
        rfl
      exact except_bind_eq_ok.mpr ⟨_, hplus, rfl⟩
    have hnext : ¬ p.take PACK_STREAM_CHUNK_SIZE = [] := by
      rw [List.take_eq_nil_iff, not_or]
      exact ⟨by omega, hne⟩
    have htotal : (packHeader nonce).length + cipher.length = (packHeader nonce ++ cipher).length :=
      List.length_append.symm
    have hloop := @sealLoop_ok P key nonce _ (size plaintext + 1) p.length rest _
      cipher 0 0 p.length
      ⟨packHeader nonce, (packHeader nonce).length⟩ hp (hfailure.trans hclean) (by omega)
      (Nat.le_of_lt hrestLength) hseal (by dsimp only; omega)
    unfold sealPackStream readChunk
    refine except_bind_eq_ok.mpr ⟨_, hheader, except_bind_eq_ok.mpr ⟨_, hread,
      except_bind_eq_ok.mpr ⟨(), bailIf_neg hnext, except_bind_eq_ok.mpr ⟨_, hloop, ?_⟩⟩⟩⟩
    rw [htotal]
    rfl
  · intro ciphertext hwritten
    obtain ⟨hp, hc, hbytes⟩ := hwritten
    rw [openPackStream_eq hp, toReader, hbytes, hc]
    exact hopen

/-- Three bytes in two pieces, with an interrupted read in between. -/
theorem pack_stream_round_trip_pieces : ∃ sealed, RoundTrip Reference.primitives
    (Reference.number 1) ⟨List.replicate 19 0, rfl⟩ [.data [1], .interrupted, .data [2, 3]] []
    [1, 2, 3] sealed := by
  have hcipher : SegmentCipher Reference.primitives := by
    intro key nonce segment last plain aad _
    obtain ⟨hopen, hlength⟩ := Reference.lawful.aead_open
      (show Reference.primitives.aeadSeal key (segmentNonce nonce segment last) plain aad
        = some (Reference.sealTagged key.val plain) from rfl)
    exact ⟨_, rfl, hopen, hlength⟩
  refine pack_stream_round_trip hcipher _ _ _ (by decide) (by decide)
    ⟨fun bytes hmem => ?_, rfl, rfl⟩
  rcases List.mem_cons.mp hmem with heq | hmem
  · cases heq
    exact List.cons_ne_nil _ _
  · rcases List.mem_cons.mp hmem with heq | hmem
    · cases heq
    · cases List.mem_singleton.mp hmem
      exact List.cons_ne_nil _ _

end Streamed

end

end GitE2EE

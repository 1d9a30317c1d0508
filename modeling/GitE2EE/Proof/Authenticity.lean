import GitE2EE.Proof.Messages
import GitE2EE.Proof.Streams

/-!
# Only sealed packs open

With an ideal segment cipher a stream opens only if it is the output of one call of the
sealer, whole and in order: the header fixes the call, the counter fixes the position of a
segment, and the flag of the last one fixes the end. The content hash is not needed for it.
What a failing stream has handed to its sink by then is the beginning of such a plaintext.

The sealer may fail as well, and has encrypted the first segments of its plaintext by then.
They count as sealed.
-/

namespace GitE2EE

open Wire Effect

namespace Streamed

/-! ## What a call of the sealer encrypts -/

/-- One use of the cipher in a stream. -/
structure Encryption where
  segment : Nat
  last : Bool
  plain : Bytes

section

variable (P : Primitives) (key : SecretKey) (nonce : StreamNonce) (aad : Bytes)

/-- What a round of the loop of `seal_pack_stream` settles before it encrypts. -/
def advance (source : Source) (current : Bytes) (plaintextSize segments : Nat) :
    Result (Bytes × Source × Nat × Nat) := do
  let (next, source) ← readChunk source
  let plaintextSize ← orBail (checkedAdd plaintextSize current.length)
    "pack plaintext size overflow"
  let count ← plus segments 1
  bailIf (MAX_SEGMENTS ≤ count) "pack stream exceeds segment counter limit"
  pure (next, source, plaintextSize, count)

/-- What the loop encrypts until it returns or fails. -/
def encryptions : Nat → Source → Bytes → Nat → Nat → DigestWriter → List Encryption
  | 0, _, _, _, _, _ => []
  | fuel + 1, source, current, plaintextSize, segments, output =>
    match advance source current plaintextSize segments with
    | .error _ => []
    | .ok (next, source, plaintextSize, count) =>
      ⟨segments, next = [], current⟩ ::
        if next = [] then []
        else match sealSegment P key nonce aad segments false current output with
          | .error _ => []
          | .ok output => encryptions fuel source next plaintextSize count output

variable {P key nonce aad}

theorem sealLoop_succ (fuel : Nat) (source : Source) (current : Bytes)
    (plaintextSize segments : Nat) (output : DigestWriter) :
    sealLoop P key nonce aad (fuel + 1) source current plaintextSize segments output = (do
      let (next, source, plaintextSize, count) ← advance source current plaintextSize segments
      if next = [] then do
        let output ← sealSegment P key nonce aad segments true current output
        pure (plaintextSize, output)
      else do
        let output ← sealSegment P key nonce aad segments false current output
        sealLoop P key nonce aad fuel source next plaintextSize count output) := by
  simp only [sealLoop, advance, bind_assoc, pure_bind]

/-- A chunk that was read. -/
theorem readChunk_ok {source rest : Source} {next : Bytes} (hproper : Proper source)
    (h : readChunk source = .ok (next, rest)) :
    Proper rest ∧ content source = next ++ content rest ∧ failure rest = failure source
      ∧ (next = [] → content source = [] ∧ failure source = none) := by
  have hone : 0 < PACK_STREAM_CHUNK_SIZE := by decide
  -- a short chunk is the end of the source, since a failure before it would have been reported
  have hfull : PACK_STREAM_CHUNK_SIZE ≤ (content source).length ∨ failure source = none := by
    by_cases hlength : PACK_STREAM_CHUNK_SIZE ≤ (content source).length
    · exact .inl hlength
    · cases hfailure : failure source with
      | none => exact .inr rfl
      | some error =>
        rw [readChunk, fill_error hproper (Nat.lt_of_not_le hlength) hfailure] at h
        cases h
  obtain ⟨rest', hread, hp, hcontent, hfailure⟩ := fill_ok hproper hfull
  rw [readChunk, hread] at h
  cases h
  refine ⟨hp, by rw [hcontent, List.take_append_drop], hfailure, fun hnil => ?_⟩
  have hempty : content source = [] := by
    rcases List.take_eq_nil_iff.mp hnil with hzero | hempty
    · omega
    · exact hempty
  refine ⟨hempty, hfull.resolve_left ?_⟩
  rw [hempty, List.length_nil]
  omega

theorem advance_ok {source rest : Source} {current next : Bytes}
    {plaintextSize size segments count : Nat}
    (h : advance source current plaintextSize segments = .ok (next, rest, size, count)) :
    readChunk source = .ok (next, rest) ∧ size = plaintextSize + current.length
      ∧ count = segments + 1 := by
  simp only [advance, plus, except_bind_eq_ok, orBail_eq_ok, checkedAdd_eq_some] at h
  obtain ⟨⟨next', rest'⟩, hread, size', ⟨hsize, -⟩, count', ⟨hcount, -⟩, -, -, h⟩ := h
  cases h
  exact ⟨hread, hsize.symm, hcount.symm⟩

/-- The encryptions are numbered as they come. -/
theorem encryptions_segment (fuel : Nat) : ∀ (source : Source) (current : Bytes)
    (plaintextSize segments : Nat) (output : DigestWriter) (i : Nat) (e : Encryption),
    (encryptions P key nonce aad fuel source current plaintextSize segments output)[i]? = some e →
    e.segment = segments + i := by
  induction fuel with
  | zero =>
    intro source current plaintextSize segments output i e h
    rw [encryptions] at h
    cases h
  | succ fuel ih =>
    intro source current plaintextSize segments output i e h
    rw [encryptions] at h
    cases hadvance : advance source current plaintextSize segments with
    | error error =>
      rw [hadvance] at h
      cases h
    | ok next =>
      obtain ⟨next, rest, size, count⟩ := next
      obtain ⟨-, -, rfl⟩ := advance_ok hadvance
      rw [hadvance] at h
      cases i with
      | zero =>
        cases h
        rfl
      | succ i =>
        dsimp only at h
        rw [List.getElem?_cons_succ] at h
        split at h
        · cases h
        · split at h
          · cases h
          · rw [ih _ _ _ _ _ _ _ h]
            omega

/-- The flag marks the end. -/
theorem encryptions_last (fuel : Nat) : ∀ (source : Source) (current : Bytes)
    (plaintextSize segments : Nat) (output : DigestWriter) (i : Nat) (e : Encryption),
    (encryptions P key nonce aad fuel source current plaintextSize segments output)[i]? = some e →
    e.last = true →
    (encryptions P key nonce aad fuel source current plaintextSize segments output).length
      = i + 1 := by
  induction fuel with
  | zero =>
    intro source current plaintextSize segments output i e h _
    rw [encryptions] at h
    cases h
  | succ fuel ih =>
    intro source current plaintextSize segments output i e h hlast
    rw [encryptions] at h ⊢
    cases hadvance : advance source current plaintextSize segments with
    | error error =>
      rw [hadvance] at h
      cases h
    | ok next =>
      obtain ⟨next, rest, size, count⟩ := next
      rw [hadvance] at h
      dsimp only at h ⊢
      -- the last flag is set exactly when nothing was read ahead, and the loop stops there
      by_cases hnext : next = []
      · rw [if_pos hnext] at h ⊢
        cases i with
        | zero => rfl
        | succ i => cases h
      · rw [if_neg hnext] at h ⊢
        cases i with
        | zero =>
          cases h
          exact absurd (of_decide_eq_true hlast) hnext
        | succ i =>
          rw [List.getElem?_cons_succ] at h
          rw [List.length_cons]
          split at h
          · cases h
          · rename_i hstep
            rw [ih _ _ _ _ _ _ _ h hlast]

/-- What was encrypted is the beginning of what the source has. -/
theorem encryptions_plain (fuel : Nat) : ∀ (source : Source) (current : Bytes)
    (plaintextSize segments : Nat) (output : DigestWriter), Proper source →
    (encryptions P key nonce aad fuel source current plaintextSize segments output).flatMap
      Encryption.plain <+: current ++ content source := by
  induction fuel with
  | zero => exact fun _ _ _ _ _ _ => List.nil_prefix
  | succ fuel ih =>
    intro source current plaintextSize segments output hproper
    rw [encryptions]
    cases hadvance : advance source current plaintextSize segments with
    | error error => exact List.nil_prefix
    | ok next =>
      obtain ⟨next, rest, size, count⟩ := next
      obtain ⟨hread, -, -⟩ := advance_ok hadvance
      obtain ⟨hrest, hcontent, -, -⟩ := readChunk_ok hproper hread
      dsimp only
      rw [List.flatMap_cons]
      refine List.prefix_append_right_inj _ |>.mpr ?_
      split
      · exact List.nil_prefix
      · split
        · exact List.nil_prefix
        · rw [hcontent]
          exact ih _ _ _ _ _ hrest

/-- **A stream that was encrypted to its end was sealed**: the loop has returned, with the
segments in their order. -/
theorem sealLoop_of_last (fuel : Nat) : ∀ (source : Source) (current : Bytes)
    (plaintextSize segments : Nat) (output : DigestWriter) (chunks : List Bytes), Proper source →
    List.Forall₂ (fun e chunk =>
        P.aeadSeal key (segmentNonce nonce e.segment e.last) e.plain aad = some chunk)
      (encryptions P key nonce aad fuel source current plaintextSize segments output) chunks →
    (∃ e ∈ encryptions P key nonce aad fuel source current plaintextSize segments output,
      e.last = true) →
    output.count + chunks.flatten.length < 2 ^ 64 →
    current ++ content source
        = (encryptions P key nonce aad fuel source current plaintextSize segments output).flatMap
            Encryption.plain
      ∧ sealLoop P key nonce aad fuel source current plaintextSize segments output
        = .ok (plaintextSize + (current ++ content source).length,
            ⟨output.written ++ chunks.flatten, output.count + chunks.flatten.length⟩) := by
  induction fuel with
  | zero =>
    intro source current plaintextSize segments output chunks _ _ hlast _
    obtain ⟨e, he, -⟩ := hlast
    cases he
  | succ fuel ih =>
    intro source current plaintextSize segments output chunks hproper hsealed hlast hbound
    rw [sealLoop_succ]
    rw [encryptions] at hsealed hlast ⊢
    cases hadvance : advance source current plaintextSize segments with
    | error error =>
      rw [hadvance] at hlast
      obtain ⟨e, he, -⟩ := hlast
      cases he
    | ok next =>
      obtain ⟨next, rest, size, count⟩ := next
      obtain ⟨hread, rfl, -⟩ := advance_ok hadvance
      obtain ⟨hrest, hcontent, -, hempty⟩ := readChunk_ok hproper hread
      rw [hadvance] at hsealed hlast
      dsimp only at hsealed hlast ⊢
      cases hsealed with
      | @cons _ chunk _ more hchunk hmore =>
      rw [List.flatten_cons, List.length_append] at hbound
      by_cases hnext : next = []
      · -- the end of the source: this is the last segment
        rw [if_pos hnext] at hmore ⊢
        cases hmore
        obtain ⟨hnothing, -⟩ := hempty hnext
        dsimp only at hchunk
        rw [decide_eq_true hnext] at hchunk
        rw [List.flatten_nil, List.length_nil] at hbound
        refine ⟨by rw [hnothing, List.append_nil, List.flatMap_cons, List.flatMap_nil,
          List.append_nil], ?_⟩
        refine except_bind_eq_ok.mpr ⟨_, rfl, ?_⟩
        dsimp only
        rw [if_pos hnext, hnothing, List.append_nil, List.flatten_cons, List.flatten_nil,
          List.append_nil]
        exact except_bind_eq_ok.mpr ⟨_, sealSegment_ok hchunk (by omega), rfl⟩
      · rw [if_neg hnext] at hmore hlast ⊢
        dsimp only at hchunk
        rw [decide_eq_false hnext] at hchunk
        have hstep := @sealSegment_ok P key nonce aad segments false current chunk output hchunk
          (by omega)
        rw [hstep] at hmore hlast ⊢
        dsimp only at hmore hlast ⊢
        have hlater : ∃ e ∈ encryptions P key nonce aad fuel rest next
            (plaintextSize + current.length) count
            ⟨output.written ++ chunk, output.count + chunk.length⟩, e.last = true := by
          obtain ⟨e, he, hflag⟩ := hlast
          rcases List.mem_cons.mp he with rfl | he
          · exact absurd (of_decide_eq_true hflag) hnext
          · exact ⟨e, he, hflag⟩
        obtain ⟨hplain, hloop⟩ := ih _ _ _ _ _ _ hrest hmore hlater (by dsimp only; omega)
        refine ⟨by rw [List.flatMap_cons, ← hplain, hcontent], ?_⟩
        refine except_bind_eq_ok.mpr ⟨_, rfl, ?_⟩
        dsimp only
        rw [if_neg hnext]
        refine except_bind_eq_ok.mpr ⟨_, rfl, ?_⟩
        rw [hloop, hcontent, List.flatten_cons]
        simp only [List.length_append, List.append_assoc, Nat.add_assoc]

end

/-- A call of `seal_pack_stream` under some key. -/
structure SealCall where
  nonce : StreamNonce
  plaintext : Source
  baseAad : Bytes
  proper : Proper plaintext

namespace SealCall

variable (P : Primitives) (key : SecretKey) (call : SealCall)

def aad : Bytes := packStreamAad call.baseAad (packHeader call.nonce)

def run : Result Sealed := sealPackStream P key call.nonce call.plaintext call.baseAad

/-- What the call encrypts until it returns or fails. -/
def encryptions : List Encryption :=
  match readChunk call.plaintext with
  | .error _ => []
  | .ok (current, source) =>
    if current = [] then []
    else Streamed.encryptions P key call.nonce call.aad (size call.plaintext + 1) source current 0 0
      ⟨packHeader call.nonce, PACK_STREAM_HEADER_SIZE⟩

variable {P key call}

theorem encryptions_segment {i : Nat} {e : Encryption}
    (h : (call.encryptions P key)[i]? = some e) : e.segment = i := by
  unfold encryptions at h
  split at h
  · cases h
  · split at h
    · cases h
    · rw [Streamed.encryptions_segment _ _ _ _ _ _ _ _ h, Nat.zero_add]

theorem encryptions_last {i : Nat} {e : Encryption}
    (h : (call.encryptions P key)[i]? = some e) (hlast : e.last = true) :
    (call.encryptions P key).length = i + 1 := by
  unfold encryptions at h ⊢
  split at h
  · cases h
  · split at h
    · cases h
    · rename_i hcurrent
      rw [if_neg hcurrent]
      exact Streamed.encryptions_last _ _ _ _ _ _ _ _ h hlast

theorem encryptions_plain :
    (call.encryptions P key).flatMap Encryption.plain <+: content call.plaintext := by
  unfold encryptions
  split
  · exact List.nil_prefix
  · rename_i current source hread
    obtain ⟨hsource, hcontent, -, -⟩ := readChunk_ok call.proper hread
    split
    · exact List.nil_prefix
    · rw [hcontent]
      exact Streamed.encryptions_plain _ _ _ _ _ _ hsource

/-- A call that encrypted a last segment has returned. -/
theorem run_of_last {chunks : List Bytes}
    (hsealed : List.Forall₂ (fun e chunk =>
        P.aeadSeal key (segmentNonce call.nonce e.segment e.last) e.plain call.aad = some chunk)
      (call.encryptions P key) chunks)
    (hlast : ∃ e ∈ call.encryptions P key, e.last = true)
    (hbound : PACK_STREAM_HEADER_SIZE + chunks.flatten.length < 2 ^ 64) :
    content call.plaintext = (call.encryptions P key).flatMap Encryption.plain
      ∧ ∃ sealed, call.run P key = .ok sealed
        ∧ sealed.written = packHeader call.nonce ++ chunks.flatten
        ∧ sealed.plaintextSize = (content call.plaintext).length := by
  unfold encryptions at hsealed hlast ⊢
  cases hread : readChunk call.plaintext with
  | error error =>
    rw [hread] at hlast
    obtain ⟨e, he, -⟩ := hlast
    cases he
  | ok first =>
    obtain ⟨current, source⟩ := first
    obtain ⟨hsource, hcontent, -, -⟩ := readChunk_ok call.proper hread
    rw [hread] at hsealed hlast
    dsimp only at hsealed hlast ⊢
    by_cases hcurrent : current = []
    · rw [if_pos hcurrent] at hlast
      obtain ⟨e, he, -⟩ := hlast
      cases he
    · rw [if_neg hcurrent] at hsealed hlast ⊢
      obtain ⟨hplain, hloop⟩ := sealLoop_of_last _ _ _ _ _ _ _ hsource hsealed hlast hbound
      have hheader : DigestWriter.writeAll ⟨[], 0⟩ (packHeader call.nonce)
          = .ok ⟨packHeader call.nonce, PACK_STREAM_HEADER_SIZE⟩ := by
        have hplus : plus 0 (packHeader call.nonce).length = .ok PACK_STREAM_HEADER_SIZE := by
          rw [length_packHeader]
          rfl
        exact except_bind_eq_ok.mpr ⟨_, hplus, rfl⟩
      refine ⟨by rw [hcontent, hplain], ⟨objectId P (packHeader call.nonce ++ chunks.flatten),
        (content call.plaintext).length, PACK_STREAM_HEADER_SIZE + chunks.flatten.length,
        packHeader call.nonce ++ chunks.flatten⟩, ?_, rfl, rfl⟩
      rw [Nat.zero_add, ← hcontent] at hloop
      exact except_bind_eq_ok.mpr ⟨_, hheader, except_bind_eq_ok.mpr ⟨_, hread,
        except_bind_eq_ok.mpr ⟨(), bailIf_neg hcurrent, except_bind_eq_ok.mpr ⟨_, hloop, rfl⟩⟩⟩⟩

end SealCall

/-! ## The cipher -/

/-- An ideal segment cipher under `key`, when these are the calls of the sealer: a segment
opens only if one of them encrypted it, with the same nonce, counter, flag and associated
data, and no two of them drew the same nonce. -/
structure IdealSegments (P : Primitives) (key : SecretKey) (calls : List SealCall) : Prop where
  distinct : (calls.map SealCall.nonce).Nodup
  opens : ∀ nonce segment last chunk aad plain, segment < 2 ^ 32 →
    P.aeadOpen key (segmentNonce nonce segment last) chunk aad = some plain →
    ∃ call ∈ calls, call.nonce = nonce ∧ call.aad = aad
      ∧ ⟨segment, last, plain⟩ ∈ call.encryptions P key
      ∧ P.aeadSeal key (segmentNonce nonce segment last) plain aad = some chunk

section

variable {P : Primitives} {key : SecretKey} {calls : List SealCall}

/-- The one call a nonce and associated data belong to, if there is one: what opens with
them is what that call encrypted, at its position. -/
theorem IdealSegments.position (h : IdealSegments P key calls) (nonce : StreamNonce) (aad : Bytes) :
    ∃ events : List Encryption,
      (events = [] ∨ ∃ call ∈ calls, call.nonce = nonce ∧ call.aad = aad
        ∧ events = call.encryptions P key)
      ∧ ∀ segment last chunk plain, segment < 2 ^ 32 →
        P.aeadOpen key (segmentNonce nonce segment last) chunk aad = some plain →
        events[segment]? = some ⟨segment, last, plain⟩
          ∧ P.aeadSeal key (segmentNonce nonce segment last) plain aad = some chunk := by
  -- nonces are distinct, so the header's nonce picks at most one call
  by_cases hcall : ∃ call ∈ calls, call.nonce = nonce ∧ call.aad = aad
  · obtain ⟨call, hmem, hnonce, haad⟩ := hcall
    refine ⟨_, .inr ⟨call, hmem, hnonce, haad, rfl⟩, fun segment last chunk plain hlt hopen => ?_⟩
    obtain ⟨call', hmem', hnonce', -, hevent, hseal⟩ := h.opens _ _ _ _ _ _ hlt hopen
    obtain rfl : call' = call :=
      List.inj_on_of_nodup_map h.distinct hmem' hmem (hnonce'.trans hnonce.symm)
    refine ⟨?_, hseal⟩
    obtain ⟨i, hi⟩ := List.mem_iff_getElem?.mp hevent
    have hsegment : segment = i := SealCall.encryptions_segment hi
    rw [hsegment, hi, ← hsegment]
  · refine ⟨[], .inl rfl, fun segment last chunk plain hlt hopen => ?_⟩
    obtain ⟨call, hmem, hnonce, haad, -⟩ := h.opens _ _ _ _ _ _ hlt hopen
    exact absurd ⟨call, hmem, hnonce, haad⟩ hcall

end

/-! ## The opener -/

/-- Where the plaintext goes: what was handed over, and how the next writes end. -/
structure Sink where
  handed : Bytes
  verdicts : List (Result Unit)

/-- `write_all` to a sink. Behind its verdicts it takes everything. -/
def Sink.write (bytes : Bytes) : Action Error Sink Unit := fun sink =>
  match sink.verdicts with
  | [] => (.ok (), ⟨sink.handed ++ bytes, []⟩)
  | verdict :: rest => (verdict, ⟨sink.handed ++ bytes, rest⟩)

theorem Sink.write_handed (bytes : Bytes) (sink : Sink) :
    (Sink.write bytes sink).2.handed = sink.handed ++ bytes := by
  unfold Sink.write
  cases sink.verdicts <;> rfl

section

variable {P : Primitives} {key : SecretKey} {nonce : StreamNonce} {aad : Bytes}
  {events : List Encryption}

/-- What the opener has handed over: the beginning of what was encrypted. -/
def Handed (events : List Encryption) (sink : Sink) : Prop :=
  ∃ count, sink.handed = (events.take count).flatMap Encryption.plain

/-- What a loop of the opener that returned has read: the segments, in their order. -/
structure ReadSegments (P : Primitives) (key : SecretKey) (nonce : StreamNonce) (aad : Bytes)
    (read : List Encryption) (reader reader' : Reader) (consumed consumed' : Bytes) : Prop where
  sealed : ∃ chunks, List.Forall₂ (fun e chunk =>
      P.aeadSeal key (segmentNonce nonce e.segment e.last) e.plain aad = some chunk) read chunks
    ∧ consumed' = consumed ++ chunks.flatten ∧ reader.bytes = chunks.flatten ++ reader'.bytes
  failure : reader'.failure = reader.failure

theorem readExact_failure {reader rest : Reader} {count : Nat} {what : String} {bytes : Bytes}
    (h : reader.readExact count what = .ok (bytes, rest)) : rest.failure = reader.failure := by
  unfold Reader.readExact at h
  split at h
  · cases h
    rfl
  · cases h

theorem openSegment_plain {segment plainLength : Nat} {last : Bool} {reader rest : Reader}
    {plain chunk : Bytes} (h : GitE2EE.openSegment P key nonce aad segment last plainLength reader
      = .ok (plain, rest, chunk)) : plain.length = plainLength ∧ rest.failure = reader.failure := by
  simp only [GitE2EE.openSegment, except_bind_eq_ok, bailIf_eq_ok] at h
  obtain ⟨⟨chunk', rest'⟩, hread, plain', -, -, hlength, h⟩ := h
  cases h
  exact ⟨not_not.mp hlength, readExact_failure hread⟩

/-- **The loop of the opener** goes through what was encrypted, one segment after the other. -/
theorem openSegments_authentic
    (hopens : ∀ segment last chunk plain, segment < 2 ^ 32 →
      P.aeadOpen key (segmentNonce nonce segment last) chunk aad = some plain →
      events[segment]? = some ⟨segment, last, plain⟩
        ∧ P.aeadSeal key (segmentNonce nonce segment last) plain aad = some chunk)
    (count : Nat) : ∀ (segment remaining : Nat) (reader : Reader) (consumed : Bytes) (sink : Sink)
    (result : Result (Reader × Bytes)) (sink' : Sink), segment + count ≤ 2 ^ 32 →
    sink.handed = (events.take segment).flatMap Encryption.plain →
    GitE2EE.openSegments P Sink.write key nonce aad count segment remaining reader consumed sink
      = (result, sink') →
    Handed events sink' ∧ ∀ reader' consumed', result = .ok (reader', consumed') →
      sink'.handed = (events.take (segment + count)).flatMap Encryption.plain
      ∧ ReadSegments P key nonce aad ((events.drop segment).take count) reader reader' consumed
        consumed'
      ∧ (0 < count → ∃ e, events[segment + count - 1]? = some e ∧ e.last = true)
      ∧ (((events.drop segment).take count).flatMap Encryption.plain).length
        = min remaining (count * PACK_STREAM_CHUNK_SIZE) := by
  induction count with
  | zero =>
    intro segment remaining reader consumed sink result sink' _ hsink h
    cases h
    refine ⟨⟨segment, hsink⟩, fun reader' consumed' hok => ?_⟩
    cases hok
    exact ⟨hsink, ⟨⟨[], .nil, (List.append_nil _).symm, rfl⟩, rfl⟩, fun h => absurd h (by omega),
      by simp⟩
  | succ count ih =>
    intro segment remaining reader consumed sink result sink' hbound hsink h
    rw [GitE2EE.openSegments] at h
    cases hsegment : GitE2EE.openSegment P key nonce aad segment (count == 0)
        (min remaining PACK_STREAM_CHUNK_SIZE) reader with
    | error error =>
      rw [Action.bind_of_error (x := Action.lift _) (e := error) (s := sink)
        (by rw [hsegment]; rfl)] at h
      cases h
      exact ⟨⟨segment, hsink⟩, fun _ _ hok => by cases hok⟩
    | ok opened =>
      obtain ⟨plain, rest, chunk⟩ := opened
      rw [Action.bind_of_ok (x := Action.lift _) (a := (plain, rest, chunk)) (s := sink)
        (by rw [hsegment]; rfl)] at h
      dsimp only at h
      obtain ⟨hopen, -, hbytes⟩ := openSegment_ok hsegment
      obtain ⟨hevent, hseal⟩ := hopens segment (count == 0) chunk plain (by omega) hopen
      obtain ⟨hlength, hfailure⟩ := openSegment_plain hsegment
      -- what opens at this number is the event the sealer made at this number
      have htake : events.take (segment + 1)
          = events.take segment ++ [⟨segment, count == 0, plain⟩] := by
        rw [List.take_add_one, hevent]
        rfl
      have hdrop : events.drop segment
          = ⟨segment, count == 0, plain⟩ :: events.drop (segment + 1) :=
        (List.getElem?_eq_some_iff.mp hevent).elim fun hlt heq => by
          rw [List.drop_eq_getElem_cons hlt, heq]
      have hhanded : (Sink.write plain sink).2.handed
          = (events.take (segment + 1)).flatMap Encryption.plain := by
        rw [Sink.write_handed, hsink, htake, List.flatMap_append, List.flatMap_singleton]
      -- the sink may refuse: what it was handed is then still a prefix of what was sealed
      rcases Action.bind_cases (Sink.write plain) (fun _ => GitE2EE.openSegments P Sink.write key
          nonce aad count (segment + 1) (remaining - min remaining PACK_STREAM_CHUNK_SIZE) rest
          (consumed ++ chunk)) sink with ⟨_, sink₁, hwrite, heq⟩ | ⟨error, sink₁, hwrite, heq⟩
      · rw [hwrite] at hhanded
        obtain ⟨hpart, hwhole⟩ := ih (segment + 1) _ rest _ sink₁ result sink' (by omega) hhanded
          (heq.symm.trans h)
        refine ⟨hpart, fun reader' consumed' hok => ?_⟩
        obtain ⟨hall, hread, hlast, hplain⟩ := hwhole reader' consumed' hok
        obtain ⟨⟨chunks, hsealed, hconsumed, hrest⟩, hfailed⟩ := hread
        rw [hdrop, List.take_succ_cons]
        refine ⟨by rw [hall, Nat.add_right_comm, Nat.add_assoc], ⟨⟨chunk :: chunks,
          .cons hseal hsealed, by rw [hconsumed, List.flatten_cons, List.append_assoc], ?_⟩,
          hfailed.trans hfailure⟩, fun _ => ?_, ?_⟩
        · rw [List.flatten_cons, List.append_assoc, ← hrest, hbytes]
        · by_cases hcount : count = 0
          · subst hcount
            exact ⟨_, hevent, rfl⟩
          · obtain ⟨e, he, hflag⟩ := hlast (Nat.pos_of_ne_zero hcount)
            exact ⟨e, by rw [← he]; congr 1; omega, hflag⟩
        · rw [List.flatMap_cons, List.length_append, hplain]
          show plain.length + _ = _
          rw [hlength, Nat.succ_mul]
          omega
      · rw [hwrite] at hhanded
        rw [heq] at h
        cases h
        exact ⟨⟨segment + 1, hhanded⟩, fun _ _ hok => by cases hok⟩

theorem packHeader_of_parse {header : Bytes} (h : parsePackHeader header = .ok nonce) :
    header = packHeader nonce := by
  unfold parsePackHeader at h
  obtain ⟨_, hmagic, h⟩ := except_bind_eq_ok.mp h
  rw [bailIf_eq_ok, not_not] at hmagic
  split at h
  · cases h
  · rename_i hsize
    rw [not_not] at hsize
    split at h
    · cases h
      have hsplit : (header.drop 8).take 4 ++ header.drop 12 = header.drop 8 := by
        rw [show header.drop 12 = (header.drop 8).drop 4 by rw [List.drop_drop]]
        exact List.take_append_drop _ _
      rw [packHeader, ← hmagic, ← hsize, List.append_assoc]
      dsimp only
      rw [hsplit, List.take_append_drop]
    · cases h

/-- The associated data of a stream names its context. -/
theorem packStreamAad_left_inj {baseAad baseAad' header : Bytes}
    (h : packStreamAad baseAad header = packStreamAad baseAad' header) : baseAad = baseAad' := by
  unfold packStreamAad at h
  have hfields := List.append_cancel_right h
  have hfield := List.append_cancel_left hfields
  exact (List.append_inj hfield (by rw [length_leBytes, length_leBytes])).2

theorem openPackHeader_ok {reader rest : Reader} {n expected : Nat} {header : Bytes}
    (h : openPackHeader reader n = .ok (header, rest, nonce, expected)) :
    n ≠ 0
      ∧ reader.readExact PACK_STREAM_HEADER_SIZE "truncated pack stream header" = .ok (header, rest)
      ∧ parsePackHeader header = .ok nonce ∧ packCiphertextSize n = .ok expected := by
  unfold openPackHeader at h
  obtain ⟨_, hnonzero, h⟩ := except_bind_eq_ok.mp h
  obtain ⟨⟨header', rest'⟩, hread, h⟩ := except_bind_eq_ok.mp h
  obtain ⟨nonce', hnonce, h⟩ := except_bind_eq_ok.mp h
  obtain ⟨expected', hexpected, h⟩ := except_bind_eq_ok.mp h
  obtain ⟨rfl, rfl, rfl, rfl⟩ : header' = header ∧ rest' = rest ∧ nonce' = nonce
      ∧ expected' = expected := by
    simpa only [Prod.mk.injEq] using Except.ok.inj h
  exact ⟨bailIf_eq_ok.mp hnonzero, hread, hnonce, hexpected⟩

theorem packCiphertextSize_ok {n size : Nat} (h : packCiphertextSize n = .ok size) :
    packSegments n < MAX_SEGMENTS ∧ size < 2 ^ 64 := by
  simp only [packCiphertextSize, except_bind_eq_ok, bailIf_eq_ok] at h
  obtain ⟨_, hsegments, _, hsize, h⟩ := h
  cases h
  exact ⟨Nat.lt_of_not_le hsegments, Nat.lt_of_not_le hsize⟩

/-- What is left of opening a pack behind its header. -/
theorem openPackStream_cases {reader : Reader} {baseAad : Bytes} {n : Nat} {id : Text}
    {sink sink' : Sink} {result : Result Nat}
    (h : GitE2EE.openPackStream P Sink.write key reader baseAad n id sink = (result, sink')) :
    (sink' = sink ∧ ∃ error, result = .error error)
      ∨ ∃ nonce rest loop, reader.bytes = packHeader nonce ++ rest.bytes
      ∧ rest.failure = reader.failure ∧ 0 < packSegments n ∧ packSegments n < MAX_SEGMENTS
      ∧ GitE2EE.openSegments P Sink.write key nonce (packStreamAad baseAad (packHeader nonce))
          (packSegments n) 0 n rest (packHeader nonce) sink = (loop, sink')
      ∧ ∀ count, result = .ok count → ∃ reader' consumed, loop = .ok (reader', consumed)
        ∧ reader'.bytes = [] ∧ reader'.failure = none ∧ consumed.length < 2 ^ 64 := by
  have hsucc : n ≠ 0 → 0 < packSegments n := fun hn => by
    have := packSegments_succ (Nat.pos_of_ne_zero hn)
    omega
  have hlimit : ∀ size, packCiphertextSize n = .ok size →
      packSegments n < MAX_SEGMENTS ∧ size < 2 ^ 64 := fun _ => packCiphertextSize_ok
  -- only the number of segments matters, not how it is computed
  obtain ⟨segments, hcount⟩ : ∃ segments, packSegments n = segments := ⟨_, rfl⟩
  rw [hcount] at hsucc hlimit ⊢
  rw [GitE2EE.openPackStream, hcount] at h
  cases hheader : openPackHeader reader n with
  | error error =>
    rw [Action.bind_of_error (x := Action.lift _) (e := error) (s := sink)
      (by rw [hheader]; rfl)] at h
    cases h
    exact .inl ⟨rfl, error, rfl⟩
  | ok opened =>
    obtain ⟨header, rest, nonce, expected⟩ := opened
    rw [Action.bind_of_ok (x := Action.lift _) (a := (header, rest, nonce, expected)) (s := sink)
      (by rw [hheader]; rfl)] at h
    dsimp only at h
    obtain ⟨hnonzero, hread, hnonce, hexpected⟩ := openPackHeader_ok hheader
    have hform := packHeader_of_parse hnonce
    subst hform
    obtain ⟨-, htake, hdrop⟩ := readExact_ok hread
    have hbytes : reader.bytes = packHeader nonce ++ rest.bytes := by
      rw [htake, hdrop, List.take_append_drop]
    have hfailure : rest.failure = reader.failure := readExact_failure hread
    obtain ⟨hsegments, hsize⟩ := hlimit _ hexpected
    have hpositive := hsucc hnonzero
    right
    rcases Action.bind_cases (GitE2EE.openSegments P Sink.write key nonce
        (packStreamAad baseAad (packHeader nonce)) segments 0 n rest (packHeader nonce)) _ sink
      with ⟨⟨reader', consumed⟩, sink₁, hloop, heq⟩ | ⟨error, sink₁, hloop, heq⟩
    · rw [heq] at h
      obtain ⟨hresult, rfl⟩ : checkPackEnd P reader' consumed expected id = result
          ∧ sink₁ = sink' := Prod.mk.inj h
      refine ⟨nonce, rest, _, hbytes, hfailure, hpositive, hsegments, hloop, ?_⟩
      rintro count rfl
      simp only [checkPackEnd, Reader.expectEnd, except_bind_eq_ok, bailIf_eq_ok] at hresult
      obtain ⟨_, ⟨_, hempty, hend⟩, _, hlength, -⟩ := hresult
      refine ⟨reader', consumed, rfl, not_not.mp hempty, ?_, ?_⟩
      · cases hnone : reader'.failure with
        | none => rfl
        | some error =>
          rw [hnone] at hend
          cases hend
      · rw [not_not.mp hlength]
        exact hsize
    · rw [heq] at h
      cases h
      refine ⟨nonce, rest, _, hbytes, hfailure, hpositive, hsegments, hloop, ?_⟩
      intro count hok
      cases hok

end

/-- Only what the sealer wrote opens, and only what it encrypted is handed on. -/
structure OnlySealedOpen (P : Primitives) (key : SecretKey) (calls : List SealCall) : Prop where
  /-- A stream that opens is the whole output of one call, for the declared size and context,
  and what was written is its plaintext. -/
  accepted : ∀ {ciphertext baseAad n id verdicts count sink'}, Proper ciphertext →
    openPackStream P Sink.write key ciphertext baseAad n id ⟨[], verdicts⟩ = (.ok count, sink') →
    failure ciphertext = none ∧ ∃ call ∈ calls, call.baseAad = baseAad
      ∧ (content call.plaintext).length = n ∧ sink'.handed = content call.plaintext
      ∧ ∃ sealed, call.run P key = .ok sealed ∧ sealed.written = content ciphertext
  /-- However the opener ends, on whatever it reads and whatever the sink says, it has handed
  over the beginning of a plaintext of that context. -/
  handed : ∀ {ciphertext baseAad n id verdicts result sink'}, Proper ciphertext →
    openPackStream P Sink.write key ciphertext baseAad n id ⟨[], verdicts⟩ = (result, sink') →
    sink'.handed = [] ∨ ∃ call ∈ calls, call.baseAad = baseAad
      ∧ sink'.handed <+: content call.plaintext

/-- **Only sealed packs open**, by the segment cipher alone. -/
theorem only_sealed_packs_open {P : Primitives} {key : SecretKey} {calls : List SealCall}
    (hideal : IdealSegments P key calls) : OnlySealedOpen P key calls where
  accepted := by
    intro ciphertext baseAad n id verdicts count sink' hproper h
    rw [openPackStream_eq hproper] at h
    rcases openPackStream_cases h with ⟨-, error, hresult⟩ |
      ⟨nonce, rest, loop, hbytes, hfailure, hpositive, hmax, hloop, hok⟩
    · cases hresult
    obtain ⟨reader', consumed, rfl, hempty, hclean, hsize⟩ := hok count rfl
    obtain ⟨events, hevents, hopens⟩ :=
      hideal.position nonce (packStreamAad baseAad (packHeader nonce))
    have hmaximum : MAX_SEGMENTS = 2 ^ 32 - 1 := rfl
    have hcovers := packSegments_covers n
    obtain ⟨segments, hcount⟩ : ∃ segments, packSegments n = segments := ⟨_, rfl⟩
    rw [hcount] at hpositive hmax hloop hcovers
    obtain ⟨-, hwhole⟩ := openSegments_authentic hopens segments 0 n rest _ _ _ _ (by omega) rfl
      hloop
    obtain ⟨hhanded, ⟨⟨chunks, hsealed, hconsumed, hrest⟩, hfailed⟩, hlast, hplain⟩ :=
      hwhole reader' consumed rfl
    obtain ⟨e, he, hflag⟩ := hlast hpositive
    rw [Nat.zero_add] at he hhanded
    rw [List.drop_zero] at hsealed hplain
    -- a segment opened, so there is a call, and it encrypted nothing behind the last one
    rcases hevents with rfl | ⟨call, hcall, rfl, haad, rfl⟩
    · cases he
    have hlength := SealCall.encryptions_last he hflag
    have hall : (call.encryptions P key).take segments = call.encryptions P key :=
      List.take_of_length_le (by omega)
    rw [hall] at hsealed hplain hhanded
    rw [hempty, List.append_nil] at hrest
    rw [← haad] at hsealed
    have hbound : PACK_STREAM_HEADER_SIZE + chunks.flatten.length < 2 ^ 64 := by
      rw [hconsumed, List.length_append, length_packHeader] at hsize
      exact hsize
    obtain ⟨hcontent, sealed, hrun, hwritten, -⟩ := SealCall.run_of_last hsealed
      ⟨e, List.mem_of_getElem? he, hflag⟩ hbound
    refine ⟨?_, call, hcall, packStreamAad_left_inj haad, ?_, ?_, sealed, hrun, ?_⟩
    · rw [← hclean, hfailed, hfailure]
      rfl
    · rw [hcontent, hplain]
      exact Nat.min_eq_left hcovers
    · rw [hhanded, hcontent]
    · rw [hwritten, ← hrest]
      exact hbytes.symm
  handed := by
    intro ciphertext baseAad n id verdicts result sink' hproper h
    rw [openPackStream_eq hproper] at h
    rcases openPackStream_cases h with ⟨rfl, -⟩ |
      ⟨nonce, rest, loop, -, -, -, hmax, hloop, -⟩
    · exact .inl rfl
    obtain ⟨events, hevents, hopens⟩ :=
      hideal.position nonce (packStreamAad baseAad (packHeader nonce))
    have hmaximum : MAX_SEGMENTS = 2 ^ 32 - 1 := rfl
    obtain ⟨segments, hcount⟩ : ∃ segments, packSegments n = segments := ⟨_, rfl⟩
    rw [hcount] at hmax hloop
    obtain ⟨⟨taken, hhanded⟩, -⟩ := openSegments_authentic hopens segments 0 n rest _ _ _ _
      (by omega) rfl hloop
    rcases hevents with rfl | ⟨call, hcall, rfl, haad, rfl⟩
    · rw [List.take_nil] at hhanded
      exact .inl hhanded
    · refine .inr ⟨call, hcall, packStreamAad_left_inj haad, ?_⟩
      have hplain : (call.encryptions P key).flatMap Encryption.plain <+: content call.plaintext :=
        SealCall.encryptions_plain
      obtain ⟨later, hlater⟩ := List.take_prefix taken (call.encryptions P key)
      rw [← hlater, List.flatMap_append, ← hhanded] at hplain
      exact (List.prefix_append _ _).trans hplain

/-! ### A cipher for one pack -/

namespace OnePack

/-- The one pack that is sealed. -/
def pack : SealCall where
  nonce := ⟨List.replicate 19 7, rfl⟩
  plaintext := [.data [1], .interrupted, .data [2, 3]]
  baseAad := text "context"
  proper bytes hmem := by
    rcases List.mem_cons.mp hmem with heq | hmem
    · cases heq
      exact List.cons_ne_nil _ _
    · rcases List.mem_cons.mp hmem with heq | hmem
      · cases heq
      · cases List.mem_singleton.mp hmem
        exact List.cons_ne_nil _ _

/-- The ciphertext of its only segment. -/
def packSegment : Bytes := [1, 2, 3] ++ List.replicate 16 0

/-- A cipher that opens this segment in its place and nothing else. -/
def packCipher : Primitives :=
  { Reference.primitives with
    aeadSeal := fun _ _ plain _ => some (plain ++ List.replicate 16 0)
    aeadOpen := fun _ nonce chunk aad =>
      if nonce = segmentNonce pack.nonce 0 true ∧ aad = pack.aad ∧ chunk = packSegment
      then some [1, 2, 3] else none }

theorem segmentNonce_inj {nonce nonce' : StreamNonce} {segment segment' : Nat} {last last' : Bool}
    (hlt : segment < 2 ^ 32) (hlt' : segment' < 2 ^ 32)
    (h : segmentNonce nonce segment last = segmentNonce nonce' segment' last') :
    nonce = nonce' ∧ segment = segment' ∧ last = last' := by
  have hbytes := congrArg Subtype.val h
  simp only [segmentNonce] at hbytes
  obtain ⟨hfront, hflag⟩ := List.append_inj' hbytes rfl
  obtain ⟨hnonce, hcounter⟩ := List.append_inj hfront (nonce.property.trans nonce'.property.symm)
  refine ⟨Subtype.ext hnonce,
    leBytes_injective (by simpa using hlt) (by simpa using hlt') (List.reverse_injective hcounter),
    ?_⟩
  cases last <;> cases last' <;> simp_all

theorem packCipher_ideal (key : SecretKey) : IdealSegments packCipher key [pack] where
  distinct := List.nodup_singleton _
  opens := by
    intro nonce segment last chunk aad plain hlt hopen
    simp only [packCipher] at hopen
    split at hopen
    · rename_i hplace
      obtain ⟨hnonce, rfl, rfl⟩ := hplace
      obtain ⟨rfl, rfl, rfl⟩ := segmentNonce_inj hlt (by decide) hnonce
      cases hopen
      refine ⟨pack, List.mem_singleton.mpr rfl, rfl, rfl, ?_, rfl⟩
      have hevents : pack.encryptions packCipher key = [⟨0, true, [1, 2, 3]⟩] := rfl
      rw [hevents]
      exact List.mem_singleton.mpr rfl
    · cases hopen

/-- The pack opens, so the theorem speaks of it. -/
theorem only_sealed_packs_open_pack : OnlySealedOpen packCipher (Reference.number 1) [pack]
    ∧ ∃ count, (openPackStream packCipher Sink.write (Reference.number 1)
        [.data (packHeader pack.nonce ++ packSegment)] pack.baseAad 3
        (objectId packCipher (packHeader pack.nonce ++ packSegment)) ⟨[], []⟩)
      = (.ok count, ⟨[1, 2, 3], []⟩) :=
  ⟨only_sealed_packs_open (packCipher_ideal _), 50, by rfl⟩

end OnePack

end Streamed

end GitE2EE

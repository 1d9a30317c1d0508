import GitE2EE.Model.Manifest
import GitE2EE.Model.Storage

/-!
# Encrypted pack streams

A pack is encrypted as a stream of 1 MiB segments under one key, each with its own
nonce (a random part, the segment number, a flag on the last one), so that segments
cannot be dropped, reordered or appended. The reader knows the plaintext size and
the id of the ciphertext from the manifest and checks both.
-/

namespace GitE2EE

open Wire Effect

def PACK_STREAM_MAGIC : Bytes := text "E2EEPK6" ++ [0]
def PACK_STREAM_CHUNK_SIZE : Nat := 1024 * 1024
def PACK_STREAM_NONCE_SIZE : Nat := 19
def PACK_STREAM_TAG_SIZE : Nat := 16
def PACK_STREAM_HEADER_SIZE : Nat := 8 + 4 + PACK_STREAM_NONCE_SIZE

/-- `u32::MAX`. -/
def MAX_SEGMENTS : Nat := 2 ^ 32 - 1

/-- `[u8; 19]`. -/
abbrev StreamNonce := { b : Bytes // b.length = 19 }

def packStreamAad (baseAad header : Bytes) : Bytes :=
  domain "pack stream" ++ pushField baseAad ++ pushField header

/-- The nonce of a segment in the `StreamBE32` construction. -/
def segmentNonce (nonce : StreamNonce) (segment : Nat) (last : Bool) : Nonce :=
  ⟨nonce.val ++ (leBytes 4 segment).reverse ++ [if last then 1 else 0], by
    simp [nonce.property, leBytes]⟩

structure StreamSealResult where
  objectId : Text
  plaintextSize : Nat
  /-- The bytes written to the stage. -/
  ciphertext : Bytes

/-- The loop of `seal_pack_stream` over the chunks `read_chunk` yields: the ciphertext
of the segments from `segment` on, and the plaintext size with them added. -/
def sealSegments (P : Primitives) (key : SecretKey) (nonce : StreamNonce) (aad : Bytes) :
    Nat → Nat → List Bytes → Result (Bytes × Nat)
  | _, _, [] => bail "cannot encrypt an empty pack stream"
  | segment, plaintextSize, chunk :: rest => do
    let plaintextSize ← orBail (checkedAdd plaintextSize chunk.length)
      "pack plaintext size overflow"
    bailIf (MAX_SEGMENTS ≤ segment + 1) "pack stream exceeds segment counter limit"
    let sealed ← orBail (P.aeadSeal key (segmentNonce nonce segment rest.isEmpty) chunk aad)
      "pack stream encryption failed"
    if rest.isEmpty then pure (sealed, plaintextSize)
    else do
      let (more, plaintextSize) ← sealSegments P key nonce aad (segment + 1) plaintextSize rest
      pure (sealed ++ more, plaintextSize)

/-- The plaintext, cut into segments. -/
def chunksOf (size : Nat) : Nat → Bytes → List Bytes
  | 0, _ => []
  | _ + 1, [] => []
  | fuel + 1, bytes => bytes.take size :: chunksOf size fuel (bytes.drop size)

/-- Encrypts what `plaintext` yields. A plaintext that fails to arrive fails the
whole stream. -/
def sealPackStream (P : Primitives) (key : SecretKey) (nonce : StreamNonce) (plaintext : Reader)
    (baseAad : Bytes) : Result StreamSealResult := do
  let header := PACK_STREAM_MAGIC ++ leBytes 4 PACK_STREAM_CHUNK_SIZE ++ nonce.val
  let bytes ← plaintext.readToEnd
  let (ciphertext, plaintextSize) ← sealSegments P key nonce (packStreamAad baseAad header) 0 0
    (chunksOf PACK_STREAM_CHUNK_SIZE (bytes.length + 1) bytes)
  pure {
    objectId := objectId P (header ++ ciphertext)
    plaintextSize
    ciphertext := header ++ ciphertext }

/-! ## Opening -/

/-- `read_exact`. -/
def Reader.readExact (reader : Reader) (count : Nat) (what : String) : Result (Bytes × Reader) :=
  if count ≤ reader.bytes.length then
    .ok (reader.bytes.take count, { reader with bytes := reader.bytes.drop count })
  else
    .error ((reader.failure.getD (.of (.io .unexpectedEof "failed to fill whole buffer"))).context
      what)

/-- The end of the stream, and nothing before it. -/
def Reader.expectEnd (reader : Reader) : Result Unit := do
  bailIf (reader.bytes ≠ []) "pack stream has trailing data"
  match reader.failure with
  | some error => .error error
  | none => .ok ()

/-- A header as its fields: the declared chunk size and the nonce. -/
def parsePackHeader (header : Bytes) : Result StreamNonce := do
  bailIf (header.take 8 ≠ PACK_STREAM_MAGIC) "invalid pack stream magic"
  if (header.drop 8).take 4 ≠ leBytes 4 PACK_STREAM_CHUNK_SIZE then
    .error (.of (.unsupported "unsupported pack stream chunk size"))
  else if h : (header.drop 12).length = 19 then .ok ⟨header.drop 12, h⟩
  else bail "truncated pack stream header"

/-- `plaintext_size.div_ceil(PACK_STREAM_CHUNK_SIZE)`. -/
def packSegments (plaintextSize : Nat) : Nat :=
  (plaintextSize + PACK_STREAM_CHUNK_SIZE - 1) / PACK_STREAM_CHUNK_SIZE

/-- The size of the ciphertext of a pack. -/
def packCiphertextSize (plaintextSize : Nat) : Result Nat := do
  bailIf (MAX_SEGMENTS ≤ packSegments plaintextSize) "pack stream exceeds segment counter limit"
  let size := PACK_STREAM_HEADER_SIZE + plaintextSize
    + packSegments plaintextSize * PACK_STREAM_TAG_SIZE
  bailIf (2 ^ 64 ≤ size) "pack ciphertext size overflow"
  pure size

/-- What is checked behind the last segment. -/
def checkPackEnd (P : Primitives) (reader : Reader) (consumed : Bytes) (expectedSize : Nat)
    (expectedId : Text) : Result Nat := do
  reader.expectEnd
  bailIf (consumed.length ≠ expectedSize) "pack stream size mismatch"
  bailIf (objectId P consumed ≠ expectedId)
    s!"pack ciphertext hash mismatch for {render expectedId}"
  pure consumed.length

section

variable {σ : Type} (P : Primitives) (write : Bytes → Action Error σ Unit)

/-- One segment: its plaintext, the reader behind it, and the bytes it took. -/
def openSegment (key : SecretKey) (nonce : StreamNonce) (aad : Bytes) (segment : Nat)
    (last : Bool) (plainLength : Nat) (reader : Reader) : Result (Bytes × Reader × Bytes) := do
  let (chunk, reader) ← reader.readExact (plainLength + PACK_STREAM_TAG_SIZE)
    s!"truncated pack stream segment {segment}"
  let plain ← orBail (P.aeadOpen key (segmentNonce nonce segment last) chunk aad)
    "pack stream authentication failed"
  bailIf (plain.length ≠ plainLength) "pack stream segment length mismatch"
  pure (plain, reader, chunk)

/-- The loop of `open_pack_stream`: `count` segments from `segment` on, each written
out before the next is read. Returns the reader behind them and the ciphertext read. -/
def openSegments (key : SecretKey) (nonce : StreamNonce) (aad : Bytes) :
    Nat → Nat → Nat → Reader → Bytes → Action Error σ (Reader × Bytes)
  | 0, _, _, reader, consumed => pure (reader, consumed)
  | count + 1, segment, remaining, reader, consumed => do
    let plainLength := min remaining PACK_STREAM_CHUNK_SIZE
    let (plain, reader, chunk) ← Action.lift
      (openSegment P key nonce aad segment (count == 0) plainLength reader)
    write plain
    openSegments key nonce aad count (segment + 1) (remaining - plainLength) reader
      (consumed ++ chunk)

/-- The header of a stream, its nonce, and the size the whole stream must have. -/
def openPackHeader (ciphertext : Reader) (plaintextSize : Nat) :
    Result (Bytes × Reader × StreamNonce × Nat) := do
  bailIf (plaintextSize = 0) "pack plaintext size must be nonzero"
  let (header, reader) ←
    ciphertext.readExact PACK_STREAM_HEADER_SIZE "truncated pack stream header"
  let nonce ← parsePackHeader header
  pure (header, reader, nonce, ← packCiphertextSize plaintextSize)

/-- Decrypts a pack into `write`. -/
def openPackStream (key : SecretKey) (ciphertext : Reader) (baseAad : Bytes)
    (plaintextSize : Nat) (expectedId : Text) : Action Error σ Nat := do
  let (header, reader, nonce, expectedSize) ←
    Action.lift (openPackHeader ciphertext plaintextSize)
  let (reader, consumed) ← openSegments P write key nonce (packStreamAad baseAad header)
    (packSegments plaintextSize) 0 plaintextSize reader header
  Action.lift (checkPackEnd P reader consumed expectedSize expectedId)

end

end GitE2EE

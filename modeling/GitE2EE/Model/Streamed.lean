import GitE2EE.Model.PackStream

/-!
# Pack streams, read by read

`seal_pack_stream` and `open_pack_stream` on a source that yields its bytes in pieces of
its own choice and may be interrupted, with every counter of the code in a 64-bit
register. `PackStream` has the same functions on the bytes as a whole.

Where the code adds or subtracts without a check, a build with overflow checks stops with
an error of its own; here that is an error too, so a run that returns has not overflowed.
-/

namespace GitE2EE

open Wire Effect

namespace Streamed

/-- `a + b` on `u64`, not checked by the code. -/
def plus (a b : Nat) : Result Nat := orBail (checkedAdd a b) "attempt to add with overflow"

/-- `a - b` on `u64`, not checked by the code. -/
def minus (a b : Nat) : Result Nat :=
  if b ≤ a then pure (a - b) else bail "attempt to subtract with overflow"

/-! ## Sources -/

/-- What a source has for one `read`, if the buffer is large enough. -/
inductive Piece where
  | data (bytes : Bytes)
  /-- `ErrorKind::Interrupted`. -/
  | interrupted
  | failed (error : Error)

/-- A source by its pieces. Behind the last, every `read` returns 0. -/
abbrev Source := List Piece

/-- Reads into a buffer of `want` bytes until it is full or a `read` returns 0: the loop of
`read_chunk` and of `Read::read_exact`. A piece that does not fit stays for the next read. -/
def fill : Nat → Source → Result (Bytes × Source)
  | _, [] => pure ([], [])
  | 0, source => pure ([], source)
  | want + 1, .interrupted :: rest => fill (want + 1) rest
  | _ + 1, .failed error :: _ => .error error
  | want + 1, .data bytes :: rest =>
    if bytes = [] then pure ([], rest)
    else if bytes.length ≤ want + 1 then do
      let (more, rest) ← fill (want + 1 - bytes.length) rest
      pure (bytes ++ more, rest)
    else pure (bytes.take (want + 1), .data (bytes.drop (want + 1)) :: rest)

def readChunk (source : Source) : Result (Bytes × Source) := fill PACK_STREAM_CHUNK_SIZE source

/-- `read_exact`. -/
def readExact (source : Source) (count : Nat) (what : String) : Result (Bytes × Source) :=
  withContext (do
    let (bytes, rest) ← fill count source
    if bytes.length < count then
      .error (.of (.io .unexpectedEof "failed to fill whole buffer"))
    else pure (bytes, rest)) what

/-! ## Sealing -/

/-- The bytes written and hashed, and their count. -/
structure DigestWriter where
  written : Bytes
  count : Nat

/-- `write_all`. -/
def DigestWriter.writeAll (output : DigestWriter) (data : Bytes) : Result DigestWriter := do
  pure ⟨output.written ++ data, ← plus output.count data.length⟩

/-- What `seal_pack_stream` returns, beside the bytes it wrote. -/
structure Sealed where
  objectId : Text
  plaintextSize : Nat
  ciphertextSize : Nat
  written : Bytes

section

variable (P : Primitives) (key : SecretKey) (nonce : StreamNonce) (aad : Bytes)

/-- One segment: the encryptor is at position `segments`. -/
def sealSegment (segments : Nat) (last : Bool) (chunk : Bytes) (output : DigestWriter) :
    Result DigestWriter := do
  let sealed ← orBail (P.aeadSeal key (segmentNonce nonce segments last) chunk aad)
    "pack stream encryption failed"
  output.writeAll sealed

/-- The loop of `seal_pack_stream`, one chunk ahead of what it encrypts. The fuel is for
Lean: a chunk that is not the last has at least one byte of the source. -/
def sealLoop : Nat → Source → Bytes → Nat → Nat → DigestWriter → Result (Nat × DigestWriter)
  | 0, _, _, _, _, _ => bail "source bound exceeded"
  | fuel + 1, source, current, plaintextSize, segments, output => do
    let (next, source) ← readChunk source
    let plaintextSize ← orBail (checkedAdd plaintextSize current.length)
      "pack plaintext size overflow"
    let count ← plus segments 1
    bailIf (MAX_SEGMENTS ≤ count) "pack stream exceeds segment counter limit"
    if next = [] then do
      let output ← sealSegment P key nonce aad segments true current output
      pure (plaintextSize, output)
    else do
      let output ← sealSegment P key nonce aad segments false current output
      sealLoop fuel source next plaintextSize count output

end

/-- How many bytes a source has. -/
def size : Source → Nat
  | [] => 0
  | .data bytes :: rest => bytes.length + size rest
  | _ :: rest => size rest

def sealPackStream (P : Primitives) (key : SecretKey) (nonce : StreamNonce) (plaintext : Source)
    (baseAad : Bytes) : Result Sealed := do
  let header := PACK_STREAM_MAGIC ++ leBytes 4 PACK_STREAM_CHUNK_SIZE ++ nonce.val
  let aad := packStreamAad baseAad header
  let output ← DigestWriter.writeAll ⟨[], 0⟩ header
  let (current, source) ← readChunk plaintext
  bailIf (current = []) "cannot encrypt an empty pack stream"
  let (plaintextSize, output) ← sealLoop P key nonce aad (size plaintext + 1) source current 0 0
    output
  pure ⟨objectId P output.written, plaintextSize, output.count, output.written⟩

/-! ## Opening -/

section

variable {σ : Type} (P : Primitives) (write : Bytes → Action Error σ Unit)

def openSegment (key : SecretKey) (nonce : StreamNonce) (aad : Bytes) (segment : Nat)
    (last : Bool) (plainLength : Nat) (source : Source) : Result (Bytes × Source × Bytes) := do
  let (chunk, source) ← readExact source (plainLength + PACK_STREAM_TAG_SIZE)
    s!"truncated pack stream segment {segment}"
  let plain ← orBail (P.aeadOpen key (segmentNonce nonce segment last) chunk aad)
    "pack stream authentication failed"
  bailIf (plain.length ≠ plainLength) "pack stream segment length mismatch"
  pure (plain, source, chunk)

/-- Where the loop of `open_pack_stream` stands: what is hashed, its count, and how much
plaintext is still to come. -/
structure Progress where
  source : Source
  hashed : Bytes
  ciphertextCount : Nat
  remaining : Nat

def openSegments (key : SecretKey) (nonce : StreamNonce) (aad : Bytes) :
    Nat → Nat → Progress → Action Error σ Progress
  | 0, _, progress => pure progress
  | count + 1, segment, progress => do
    let plainLength := min progress.remaining PACK_STREAM_CHUNK_SIZE
    let (plain, source, chunk) ← Action.lift
      (openSegment P key nonce aad segment (count == 0) plainLength progress.source)
    let ciphertextCount ← Action.lift (plus progress.ciphertextCount chunk.length)
    write plain
    let remaining ← Action.lift (minus progress.remaining plainLength)
    openSegments key nonce aad count (segment + 1)
      ⟨source, progress.hashed ++ chunk, ciphertextCount, remaining⟩

/-- What is checked behind the last segment. -/
def checkEnd (progress : Progress) (expectedSize : Nat) (expectedId : Text) : Result Nat := do
  let (trailing, _) ← fill 1 progress.source
  bailIf (trailing ≠ []) "pack stream has trailing data"
  bailIf (progress.remaining ≠ 0 ∨ progress.ciphertextCount ≠ expectedSize)
    "pack stream size mismatch"
  bailIf (objectId P progress.hashed ≠ expectedId)
    s!"pack ciphertext hash mismatch for {render expectedId}"
  pure progress.ciphertextCount

def openHeader (ciphertext : Source) (plaintextSize : Nat) :
    Result (Bytes × Source × StreamNonce × Nat) := do
  bailIf (plaintextSize = 0) "pack plaintext size must be nonzero"
  let (header, source) ← readExact ciphertext PACK_STREAM_HEADER_SIZE "truncated pack stream header"
  let nonce ← parsePackHeader header
  pure (header, source, nonce, ← packCiphertextSize plaintextSize)

def openPackStream (key : SecretKey) (ciphertext : Source) (baseAad : Bytes)
    (plaintextSize : Nat) (expectedId : Text) : Action Error σ Nat := do
  let (header, source, nonce, expectedSize) ← Action.lift (openHeader ciphertext plaintextSize)
  let progress ← openSegments P write key nonce (packStreamAad baseAad header)
    (packSegments plaintextSize) 0 ⟨source, header, PACK_STREAM_HEADER_SIZE, plaintextSize⟩
  Action.lift (checkEnd P progress expectedSize expectedId)

end

end Streamed

end GitE2EE

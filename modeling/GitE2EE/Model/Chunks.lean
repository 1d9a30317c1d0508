import GitE2EE.Lib.Padded
import GitE2EE.Model.CatFile
import GitE2EE.Model.Storage

/-!
# Objects in chunks

The carrier keeps an object as a directory of files of 32 MiB, numbered from zero. The
stage writes them, a chunk at a time, whatever pieces the object comes in. There are two
readers: one goes over the files of the checkout, the other over the blobs of a commit,
and each has its own checks of what a sequence of chunks looks like.

Operations on files do not fail here.
-/

namespace GitE2EE

open Wire Effect

/-- `format!("{index:08}")`. -/
def chunkName (index : Nat) : Text := zeroPadded 8 index

/-- An entry of a directory. -/
structure DirEntry where
  name : Text
  /-- The bytes of a regular file; `none` for anything else. -/
  file : Option Bytes

def sortByName (entries : List DirEntry) : List DirEntry :=
  entries.mergeSort fun a b => lexLe a.name b.name

/-! ## Files -/

/-- The loop of `validated_chunk_paths`. The files stand for the paths it returns. -/
def checkChunkFiles (total : Nat) : Nat → List DirEntry → Result (List Bytes)
  | _, [] => pure []
  | index, entry :: rest =>
    match entry.file with
    | none => bail "carrier object chunks are not a dense canonical sequence"
    | some content => do
      bailIf (entry.name ≠ chunkName index)
        "carrier object chunks are not a dense canonical sequence"
      bailIf ((index + 1 < total ∧ content.length ≠ CARRIER_CHUNK_BYTES)
          ∨ (index + 1 = total ∧ (content.length = 0 ∨ CARRIER_CHUNK_BYTES < content.length)))
        "carrier object chunk has invalid size"
      let files ← checkChunkFiles total (index + 1) rest
      pure (content :: files)

/-- `validated_chunk_paths`. -/
def validatedChunkPaths (entries : List DirEntry) : Result (List Bytes) := do
  bailIf (entries = []) "carrier object has no chunks"
  checkChunkFiles entries.length 0 (sortByName entries)

/-- The files behind the next one to open, and what is left of the open one. -/
structure ChunkReader where
  files : List Bytes
  current : Option Bytes

namespace ChunkReader

/-- The loop of `read`, with a file open: a file that yields nothing makes room for the next. -/
def readFrom (want ready : Nat) (file : Bytes) : List Bytes → Bytes × ChunkReader
  | [] =>
    let bytes := file.take (min want (ready + 1))
    if bytes = [] then ([], ⟨[], none⟩) else (bytes, ⟨[], some (file.drop (min want (ready + 1)))⟩)
  | next :: files =>
    let bytes := file.take (min want (ready + 1))
    if bytes = [] then readFrom want ready next files
    else (bytes, ⟨next :: files, some (file.drop (min want (ready + 1)))⟩)

/-- `ChunkReader::read` into a buffer of `want` bytes, of which a file may have `ready + 1` at
hand. -/
def read (want ready : Nat) : Action Error ChunkReader Bytes := fun reader =>
  match reader.current, reader.files with
  | some file, files => (.ok (readFrom want ready file files).1, (readFrom want ready file files).2)
  | none, file :: files =>
    (.ok (readFrom want ready file files).1, (readFrom want ready file files).2)
  | none, [] => (.ok [], reader)

end ChunkReader

/-! ## Blobs -/

/-- One entry of `git ls-tree -r -z`. -/
def parseChunkEntry (directory : Text) (entry : Bytes) : Except String (Text × Text) :=
  match Split.splitOnce 9 entry with
  | none => .error "carrier tree entry has no path"
  | some (metadata, path) =>
    if isUtf8 metadata = false then .error "carrier tree entry is not UTF-8"
    else if isUtf8 path = false then .error "carrier object path is not UTF-8"
    else match asciiFields metadata with
      | mode :: kind :: rest =>
        if mode ≠ text "100644" ∨ kind ≠ text "blob" then
          .error "carrier object contains a non-regular blob"
        else match rest with
          | [] => .error "carrier blob has no id"
          | blobId :: rest =>
            if rest ≠ [] ∨ ¬ (directory ++ [47] <+: path) then
              .error "unexpected carrier object path"
            else .ok (path, blobId)
      | _ => .error "carrier object contains a non-regular blob"

/-- The paths are numbered. -/
def checkChunkPaths (directory : Text) : Nat → List (Text × Text) → Bool
  | _, [] => true
  | index, chunk :: rest =>
    chunk.1 == directory ++ [47] ++ chunkName index && checkChunkPaths directory (index + 1) rest

/-- `parse_chunk_listing`: the paths of the chunks, and their blobs. -/
def parseChunkListing (listing : Bytes) (directory : Text) :
    Except String (List (Text × Text)) := do
  let chunks ← (Split.words (· == 0) listing).mapM (parseChunkEntry directory)
  let chunks := chunks.mergeSort fun a b => lexLe a.1 b.1
  if chunks = [] ∨ MAX_CHUNKS_PER_OBJECT < chunks.length then
    .error "carrier object has an invalid chunk count"
  else if checkChunkPaths directory 0 chunks = false then
    .error "carrier object chunks are not a dense canonical sequence"
  else .ok chunks

structure GitChunkReader where
  cat : CatFile
  chunks : List (Text × Text)
  /-- The index of the next chunk. -/
  next : Nat
  /-- What is left of the chunk before it. -/
  remaining : Nat

namespace GitChunkReader

def new (chunks : List (Text × Text)) : GitChunkReader := ⟨CatFile.spawn .batch, chunks, 0, 0⟩

def onCat {α : Type} (x : Action Error CatFile α) : Action Error GitChunkReader α :=
  Action.zoom GitChunkReader.cat (fun cat reader => { reader with cat }) x

def startNextChunk (git : ObjectNames) : Action Error GitChunkReader Unit := do
  let reader ← Action.get
  let expected := (reader.chunks[reader.next]?.map Prod.snd).getD []
  match ← onCat (CatFile.request git expected) with
  | .object id .blob size =>
    if id ≠ expected then
      Action.fail (.of (.io .invalidData "git cat-file returned an invalid carrier chunk header"))
    else
      let last : Bool := reader.next + 1 = reader.chunks.length
      if (last = false ∧ size ≠ CARRIER_CHUNK_BYTES)
          ∨ (last = true ∧ (size = 0 ∨ CARRIER_CHUNK_BYTES < size)) then
        Action.fail (.of (.io .invalidData "carrier object chunk has invalid size"))
      else Action.modify fun reader => { reader with next := reader.next + 1, remaining := size }
  | _ =>
    Action.fail (.of (.io .invalidData "git cat-file returned an invalid carrier chunk header"))

/-- What `read` does once a chunk is open. -/
def readChunk (want ready : Nat) : Action Error GitChunkReader Bytes := do
  let reader ← Action.get
  let bytes ← onCat (CatFile.readBody (min want reader.remaining) ready)
  if bytes = [] then
    Action.fail (.of (.io .unexpectedEof "git cat-file truncated a carrier chunk"))
  else do
    Action.modify fun reader => { reader with remaining := reader.remaining - bytes.length }
    if reader.remaining = bytes.length then onCat CatFile.endBody else pure ()
    pure bytes

/-- `GitChunkReader::read` into a buffer of `want` bytes. -/
def read (git : ObjectNames) (want ready : Nat) : Action Error GitChunkReader Bytes := do
  if want = 0 then pure []
  else do
    let reader ← Action.get
    if reader.remaining = 0 then
      if reader.next = reader.chunks.length then do
        onCat CatFile.finish
        pure []
      else do
        startNextChunk git
        readChunk want ready
    else readChunk want ready

end GitChunkReader

/-! ## Writing -/

structure CarrierObjectStage where
  /-- The chunks in the staging directory that are complete. -/
  files : List DirEntry
  /-- What has been written to the open chunk. -/
  current : Option Bytes
  chunkIndex : Nat
  chunkLen : Nat

namespace CarrierObjectStage

def new : CarrierObjectStage := ⟨[], none, 0, 0⟩

def openChunk (stage : CarrierObjectStage) : Result CarrierObjectStage :=
  match stage.current with
  | some _ => .ok stage
  | none =>
    if stage.files.any (·.name = chunkName stage.chunkIndex) then
      .error (.of (.io .other "File exists"))
    else .ok { stage with current := some [], chunkLen := 0 }

def finishChunk (stage : CarrierObjectStage) : CarrierObjectStage :=
  match stage.current with
  | none => stage
  | some content =>
    ⟨stage.files ++ [⟨chunkName stage.chunkIndex, some content⟩], none, stage.chunkIndex + 1, 0⟩

/-- The loop of `write`. The fuel is for Lean: every round takes a byte of the data. -/
def writeLoop : Nat → CarrierObjectStage → Bytes → Result CarrierObjectStage
  | _, stage, [] => .ok stage
  | 0, _, _ :: _ => bail "no progress"
  | fuel + 1, stage, data => do
    let stage ← openChunk stage
    let count := min (CARRIER_CHUNK_BYTES - stage.chunkLen) data.length
    let stage := { stage with
      current := stage.current.map (· ++ data.take count), chunkLen := stage.chunkLen + count }
    writeLoop fuel (if stage.chunkLen = CARRIER_CHUNK_BYTES then finishChunk stage else stage)
      (data.drop count)

def write (stage : CarrierObjectStage) (data : Bytes) : Result CarrierObjectStage :=
  writeLoop data.length stage data

/-- `publish`: the directory of the object, which may have been there before. -/
def publish (P : Primitives) (existing : Option (List DirEntry)) (stage : CarrierObjectStage)
    (id : Text) : Result (List DirEntry) := do
  let stage := finishChunk stage
  bailIf (stage.chunkIndex = 0) "cannot store an empty carrier object"
  match existing with
  | none => pure stage.files
  | some entries => do
    let files ← validatedChunkPaths entries
    bailIf (objectId P files.flatten ≠ id) s!"object id collision for {render id}"
    pure entries

end CarrierObjectStage

/-- `ValidatingObjectStage` over the stage of the carrier. -/
structure ValidatingObjectStage where
  sink : CarrierObjectStage
  kind : ObjectKind
  /-- What was hashed. -/
  written : Bytes

namespace ValidatingObjectStage

/-- `GitStorage::begin_object`. -/
def «begin» (kind : ObjectKind) : ValidatingObjectStage := ⟨.new, kind, []⟩

/-- `write`, which takes all of the data or fails, so `write_all` is one call. -/
def write (stage : ValidatingObjectStage) (data : Bytes) : Result ValidatingObjectStage :=
  if stage.kind.maxBytes < stage.written.length + data.length then
    .error (.of (.io .other
      (s!"{stage.kind.name} object exceeds the {stage.kind.maxBytes}-byte maximum that "
        ++ "readers accept; splitting larger objects is not supported")))
  else do
    let sink ← stage.sink.write data
    pure { stage with sink, written := stage.written ++ data }

def writePieces (stage : ValidatingObjectStage) : List Bytes → Result ValidatingObjectStage
  | [] => .ok stage
  | piece :: pieces => do
    let stage ← stage.write piece
    stage.writePieces pieces

def finish (P : Primitives) (existing : Option (List DirEntry)) (stage : ValidatingObjectStage)
    (id : Text) : Result (List DirEntry) := do
  validateId id
  bailIf (objectId P stage.written ≠ id) "staged object hash does not match id"
  stage.sink.publish P existing id

end ValidatingObjectStage

end GitE2EE

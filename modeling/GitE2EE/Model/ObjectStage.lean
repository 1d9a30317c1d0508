import GitE2EE.Model.Filesystem

/-!
# Storing an object in a directory

`begin_object` and `finish` of the directory backend, call by call. An object is written
to a file of its own under `.staging`, hashed on the way, and published under its id by a
hard link, which fails if the name is taken. Whatever happens, the staging file is removed
when the stage is dropped.
-/

namespace GitE2EE

open Wire Effect Files

/-- `fs::create_dir_all` of a path, given backwards. -/
def createDirAll : List Text → Process (Except Files.Fault Unit)
  | [] => pure (.ok ())
  | name :: up => do
    match ← Sys.createDir up.reverse name with
    | .ok () => pure (.ok ())
    | .error .notFound =>
      match ← createDirAll up with
      | .error fault => pure (.error fault)
      | .ok () => settle (name :: up).reverse (← Sys.createDir up.reverse name)
    | .error fault => settle (name :: up).reverse (.error fault)
where
  /-- A directory that is there is as good as one created. -/
  settle (path : Path) : Except Files.Fault Unit → Process (Except Files.Fault Unit)
    | .ok () => pure (.ok ())
    | .error fault => do
      if ← Sys.isDir path then pure (.ok ()) else pure (.error fault)

/-- `FilesystemObjectStage`: the staging file and its name. -/
structure ObjectStage where
  file : Nat
  temporary : Text
  kind : ObjectKind

namespace FilesystemStorage

def STAGING : Text := text ".staging"

def stageName (random : Bytes) : Text := text ".stage-" ++ hexEncode random

variable (P : Primitives) (storage : FilesystemStorage)

def beginObject (random : Bytes) (kind : ObjectKind) : Process ObjectStage := do
  storage.initializeStorage
  orRaise (← createDirAll (storage.root ++ [STAGING]).reverse)
  let file ← orRaise (← Sys.createNew (storage.root ++ [STAGING]) (stageName random))
  pure ⟨file, stageName random, kind⟩

/-- `ValidatingObjectStage::write`, through `write_all`: what was written before, and then. -/
def writeStage (stage : ObjectStage) (written data : Bytes) : Process Bytes := do
  if stage.kind.maxBytes < written.length + data.length then
    Thread.fail (.of (.io .other
      (s!"{stage.kind.name} object exceeds the {stage.kind.maxBytes}-byte maximum that "
        ++ "readers accept; splitting larger objects is not supported")))
  else do
    orRaise (← Sys.writeAll stage.file data)
    pure (written ++ data)

/-- `verify_file_id`. -/
def verifyFileId (path : Path) (id : Text) : Process Unit := do
  match ← orRaise (← Sys.readFile path) with
  | some (.file content) =>
    Thread.lift (bailIf (objectId P content ≠ id) s!"object id collision for {render id}")
  | _ => Thread.lift (bail s!"stored object {render id} is not a regular file")

def objectParent (kind : ObjectKind) (id : Text) : Path :=
  storage.root ++ [kindDirectory kind, id.take 2]

def objectPath (kind : ObjectKind) (id : Text) : Path := storage.objectParent kind id ++ [id]

/-- The last steps of every way to publish. -/
def discardStage (stage : ObjectStage) (parent : Path) : Process Unit := do
  orRaise (← Sys.removeFile (storage.root ++ [STAGING]) stage.temporary)
  orRaiseWith s!"sync directory {displayPath parent}" (← Sys.syncDirectory parent)

/-- The name is taken: it must be by the same bytes. -/
def settleTaken (stage : ObjectStage) (id : Text) : Process Unit := do
  verifyFileId P (storage.objectPath stage.kind id) id
  storage.discardStage stage (storage.objectParent stage.kind id)

def linkStage (stage : ObjectStage) (id : Text) : Process Unit := do
  match ← Sys.hardLink (storage.root ++ [STAGING]) stage.temporary
    (storage.objectParent stage.kind id) id with
  | .ok () => storage.discardStage stage (storage.objectParent stage.kind id)
  | .error .alreadyExists => storage.settleTaken P stage id
  | .error fault => Thread.fail (ioError fault)

/-- `FilesystemObjectStage::publish`. -/
def publishStage (stage : ObjectStage) (id : Text) : Process Unit := do
  orRaise (← Sys.syncAll stage.file)
  createDirectory (storage.objectParent stage.kind id)
  if ← Sys.exists (storage.objectPath stage.kind id) then storage.settleTaken P stage id
  else storage.linkStage P stage id

/-- `ValidatingObjectStage::finish`, for a stage that `written` was written to. -/
def finishStage (stage : ObjectStage) (written : Bytes) (id : Text) : Process Unit := do
  Thread.lift (validateId id)
  Thread.lift (bailIf (objectId P written ≠ id) "staged object hash does not match id")
  storage.publishStage P stage id

/-- Runs `body` on a stage, which is dropped wherever that ends. -/
def dropping (stage : ObjectStage) (body : Process Unit) : Process Unit := do
  let result ← body.attempt
  let _ ← Sys.removeFile (storage.root ++ [STAGING]) stage.temporary
  Thread.lift result

/-- The bytes of an object, written piece by piece. -/
def writePieces (stage : ObjectStage) : Bytes → List Bytes → Process Bytes
  | written, [] => pure written
  | written, piece :: pieces => do
    let written ← writeStage stage written piece
    writePieces stage written pieces

/-- From the first write to the end of the stage. -/
def storePieces (stage : ObjectStage) (pieces : List Bytes) (id : Text) : Process Unit :=
  storage.dropping stage do
    let written ← writePieces stage [] pieces
    storage.finishStage P stage written id

/-- `open_object`. -/
def openObject (kind : ObjectKind) (id : Text) : Process Reader := do
  Thread.lift (validateId id)
  let path := storage.objectPath kind id
  let unavailable source :=
    (Error.of (.objectUnavailable "directory" id (some source))).context
      s!"read {displayPath path}"
  match ← Sys.readFile path with
  | .error fault => Thread.fail (unavailable (kindOf fault))
  | .ok node =>
    match Directory.openEntry kind (node.map entryOf) with
    | .ok reader => pure reader
    | .error source => Thread.fail (unavailable source)

end FilesystemStorage

end GitE2EE

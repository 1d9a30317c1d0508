import GitE2EE.Model.CatFile

/-!
# Object queries

What the program asks Git about objects during one operation, as it asks: over at most two
`git cat-file` processes, each started on first use and kept for the queries that follow.
The kind of an object comes from `--batch-check`, the header of an annotated tag from
`--batch`, where the message behind the header has to be taken off the stream unread.

How many bytes the pipe has at hand at each read is given (`ready`).
-/

namespace GitE2EE

open Wire Effect

/-- `body.take(limit)`, read to its end. The fuel is for Lean: every round takes a byte. -/
def CatFile.readTake (ready : Nat → Nat) : Nat → Nat → Action Error CatFile Bytes
  | 0, _ => pure []
  | fuel + 1, limit =>
    if limit = 0 then pure []
    else do
      let bytes ← CatFile.readBody limit (ready fuel)
      if bytes = [] then pure []
      else do
        let more ← readTake ready fuel (limit - bytes.length)
        pure (bytes ++ more)

/-- The processes of `Objects`. -/
structure Objects where
  check : Option CatFile
  contents : Option CatFile

namespace Objects

def new : Objects := ⟨none, none⟩

/-- On the `--batch-check` process, started if it is not running. -/
def onCheck {α : Type} (x : Action Error CatFile α) : Action Error Objects α :=
  Action.zoom (fun objects => objects.check.getD (CatFile.spawn .batchCheck))
    (fun cat objects => { objects with check := some cat }) x

/-- On the `--batch` process. -/
def onContents {α : Type} (x : Action Error CatFile α) : Action Error Objects α :=
  Action.zoom (fun objects => objects.contents.getD (CatFile.spawn .batch))
    (fun cat objects => { objects with contents := some cat }) x

def kind (git : ObjectNames) (object : Text) : Action Error Objects (Option GitObjectType) := do
  match ← onCheck (Action.mapError (·.context "git cat-file --batch-check failed")
      (CatFile.request git object)) with
  | .missing => pure none
  | .object _ kind _ => pure (some kind)

/-- The end of `tag_header`, once the tag is off the stream: `rest` bytes were skipped. -/
def cutHeader (reference : Text) (start : Bytes) (rest : Nat) : Result Bytes :=
  match headerEnd start with
  | some position => pure (start.take position)
  | none =>
    if rest = 0 then pure start
    else bail (s!"annotated tag of {render reference} has a header larger than "
      ++ s!"{MAX_TAG_HEADER_BYTES} bytes")

def tagHeader (git : ObjectNames) (ready : Nat → Nat) (reference tag : Text) :
    Action Error Objects Bytes := do
  match ← onContents (Action.mapError (·.context "git cat-file --batch failed")
      (CatFile.request git tag)) with
  | .object _ .tag size => do
    let limit := min size MAX_TAG_HEADER_BYTES
    let start ← onContents (CatFile.readTake ready limit limit)
    let rest := size - start.length
    let skipped ← onContents (CatFile.readTake ready rest rest)
    if skipped.length ≠ rest then
      Action.fail (.msg s!"git cat-file truncated annotated tag of {render reference}")
    else do
      onContents CatFile.endBody
      Action.lift (cutHeader reference start rest)
  | .missing =>
    Action.fail (.msg s!"annotated tag of {render reference} disappeared while reading")
  | .object _ _ _ => do
    -- its body is pending; this process cannot answer further
    Action.modify ({ · with contents := none })
    Action.fail (.msg s!"annotated tag of {render reference} changed type while reading")

def tagTarget (git : ObjectNames) (ready : Nat → Nat) (reference tag : Text) :
    Action Error Objects (Text × GitObjectType) := do
  let header ← tagHeader git ready reference tag
  Action.lift (readTagHeader reference header)

/-- `objects.kind(..)?.ok_or_else(missing)?`. -/
def requireKind (git : ObjectNames) (label : String) (reference object : Text) :
    Action Error Objects GitObjectType := do
  match ← kind git object with
  | some kind => pure kind
  | none => Action.fail (ObjectDatabase.missingError label reference)

/-- The loop of `resolve_tag_chain`. -/
def tagChainLoop (git : ObjectNames) (ready : Nat → Nat) (label : String) (reference : Text) :
    Nat → List Text → Text → Action Error Objects (Text × GitObjectType)
  | 0, _, _ => Action.lift (bail "tag chain bound exceeded")
  | fuel + 1, seen, current =>
    if current ∈ seen then
      Action.lift (bail s!"{label} ref {render reference} contains a cyclic tag chain")
    else do
      let kind ← requireKind git label reference current
      if kind ≠ .tag then pure (current, kind)
      else do
        let (target, expected) ← tagTarget git ready reference current
        let found ← requireKind git label reference target
        if found ≠ expected then
          Action.lift (bail s!"annotated tag {render reference} has a mismatched target type")
        else tagChainLoop git ready label reference fuel (current :: seen) target

end Objects

end GitE2EE

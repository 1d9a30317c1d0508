import GitE2EE.Model.Objects
import Mathlib.Logic.Relation

/-!
# A local repository

The interface `GitRepository`, answered from the objects of one repository. The program's
own code (`git.rs`) is written out; the `git` commands it runs are a `GitTool`, which may
answer as it likes, except that `merge-base` calls a commit an ancestor only if it is one.
-/

namespace GitE2EE

open Wire Effect

/-! ## Links -/

/-- The object an annotated tag leads to, for Git: the one on its first line. -/
def gitTagTarget (content : Bytes) : Option Text :=
  (stripStart (text "object ") (content.takeWhile (· ≠ 10))).filter isGitId

/-- What Git reaches from an object in one step. -/
def GitObject.links : GitObject → List Text
  | .commit root parents => root :: parents
  | .tree entries => (entries.filter (·.mode ≠ .gitlink)).map TreeEntry.object
  | .blob => []
  | .tag content => (gitTagTarget content).toList

namespace ObjectDatabase

variable (db : ObjectDatabase)

def links (object : Text) : List Text := ((db.find object).map GitObject.links).getD []

def parents (object : Text) : List Text :=
  match db.find object with
  | some (.commit _ parents) => parents.map canonicalId
  | _ => []

/-- The commit that a tag leads to, or the commit itself, by the id Git has for it. -/
inductive Peels : Text → Text → Prop where
  | commit {object : Text} : db.kind object = some .commit → Peels object (canonicalId object)
  | tag {object target commit : Text} : db.kind object = some .tag → target ∈ db.links object →
      Peels target commit → Peels object commit

/-- The new tip is a descendant of the old one, or the same. -/
def Descends (old next : Text) : Prop :=
  ∃ a b, Peels db old a ∧ Peels db next b
    ∧ Relation.ReflTransGen (fun x y => y ∈ db.parents x) b a

end ObjectDatabase

/-! ## Git -/

/-- The `git` commands, by what they answer on given objects and a shallow boundary. -/
structure GitTool where
  /-- `merge-base --is-ancestor`. -/
  isAncestor : ObjectDatabase → List Text → Text → Text → Option Bool
  /-- `rev-list --objects --missing=print <roots> --not <frontier>`: whether it reports a
  missing object. -/
  revList : ObjectDatabase → List Text → List Text → List Text → Option Bool
  /-- `ls-tree -r -t --full-tree`. -/
  lsTree : ObjectDatabase → Text → Option (List TreeEntry)
  /-- `pack-objects --stdout --revs`. -/
  packObjects : ObjectDatabase → List Text → List Text → Option Bytes
  /-- `index-pack --stdin`: the objects in a pack. -/
  indexPack : Bytes → Option (List (Text × GitObject))
  isAncestor_sound : ∀ {db shallow old next}, isAncestor db shallow old next = some true →
    db.Descends old next

/-- A repository on disk. -/
structure LocalRepository where
  objects : ObjectDatabase
  /-- The boundary of a shallow repository. -/
  shallow : List Text
  /-- Whether the configuration names a promisor remote or a partial clone. -/
  promisor : Bool
  /-- `rev-parse --verify`. -/
  names : Text → Result Text
  progress : Option CheckoutProgress
  /-- What has been written to a running `index-pack`. -/
  importing : Bytes

namespace LocalRepository

variable (git : GitTool)

/-- `ensure_tree_connected`. -/
def ensureTreeConnected (db : ObjectDatabase) (reference tree : Text) : Result Unit := do
  let entries ← orBail (git.lsTree db tree)
    s!"fetched tag {render reference} contains an incomplete tree"
  entries.forM fun entry =>
    if entry.mode = .gitlink then pure ()
    else bailIf (db.exists entry.object = false)
      s!"fetched tag {render reference} contains missing Git object {render entry.object}"

/-- One ref of `ensure_refs_connected_since`: the commit it leads to, unless it is a tag
of something else. -/
def connectedRoot (db : ObjectDatabase) (label : String) (reference object : Text) :
    Result (Option Text) := do
  let refKind ← InnerRefKind.of reference
  let target ← db.resolveTagChain label reference object
  match target.2, refKind with
  | .commit, _ => pure (some target.1)
  | .tree, .tag => do
    ensureTreeConnected git db reference target.1
    pure none
  | .blob, .tag => pure none
  | _, _ => bail s!"{label} ref {render reference} does not resolve to a supported Git object"

/-- The commits that refs lead to, in order. -/
def connectedRoots (db : ObjectDatabase) (label : String) : List (Text × Text) → Result (List Text)
  | [] => pure []
  | (reference, object) :: rest => do
    let root ← connectedRoot git db label reference object
    let roots ← connectedRoots db label rest
    pure (root.toList ++ roots)

/-- `ensure_refs_connected_since`. -/
def ensureRefsConnectedSince (db : ObjectDatabase) (shallow : List Text) (refs verified : RefMap) :
    Result Unit := do
  if refs.isEmpty then pure ()
  else do
    let roots ← connectedRoots git db "fetched" refs.entries
    let frontier ← connectedRoots git db "verified" verified.entries
    if roots = [] then pure ()
    else do
      let missing ← orBail (git.revList db shallow roots frontier) "git connectivity check failed"
      bailIf (missing = true) "fetched refs contain missing Git objects"

/-- `start_incremental_pack` up to its end: `pack-objects` runs, and what fails it shows
when it is done. -/
def startIncrementalPack (new old : RefMap) : Action Error LocalRepository Reader := do
  let repository ← Action.get
  if repository.shallow ≠ [] then
    Action.fail (.msg "cannot publish from a shallow repository; fetch --unshallow first")
  else
    match git.packObjects repository.objects (new.entries.map Prod.snd)
        (old.entries.map Prod.snd) with
    | some pack => pure ⟨pack, none⟩
    | none => Action.fail (.msg "git pack-objects failed")

/-- The end of `index-pack`: the objects of the pack are in the database. -/
def finishPackImport : Action Error LocalRepository Unit := do
  let repository ← Action.get
  let objects ← Action.lift (orBail (git.indexPack repository.importing) "git index-pack failed")
  Action.modify fun r => { r with
    objects := objects.foldl (fun db e => db.insert e.1 e.2) r.objects
    importing := [] }

end LocalRepository

/-- The interface of a checkout, over the repository it is. -/
def localGit (git : GitTool) : GitRepository LocalRepository where
  resolveRef name := do
    let repository ← Action.get
    Action.lift (repository.names name)
  objectExists object := do
    let repository ← Action.get
    pure (repository.objects.exists object)
  ensureBranchTarget reference object := do
    let repository ← Action.get
    Action.lift (repository.objects.ensureBranchTarget reference object)
  isAncestor old next := do
    let repository ← Action.get
    Action.lift (orBail (git.isAncestor repository.objects repository.shallow old next)
      "git merge-base failed")
  startIncrementalPack := LocalRepository.startIncrementalPack git
  finishPack := pure ()
  startPackImport := Action.modify ({ · with importing := [] })
  writePackImport bytes := Action.modify fun r => { r with importing := r.importing ++ bytes }
  finishPackImport := LocalRepository.finishPackImport git
  ensureRefsConnectedSince refs verified := do
    let repository ← Action.get
    Action.lift (LocalRepository.ensureRefsConnectedSince git repository.objects repository.shallow
      refs verified)
  hasCompleteObjectGraph repository := repository.shallow = [] ∧ repository.promisor = false
  openCheckout := pure ()
  readProgress := do
    let repository ← Action.get
    pure repository.progress
  writeProgress progress := Action.modify ({ · with progress := some progress })

end GitE2EE

import GitE2EE.Model.Repository

/-!
# Fetching into a clone

`fetch_into` imports the current generation and then points a ref of the clone at each ref
of the manifest: a branch below `refs/remotes/<remote>/`, a tag at its own name. The refs
are set one after another, and Git keeps each in a file of its name, so a name cannot be
used together with one that it is a directory of.
-/

namespace GitE2EE

open Wire Effect

/-- The first name is a directory on the way to the second. -/
def IsDirectoryOf (parent name : Text) : Prop := parent ++ [47] <+: name

instance (parent name : Text) : Decidable (IsDirectoryOf parent name) :=
  inferInstanceAs (Decidable (_ <+: _))

/-- The two names cannot both be refs. -/
def Conflicting (name other : Text) : Prop := IsDirectoryOf name other ∨ IsDirectoryOf other name

instance (name other : Text) : Decidable (Conflicting name other) :=
  inferInstanceAs (Decidable (_ ∨ _))

/-- `git update-ref`, for an object the clone has. -/
def updateRef (name object : Text) : Action Error RefMap Unit := fun refs =>
  if isValidRefName name = true ∧ ∀ entry ∈ refs.entries, ¬ Conflicting entry.1 name then
    (.ok (), refs.insert name object)
  else (.error (.msg s!"git update-ref failed: cannot lock ref {render name}"), refs)

/-- The name a fetched ref has in the clone. -/
def fetchedName (remote reference : Text) : Result Text := do
  match ← InnerRefKind.of reference with
  | .branch => pure (text "refs/remotes/" ++ remote ++ text "/"
      ++ reference.drop (text "refs/heads/").length)
  | .tag => pure reference

/-- The loop of `fetch_into`. -/
def installRefs (remote : Text) : List (Text × Text) → Action Error RefMap Unit
  | [] => pure ()
  | (reference, object) :: rest => do
    let name ← Action.lift (fetchedName remote reference)
    updateRef name object
    installRefs remote rest

section

variable {S G : Type} (P : Primitives) (storage : Storage S) (repo : GitRepository G)
    (key : KeyFile)

/-- A machine with the refs of the clone it fetches into. -/
structure Cloning (S G : Type) where
  machine : Machine S G
  refs : RefMap

def fetchInto (remote : Text) : Action Error (Cloning S G) Manifest := do
  let accepted ← Action.zoom Cloning.machine (fun machine clone => { clone with machine })
    (importPacks P storage repo key)
  Action.zoom Cloning.refs (fun refs clone => { clone with refs })
    (installRefs remote accepted.value.refs.entries)
  pure accepted.value

end

end GitE2EE

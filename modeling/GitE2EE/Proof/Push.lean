import GitE2EE.Proof.History

/-!
# What a push reports

A push checks its batch against one head, commits one manifest and then keeps its books:
the floor, and the progress of the checkout it came from. Everything up to the swap is
all or nothing. The steps behind the swap can still fail, and a push that fails there
reports a failure although HEAD has moved; that is the only way it can happen
(`PushRun.allOrNothing`, `PushRun.moved`).
-/

namespace GitE2EE

open Wire Effect

variable {S G : Type} {P : Primitives} {storage : Storage S} {repo : GitRepository G}
variable {key : KeyFile} {head : S → Option Text}

/-! ## HEAD as a register -/

/-- HEAD stands where it stood. -/
def HeadKept (head : S → Option Text) (s s' : S) : Prop := head s' = head s

theorem HeadKept.refl (s : S) : HeadKept head s s := rfl

theorem HeadKept.trans ⦃a b c : S⦄ (h : HeadKept head a b) (h' : HeadKept head b c) :
    HeadKept head a c := Eq.trans h' h

/-- `head` is where HEAD stands, and only a swap that returns moves it. -/
structure HeadRegister (storage : Storage S) (head : S → Option Text) : Prop where
  beginObject : ∀ kind, Keeps (HeadKept head) (storage.beginObject kind)
  finishObject : ∀ kind bytes id,
    Keeps (HeadKept head) (storage.finishObject kind bytes id)
  openObject : ∀ kind id, Keeps (HeadKept head) (storage.openObject kind id)
  readHead : Keeps (HeadKept head) storage.readHead
  refresh : Keeps (HeadKept head) storage.refresh
  read : ∀ {s id s'}, storage.readHead s = (.ok id, s') → id = head s
  swapped : ∀ {expected id s s'}, storage.compareAndSwapHead expected id s = (.ok (), s') →
    head s' = some id
  refused : ∀ {expected id s e s'}, storage.compareAndSwapHead expected id s = (.error e, s') →
    head s' = head s

/-- The machine's storage still has the same HEAD. -/
def SameHead (head : S → Option Text) (m m' : Machine S G) : Prop :=
  HeadKept head m.storage m'.storage

theorem SameHead.refl (m : Machine S G) : SameHead head m m := rfl

theorem SameHead.trans ⦃a b c : Machine S G⦄ (h : SameHead head a b) (h' : SameHead head b c) :
    SameHead head a c := HeadKept.trans h h'

theorem sameHead_onStorage {α : Type} {x : Action Error S α}
    (h : Keeps (HeadKept head) x) :
    Keeps (SameHead head) (onStorage x : Action Error (Machine S G) α) := fun m => h m.storage

theorem sameHead_onFloor {α : Type} (x : Action Error FloorFile α) :
    Keeps (SameHead head) (onFloor x : Action Error (Machine S G) α) := fun _ => rfl

theorem sameHead_onGit {α : Type} (x : Action Error G α) :
    Keeps (SameHead head) (onGit x : Action Error (Machine S G) α) := fun _ => rfl

/-! ## The phases of a push -/

/-- What is decided before anything is written. -/
structure Preflight where
  current : OpenedState
  chain : List OpenedState
  batch : PushState

/-- The batch, checked against the pinned head. -/
def preflight (P : Primitives) (storage : Storage S) (repo : GitRepository G) (key : KeyFile)
    (pushes : List RefPush) : Action Error (Machine S G) Preflight := do
  lockFloor
  let (current, chain) ← pinnedState P storage key
  Action.lift (requireWriter P key current.policy)
  Action.lift (validateInnerRefs current.manifest.refs)
  let batch ← onGit (pushChanges repo current.manifest.refs
    ⟨[], current.manifest.refs, .empty, []⟩ pushes)
  pure ⟨current, chain, batch⟩

/-- `publish_refs` up to the swap. -/
def commitRefs (P : Primitives) (storage : Storage S) (repo : GitRepository G) (key : KeyFile)
    (draws : Draws) (current : OpenedState) (nextRefs packRefs : RefMap) :
    Action Error (Machine S G) (Text × Manifest) := do
  let generation ← Action.lift (orBail (checkedAdd current.manifest.generation 1)
    "manifest generation overflow")
  let newPacks ← storePacks P storage repo draws current generation packRefs
  let prepared ← Action.lift (prepareRefs P draws current generation newPacks nextRefs)
  let id ← onStorage (commitManifest P storage key draws.coins (some current) prepared)
  pure (id, prepared.manifest)

/-- `publish_refs` behind the swap. -/
def keepBooks (repo : GitRepository G) (parentRefs nextRefs : RefMap)
    (published : Text × Manifest) :
    Action Error (Machine S G) Unit := do
  advanceFloor published.1 published.2
  onGit (recordPublication repo parentRefs nextRefs)

theorem publishRefs_eq (draws : Draws) (current : OpenedState) (chain : List OpenedState)
    (nextRefs packRefs : RefMap) :
    publishRefs P storage repo key draws current chain nextRefs packRefs
      = commitRefs P storage repo key draws current nextRefs packRefs >>= fun published =>
          keepBooks repo current.manifest.refs nextRefs published >>= fun _ =>
            pure ⟨published.1, published :: entriesOf chain⟩ := by
  simp only [publishRefs, commitRefs, keepBooks, bind_assoc, pure_bind]

theorem push_eq (pushes : List RefPush) (mode : PushMode) (draws : Draws) :
    push P storage repo key pushes mode draws
      = preflight P storage repo key pushes >>= fun checked =>
          pushPublication P storage repo key mode draws checked.current checked.chain
              checked.batch.nextRefs checked.batch.packRefs >>= fun publication =>
            pure ⟨⟨checked.batch.refs, publication.map Accepted.value⟩,
              (publication.map Accepted.chain).toOption.getD (entriesOf checked.chain)⟩ := by
  simp only [push, preflight, bind_assoc, pure_bind]

/-! ### The steps of a commit -/

section

variable (P storage key) (coins : Coins) (previous : Option OpenedState) (prepared : Prepared)

/-- Everything `commit_manifest` can do: the first step that fails ends it, and each step has
its input from the steps before. -/
inductive ManifestRun (s : S) : Result Text → S → Prop where
  | unsealed {e : Error} : sealNext P key coins previous prepared = .error e →
      ManifestRun s (.error e) s
  | unstored {id : Text} {encrypted : Bytes} {e : Error} {s' : S} :
      sealNext P key coins previous prepared = .ok (id, encrypted) →
      storage.putObjectIfAbsent .manifest id encrypted s = (.error e, s') →
      ManifestRun s (.error e) s'
  | unchecked {id : Text} {encrypted : Bytes} {e : Error} {s' : S} :
      sealNext P key coins previous prepared = .ok (id, encrypted) →
      storage.putObjectIfAbsent .manifest id encrypted s = (.ok (), s') →
      selfCheck P previous prepared encrypted = .error e → ManifestRun s (.error e) s'
  | unswapped {id : Text} {encrypted : Bytes} {e : Error} {s₁ s' : S} :
      sealNext P key coins previous prepared = .ok (id, encrypted) →
      storage.putObjectIfAbsent .manifest id encrypted s = (.ok (), s₁) →
      selfCheck P previous prepared encrypted = .ok () →
      storage.compareAndSwapHead (previous.map OpenedState.id) id s₁ = (.error e, s') →
      ManifestRun s (.error e) s'
  | committed {id : Text} {encrypted : Bytes} {s₁ s' : S} :
      sealNext P key coins previous prepared = .ok (id, encrypted) →
      storage.putObjectIfAbsent .manifest id encrypted s = (.ok (), s₁) →
      selfCheck P previous prepared encrypted = .ok () →
      storage.compareAndSwapHead (previous.map OpenedState.id) id s₁ = (.ok (), s') →
      ManifestRun s (.ok id) s'

theorem commitManifest_run (s : S) : ManifestRun P storage key coins previous prepared s
    (commitManifest P storage key coins previous prepared s).1
    (commitManifest P storage key coins previous prepared s).2 := by
  rw [commitManifest, commitManifestWithObservation, sealAndStoreManifest, bind_assoc]
  cases hsealed : sealNext P key coins previous prepared with
  | error e => exact .unsealed hsealed
  | ok sealed =>
    obtain ⟨id, encrypted⟩ := sealed
    rw [Action.bind_of_ok (x := Action.lift (Except.ok (id, encrypted))) rfl, bind_assoc]
    cases hput : storage.putObjectIfAbsent .manifest id encrypted s with
    | mk r s₁ =>
      cases r with
      | error e =>
        rw [Action.bind_of_error hput]
        exact .unstored hsealed hput
      | ok u =>
        rw [Action.bind_of_ok hput]
        cases hcheck : selfCheck P previous prepared encrypted with
        | error e => exact .unchecked hsealed hput hcheck
        | ok u =>
          cases hswap : storage.compareAndSwapHead (previous.map OpenedState.id) id s₁ with
          | mk r s' =>
            have hrun : (swapHead storage previous none id >>= fun _ => pure id) s₁
                = (r.map fun _ => id, s') := by
              cases r with
              | error e => exact Action.bind_of_error hswap
              | ok u => exact Action.bind_of_ok hswap
            show ManifestRun P storage key coins previous prepared s
              ((swapHead storage previous none id >>= fun _ => pure id) s₁).1
              ((swapHead storage previous none id >>= fun _ => pure id) s₁).2
            rw [hrun]
            cases r with
            | error e => exact .unswapped hsealed hput hcheck hswap
            | ok u => exact .committed hsealed hput hcheck hswap

end

section

variable (P storage repo key) (draws : Draws) (current : OpenedState) (nextRefs packRefs : RefMap)

/-- The packs are stored and the manifest is prepared. -/
def Prepares (m₁ m₂ : Machine S G) (prepared : Prepared) : Prop :=
  ∃ packs, storePacks P storage repo draws current (current.manifest.generation + 1) packRefs m₁
      = (.ok packs, m₂)
    ∧ prepareRefs P draws current (current.manifest.generation + 1) packs nextRefs = .ok prepared

/-- Everything the commit of a push can do on the machine `m₁`. -/
inductive CommitRun (m₁ : Machine S G) : Result (Text × Manifest) → Machine S G → Prop where
  | overflow : checkedAdd current.manifest.generation 1 = none →
      CommitRun m₁ (.error (.msg "manifest generation overflow")) m₁
  | unpacked {e : Error} {m' : Machine S G} :
      storePacks P storage repo draws current (current.manifest.generation + 1) packRefs m₁
        = (.error e, m') → CommitRun m₁ (.error e) m'
  | unlinked {packs : List PackDescriptor} {e : Error} {m' : Machine S G} :
      storePacks P storage repo draws current (current.manifest.generation + 1) packRefs m₁
        = (.ok packs, m') →
      prepareRefs P draws current (current.manifest.generation + 1) packs nextRefs = .error e →
      CommitRun m₁ (.error e) m'
  | uncommitted {m₂ : Machine S G} {prepared : Prepared} {e : Error} {s : S} :
      Prepares P storage repo draws current nextRefs packRefs m₁ m₂ prepared →
      ManifestRun P storage key draws.coins (some current) prepared m₂.storage (.error e) s →
      CommitRun m₁ (.error e) { m₂ with storage := s }
  | committed {m₂ : Machine S G} {prepared : Prepared} {id : Text} {s : S} :
      Prepares P storage repo draws current nextRefs packRefs m₁ m₂ prepared →
      ManifestRun P storage key draws.coins (some current) prepared m₂.storage (.ok id) s →
      CommitRun m₁ (.ok (id, prepared.manifest)) { m₂ with storage := s }

theorem commitRefs_run (m₁ : Machine S G) :
    CommitRun P storage repo key draws current nextRefs packRefs m₁
      (commitRefs P storage repo key draws current nextRefs packRefs m₁).1
      (commitRefs P storage repo key draws current nextRefs packRefs m₁).2 := by
  rw [commitRefs]
  cases hnext : checkedAdd current.manifest.generation 1 with
  | none => exact .overflow hnext
  | some generation =>
    obtain ⟨rfl, -⟩ := checkedAdd_eq_some.mp hnext
    rw [Action.bind_of_ok (x := Action.lift (orBail (some _) _)) rfl]
    cases hpacks : storePacks P storage repo draws current (current.manifest.generation + 1)
        packRefs m₁ with
    | mk r m₂ =>
      cases r with
      | error e =>
        rw [Action.bind_of_error hpacks]
        exact .unpacked hpacks
      | ok packs =>
        rw [Action.bind_of_ok hpacks]
        cases hprepared : prepareRefs P draws current (current.manifest.generation + 1) packs
            nextRefs with
        | error e => exact .unlinked hpacks hprepared
        | ok prepared =>
          rw [Action.bind_of_ok (x := Action.lift (Except.ok prepared)) rfl]
          have hrun := commitManifest_run P storage key draws.coins (some current)
            prepared m₂.storage
          rcases Action.bind_cases (onStorage (commitManifest P storage key draws.coins
              (some current) prepared)) (fun id => pure (id, prepared.manifest)) m₂
            with ⟨id, m₃, hcommit, heq⟩ | ⟨e, m₃, hcommit, heq⟩
          · obtain ⟨hstored, rfl⟩ := Action.zoom_eq hcommit
            rw [hstored] at hrun
            rw [heq, hstored]
            exact .committed ⟨packs, hpacks, hprepared⟩ hrun
          · obtain ⟨hstored, rfl⟩ := Action.zoom_eq hcommit
            rw [hstored] at hrun
            rw [heq, hstored]
            exact .uncommitted ⟨packs, hpacks, hprepared⟩ hrun

end

/-! ## The batch -/

/-- `next` is `parentRefs` with the accepted changes of a batch applied, in order. -/
inductive Applied (repo : GitRepository G) (parentRefs : RefMap) :
    List RefPush → List RefOutcome → RefMap → Prop where
  | nil : Applied repo parentRefs [] [] parentRefs
  | rejected {pushes : List RefPush} {outcomes : List RefOutcome} {next : RefMap} {push : RefPush}
      {error : Error} : Applied repo parentRefs pushes outcomes next →
      Applied repo parentRefs (pushes ++ [push]) (outcomes ++ [.rejected error]) next
  | updated {pushes : List RefPush} {outcomes : List RefOutcome} {next : RefMap} {push : RefPush}
      {source target : Text} {force : Bool} {g g' : G} :
      Applied repo parentRefs pushes outcomes next → push.change = .update source force →
      repo.resolveRef source g = (.ok target, g') →
      Applied repo parentRefs (pushes ++ [push]) (outcomes ++ [.accepted])
        (next.insert push.destination target)
  | deleted {pushes : List RefPush} {outcomes : List RefOutcome} {next : RefMap} {push : RefPush} :
      Applied repo parentRefs pushes outcomes next → push.change = .delete →
      Applied repo parentRefs (pushes ++ [push]) (outcomes ++ [.accepted])
        (next.erase push.destination)

/-- What a change that passes preflight does. -/
theorem preflightRefChange_ok {parentRefs : RefMap} {push : RefPush} {r : Option Text} {g g' : G}
    (h : preflightRefChange repo parentRefs push g = (.ok r, g')) :
    (push.change = .delete ∧ r = none) ∨ ∃ source force target g₁ g₂,
      push.change = .update source force ∧ r = some target
        ∧ repo.resolveRef source g₁ = (.ok target, g₂) := by
  obtain ⟨kind, g₁, -, h⟩ := Action.bind_eq_ok.mp h
  cases hchange : push.change with
  | delete =>
    simp only [hchange] at h
    obtain ⟨hr, -⟩ := Action.lift_eq_ok.mp h
    simp only [except_bind_eq_ok] at hr
    obtain ⟨⟨⟩, -, ⟨⟩, -, hr⟩ := hr
    cases hr
    exact .inl ⟨rfl, rfl⟩
  | update source force =>
    simp only [hchange] at h
    obtain ⟨target, g₂, hresolve, h⟩ := Action.bind_eq_ok.mp h
    refine .inr ⟨source, force, target, g₁, g₂, rfl, ?_, hresolve⟩
    split at h
    · cases h
      rfl
    · obtain ⟨⟨⟩, g₃, -, h⟩ := Action.bind_eq_ok.mp h
      cases h
      rfl

/-- One change keeps the account of the batch. -/
theorem pushChange_ok {parentRefs : RefMap} {pushes : List RefPush} {state state' : PushState}
    {push : RefPush} {g g' : G}
    (happlied : Applied repo parentRefs pushes state.refs state.nextRefs)
    (h : pushChange repo parentRefs state push g = (.ok state', g')) :
    Applied repo parentRefs (pushes ++ [push]) state'.refs state'.nextRefs := by
  obtain ⟨result, g₁, hattempt, h⟩ := Action.bind_eq_ok.mp h
  obtain ⟨rfl, rfl⟩ := Action.pure_eq_ok.mp h
  rw [Action.attempt_apply] at hattempt
  generalize hcheck : (if push.destination ∈ state.destinations then
      Action.fail (.msg s!"{render push.destination} appears more than once in one push")
    else preflightRefChange repo parentRefs push) g = checked at hattempt
  obtain ⟨r, g₂⟩ := checked
  cases hattempt
  cases r with
  | error error => exact .rejected happlied
  | ok r =>
    split at hcheck
    · cases hcheck
    · rcases preflightRefChange_ok hcheck with ⟨hdelete, rfl⟩ |
        ⟨source, force, target, g₃, g₄, hupdate, rfl, hresolve⟩
      · exact .deleted happlied hdelete
      · exact .updated happlied hupdate hresolve

theorem pushChanges_ok {parentRefs : RefMap} {pushes rest : List RefPush}
    {state state' : PushState} {g g' : G}
    (happlied : Applied repo parentRefs pushes state.refs state.nextRefs)
    (h : pushChanges repo parentRefs state rest g = (.ok state', g')) :
    Applied repo parentRefs (pushes ++ rest) state'.refs state'.nextRefs := by
  induction rest generalizing pushes state g with
  | nil =>
    cases h
    rw [List.append_nil]
    exact happlied
  | cons push rest ih =>
    obtain ⟨next, g₁, hchange, h⟩ := Action.bind_eq_ok.mp h
    rw [List.append_cons]
    exact ih (pushChange_ok happlied hchange) h

/-! ## The phases and HEAD -/

theorem spec_currentChain_head (hreg : HeadRegister storage head) (s : S) :
    Spec (HeadKept head s) (currentChain P storage key)
      (fun chain s' => HeadKept head s s'
        ∧ ∃ first rest, chain = first :: rest ∧ head s = some first.id)
      (HeadKept head s) := by
  have hkeeps : Keeps (HeadKept head) (currentChain P storage key) :=
    keeps_currentChain HeadKept.refl HeadKept.trans (hreg.openObject _) hreg.readHead key
  refine .intro (fun s₀ h₀ chain s' h => ?_) fun s₀ h₀ e s' h => ?_
  · have hsame := hkeeps s₀
    rw [h] at hsame
    refine ⟨h₀.trans hsame, ?_⟩
    obtain ⟨read, s₁, hread, h⟩ := Action.bind_eq_ok.mp h
    obtain ⟨id, s₂, hlift, h⟩ := Action.bind_eq_ok.mp h
    have hid := orBail_eq_ok.mp (Action.lift_eq_ok.mp hlift).1
    -- the chain starts at the identity that was read as the head
    obtain ⟨m, s₃, u, first, rest, hmaterial, rfl, -, -, hfirst, -⟩ := chainFrom_head h
    obtain ⟨bytes, s₄, -, hcheck⟩ := Action.bind_eq_ok.mp hmaterial
    obtain ⟨hname, -⟩ := checkMaterial_ok (Action.lift_eq_ok.mp hcheck).1
    refine ⟨first, rest, rfl, ?_⟩
    rw [← show head s₀ = head s from h₀, ← hreg.read hread, hid, hfirst, hname]
  · have hsame := hkeeps s₀
    rw [h] at hsame
    exact h₀.trans hsame

theorem spec_onStorage_head {α : Type} {x : Action Error S α} {m : Machine S G}
    {good : α → S → Prop} (h : Spec (HeadKept head m.storage) x good (HeadKept head m.storage)) :
    Spec (SameHead head m) (onStorage x : Action Error (Machine S G) α)
      (fun a m' => good a m'.storage) (SameHead head m) := by
  refine .intro (fun m₁ h₁ a m' hx => ?_) fun m₁ h₁ e m' hx => ?_
  · simp only [onStorage, Action.zoom, Prod.mk.injEq] at hx
    obtain ⟨hr, rfl⟩ := hx
    exact h.ok h₁ (Prod.ext hr rfl)
  · simp only [onStorage, Action.zoom, Prod.mk.injEq] at hx
    obtain ⟨hr, rfl⟩ := hx
    exact h.error h₁ (Prod.ext hr rfl)

/-- A step that leaves HEAD alone. -/
theorem spec_sameHead {α : Type} {x : Action Error (Machine S G) α} (h : Keeps (SameHead head) x)
    (m : Machine S G) : Spec (SameHead head m) x (fun _ => SameHead head m) (SameHead head m) :=
  h.spec fun _ _ h h' => h.trans h'

/-- A chain whose newest entry is where HEAD stands. -/
def HeadedAt (head : S → Option Text) (m : Machine S G) (chain : List OpenedState) : Prop :=
  ∃ first rest, chain = first :: rest ∧ head m.storage = some first.id

theorem spec_pinnedChain_head (hreg : HeadRegister storage head) (m : Machine S G) :
    Spec (SameHead head m) (pinnedChain P storage key)
      (fun chain m' => SameHead head m m' ∧ HeadedAt head m chain) (SameHead head m) := by
  have hcurrent : Spec (SameHead head m)
      (onStorage (currentChain P storage key) : Action Error (Machine S G) _)
      (fun chain m' => SameHead head m m' ∧ HeadedAt head m chain) (SameHead head m) :=
    spec_onStorage_head (spec_currentChain_head hreg m.storage)
  refine (spec_sameHead (sameHead_onFloor _) m).bind _ fun floor => hcurrent.bind _ fun chain => ?_
  split
  · exact .pure fun _ h => h
  · refine Spec.bind (fun _ => SameHead head m) ((spec_sameHead (sameHead_onStorage hreg.refresh)
      m).weaken (fun _ h => h.1) (fun _ _ h => h) fun _ h => h) fun refreshed => ?_
    split
    · exact .fail fun _ h => h
    · refine hcurrent.bind _ fun chain' => ?_
      exact Spec.bind (fun _ m' => SameHead head m m' ∧ HeadedAt head m chain')
        (.lift (fun _ _ _ h => h) fun _ h => h.1) fun _ => .pure fun _ h => h

/-- **Preflight** leaves HEAD where it is, and is about the head that is there. -/
theorem spec_preflight (hreg : HeadRegister storage head) (pushes : List RefPush)
    (m : Machine S G) :
    Spec (SameHead head m) (preflight P storage repo key pushes)
      (fun checked m' => SameHead head m m' ∧ head m.storage = some checked.current.id
        ∧ (∃ below, checked.chain = checked.current :: below)
        ∧ Applied repo checked.current.manifest.refs pushes checked.batch.refs
          checked.batch.nextRefs) (SameHead head m) := by
  refine (spec_sameHead (sameHead_onFloor _) m).bind _ fun _ => ?_
  refine Spec.bind (fun pinned m' => SameHead head m m' ∧ head m.storage = some pinned.1.id
    ∧ ∃ below, pinned.2 = pinned.1 :: below) ?_ fun pinned => ?_
  · refine (spec_pinnedChain_head hreg m).bind _ fun chain => ?_
    refine Spec.bind (fun current m' => SameHead head m m' ∧ head m.storage = some current.id
      ∧ ∃ below, chain = current :: below) (.lift (fun current hcurrent m' h => ?_) fun _ h => h.1)
      fun current => .pure fun _ h => h
    obtain ⟨hsame, first, below, rfl, hhead⟩ := h
    cases orBail_eq_ok.mp hcurrent
    exact ⟨hsame, hhead, below, rfl⟩
  · obtain ⟨current, chain⟩ := pinned
    refine Spec.bind (fun _ m' => SameHead head m m' ∧ head m.storage = some current.id
      ∧ ∃ below, chain = current :: below) (.lift (fun _ _ _ h => h) fun _ h => h.1) fun _ => ?_
    refine Spec.bind (fun _ m' => SameHead head m m' ∧ head m.storage = some current.id
      ∧ ∃ below, chain = current :: below) (.lift (fun _ _ _ h => h) fun _ h => h.1) fun _ => ?_
    refine Spec.bind (fun batch m' => (SameHead head m m' ∧ head m.storage = some current.id
      ∧ ∃ below, chain = current :: below)
      ∧ Applied repo current.manifest.refs pushes batch.refs batch.nextRefs) ?_
      fun batch => .pure fun _ ⟨⟨hsame, hhead, hchain⟩, happlied⟩ =>
        ⟨hsame, hhead, hchain, happlied⟩
    refine .intro (fun m₁ h₁ batch m' h => ?_) fun m₁ h₁ e m' h => ?_
    · simp only [onGit, Action.zoom, Prod.mk.injEq] at h
      obtain ⟨hbatch, rfl⟩ := h
      have happlied : Applied repo current.manifest.refs ([] ++ pushes) batch.refs batch.nextRefs :=
        pushChanges_ok .nil (Prod.ext hbatch rfl)
      exact ⟨h₁, happlied⟩
    · simp only [onGit, Action.zoom, Prod.mk.injEq] at h
      obtain ⟨-, rfl⟩ := h
      exact h₁.1

/-- A commit moves HEAD to the manifest it returns, or leaves it. -/
theorem spec_commitManifest_head (hreg : HeadRegister storage head) (coins : Coins)
    (previous : Option OpenedState) (prepared : Prepared) (s : S) :
    Spec (HeadKept head s) (commitManifest P storage key coins previous prepared)
      (fun id s' => head s' = some id) (HeadKept head s) := by
  have hkeep : ∀ {α : Type} {x : Action Error S α}, Keeps (HeadKept head) x →
      Spec (HeadKept head s) x (fun _ => HeadKept head s) (HeadKept head s) :=
    fun h => h.spec fun _ _ h h' => h.trans h'
  refine Spec.bind (fun _ => HeadKept head s) ?_ fun id => ?_
  · refine Spec.bind (fun _ => HeadKept head s) (.lift (fun _ _ _ h => h) fun _ h => h)
      fun sealed => ?_
    refine Spec.bind (fun _ => HeadKept head s) ((hkeep (hreg.beginObject _)).bind _ fun _ =>
      hkeep (hreg.finishObject _ _ _)) fun _ => ?_
    exact Spec.bind (fun _ => HeadKept head s) (.lift (fun _ _ _ h => h) fun _ h => h) fun _ =>
      .pure fun _ h => h
  · refine Spec.bind (fun _ s' => head s' = some id) ?_ fun _ => .pure fun _ h => h
    refine .intro (fun s₁ h₁ _ s' h => hreg.swapped h) fun s₁ h₁ e s' h => ?_
    exact h₁.trans (hreg.refused h)

/-- **The commit of a push.** -/
theorem spec_commitRefs (hreg : HeadRegister storage head) (draws : Draws) (current : OpenedState)
    (nextRefs packRefs : RefMap) (m : Machine S G) :
    Spec (SameHead head m) (commitRefs P storage repo key draws current nextRefs packRefs)
      (fun published m' => head m'.storage = some published.1 ∧ published.2.refs = nextRefs)
      (SameHead head m) := by
  -- storing packs publishes objects only: the head moves in the last step and nowhere else
  have hpacks : ∀ generation, Keeps (SameHead head)
      (storePacks P storage repo draws current generation packRefs) := by
    intro generation
    unfold storePacks
    split
    · exact .pure SameHead.refl
    · refine Keeps.bind SameHead.trans ?_ fun _ => .pure SameHead.refl
      refine (sameHead_onGit _).bind SameHead.trans fun _ => ?_
      refine (Keeps.lift SameHead.refl).bind SameHead.trans fun _ => ?_
      refine (sameHead_onGit _).bind SameHead.trans fun _ => ?_
      refine (sameHead_onStorage (hreg.beginObject _)).bind SameHead.trans fun _ => ?_
      refine (Keeps.lift SameHead.refl).bind SameHead.trans fun _ => ?_
      refine (sameHead_onGit _).bind SameHead.trans fun _ => ?_
      exact (sameHead_onStorage (hreg.finishObject _ _ _)).bind SameHead.trans fun _ =>
        .pure SameHead.refl
  refine (spec_sameHead (.lift SameHead.refl) m).bind _ fun generation => ?_
  refine (spec_sameHead (hpacks generation) m).bind _ fun newPacks => ?_
  refine Spec.bind (fun prepared m' => prepared.manifest.refs = nextRefs ∧ SameHead head m m')
    (.lift (fun prepared hprepared m' h => ⟨(prepareRefs_ok hprepared).2.2.2.2.2.1, h⟩)
      fun _ h => h) fun prepared => Spec.fact fun hrefs => ?_
  refine Spec.bind (fun id m' => head m'.storage = some id)
    (spec_onStorage_head (spec_commitManifest_head hreg _ _ _ m.storage)) fun id => ?_
  exact .pure fun _ h => ⟨h, hrefs⟩

theorem keeps_keepBooks (parentRefs nextRefs : RefMap) (published : Text × Manifest) :
    Keeps (SameHead head)
      (keepBooks repo parentRefs nextRefs published : Action Error (Machine S G) Unit) :=
  (sameHead_onFloor _).bind SameHead.trans fun _ => sameHead_onGit _

/-! ## All or nothing -/

/-- What a push owes its caller, from the machine `m`: a failure means that HEAD is still
the head the batch was checked against, and a publication that HEAD is the new manifest,
whose refs are the parent's with the accepted changes. -/
structure AllOrNothing (head : S → Option Text) (repo : GitRepository G) (pushes : List RefPush)
    (mode : PushMode) (m : Machine S G) (result : Result (Accepted PushOutcome))
    (m' : Machine S G) : Prop where
  failed : ∀ e, result = .error e → SameHead head m m'
  unpublished : ∀ accepted e, result = .ok accepted → accepted.value.publication = .error e →
    SameHead head m m' ∧ ∃ parent below, accepted.chain = parent :: below
      ∧ head m.storage = some parent.1
  published : ∀ accepted id, result = .ok accepted → accepted.value.publication = .ok id →
    mode = .publish → head m'.storage = some id
      ∧ ∃ manifest below parent, accepted.chain = (id, manifest) :: below
        ∧ parent ∈ accepted.chain ∧ head m.storage = some parent.1
        ∧ Applied repo parent.2.refs pushes accepted.value.refs manifest.refs
  /-- An accepted change is reported as failed only if nothing was published. -/
  reported : ∀ accepted push, result = .ok accepted →
    (push, RefOutcome.accepted) ∈ pushes.zip accepted.value.refs →
    reportChange accepted.value.publication push .accepted ≠ .ok push.destination →
    SameHead head m m'

section

variable {pushes : List RefPush} {mode : PushMode} {m m' : Machine S G}

theorem AllOrNothing.of_error {e : Error} (h : SameHead head m m') :
    AllOrNothing head repo pushes mode m (.error e) m' :=
  ⟨fun _ _ => h, fun _ _ h => (by cases h), fun _ _ h => (by cases h), fun _ _ h => (by cases h)⟩

theorem AllOrNothing.of_unpublished {accepted : Accepted PushOutcome} {e : Error}
    (hpublication : accepted.value.publication = .error e) (h : SameHead head m m')
    (hchain : ∃ parent below, accepted.chain = parent :: below ∧ head m.storage = some parent.1) :
    AllOrNothing head repo pushes mode m (.ok accepted) m' := by
  refine ⟨fun _ h => (by cases h), ?_, ?_, fun _ _ _ _ _ => h⟩
  · rintro accepted' e' ⟨⟩ -
    exact ⟨h, hchain⟩
  · rintro accepted' id ⟨⟩ hid
    rw [hpublication] at hid
    cases hid

theorem AllOrNothing.of_published {accepted : Accepted PushOutcome} {id : Text}
    (hpublication : accepted.value.publication = .ok id)
    (h : mode = .publish → head m'.storage = some id
      ∧ ∃ manifest below parent, accepted.chain = (id, manifest) :: below
        ∧ parent ∈ accepted.chain ∧ head m.storage = some parent.1
        ∧ Applied repo parent.2.refs pushes accepted.value.refs manifest.refs) :
    AllOrNothing head repo pushes mode m (.ok accepted) m' := by
  refine ⟨fun _ h => (by cases h), ?_, ?_, ?_⟩
  · rintro accepted' e ⟨⟩ he
    rw [hpublication] at he
    cases he
  · rintro accepted' id' ⟨⟩ hid hmode
    rw [hpublication] at hid
    cases hid
    exact h hmode
  · rintro accepted' push ⟨⟩ - hreport
    rw [hpublication] at hreport
    exact absurd rfl hreport

end

section

variable {pushes : List RefPush} {mode : PushMode} {draws : Draws} {m : Machine S G}

/-- Everything a push can do, by the phase in which it ends. -/
inductive PushRun (P : Primitives) (storage : Storage S) (repo : GitRepository G) (key : KeyFile)
    (pushes : List RefPush) (mode : PushMode) (draws : Draws) (m : Machine S G) :
    Result (Accepted PushOutcome) → Machine S G → Prop where
  | unchecked {e : Error} {m' : Machine S G} :
      preflight P storage repo key pushes m = (.error e, m') →
      PushRun P storage repo key pushes mode draws m (.error e) m'
  | idle {checked : Preflight} {m₁ m' : Machine S G} :
      preflight P storage repo key pushes m = (.ok checked, m₁) →
      mode = .dryRun ∨ checked.batch.nextRefs = checked.current.manifest.refs →
      advanceFloor checked.current.id checked.current.manifest m₁ = (.ok (), m') →
      PushRun P storage repo key pushes mode draws m
        (.ok ⟨⟨checked.batch.refs, .ok checked.current.id⟩, entriesOf checked.chain⟩) m'
  | idleFailed {checked : Preflight} {m₁ m' : Machine S G} {e : Error} :
      preflight P storage repo key pushes m = (.ok checked, m₁) →
      mode = .dryRun ∨ checked.batch.nextRefs = checked.current.manifest.refs →
      advanceFloor checked.current.id checked.current.manifest m₁ = (.error e, m') →
      PushRun P storage repo key pushes mode draws m (.error e) m'
  | uncommitted {checked : Preflight} {m₁ m' : Machine S G} {e : Error} :
      preflight P storage repo key pushes m = (.ok checked, m₁) →
      mode = .publish → checked.batch.nextRefs ≠ checked.current.manifest.refs →
      commitRefs P storage repo key draws checked.current checked.batch.nextRefs
        checked.batch.packRefs m₁ = (.error e, m') →
      PushRun P storage repo key pushes mode draws m
        (.ok ⟨⟨checked.batch.refs, .error e⟩, entriesOf checked.chain⟩) m'
  | unrecorded {checked : Preflight} {m₁ m₂ m' : Machine S G} {published : Text × Manifest}
      {e : Error} : preflight P storage repo key pushes m = (.ok checked, m₁) →
      mode = .publish → checked.batch.nextRefs ≠ checked.current.manifest.refs →
      commitRefs P storage repo key draws checked.current checked.batch.nextRefs
        checked.batch.packRefs m₁ = (.ok published, m₂) →
      keepBooks repo checked.current.manifest.refs checked.batch.nextRefs published m₂
        = (.error e, m') →
      PushRun P storage repo key pushes mode draws m
        (.ok ⟨⟨checked.batch.refs, .error e⟩, entriesOf checked.chain⟩) m'
  | published {checked : Preflight} {m₁ m₂ m' : Machine S G} {published : Text × Manifest} :
      preflight P storage repo key pushes m = (.ok checked, m₁) →
      mode = .publish → checked.batch.nextRefs ≠ checked.current.manifest.refs →
      commitRefs P storage repo key draws checked.current checked.batch.nextRefs
        checked.batch.packRefs m₁ = (.ok published, m₂) →
      keepBooks repo checked.current.manifest.refs checked.batch.nextRefs published m₂
        = (.ok (), m') →
      PushRun P storage repo key pushes mode draws m
        (.ok ⟨⟨checked.batch.refs, .ok published.1⟩, published :: entriesOf checked.chain⟩) m'

theorem push_run : PushRun P storage repo key pushes mode draws m
    (push P storage repo key pushes mode draws m).1
    (push P storage repo key pushes mode draws m).2 := by
  rw [push_eq]
  cases hpreflight : preflight P storage repo key pushes m with
  | mk r m₁ =>
    cases r with
    | error e =>
      rw [Action.bind_of_error hpreflight]
      exact .unchecked hpreflight
    | ok checked =>
      rw [Action.bind_of_ok hpreflight]
      by_cases hidle : mode = .dryRun ∨ checked.batch.nextRefs = checked.current.manifest.refs
      · rw [pushPublication, if_pos hidle, bind_assoc]
        cases hadvance : advanceFloor checked.current.id checked.current.manifest m₁ with
        | mk r m₂ =>
          cases r with
          | error e =>
            rw [Action.bind_of_error hadvance]
            exact .idleFailed hpreflight hidle hadvance
          | ok u =>
            rw [Action.bind_of_ok hadvance]
            exact .idle hpreflight hidle hadvance
      · -- the refs change and the mode is to publish: the only way to the commit
        obtain ⟨hmode, hchanged⟩ := not_or.mp hidle
        have hpublish : mode = .publish := by
          cases mode with
          | publish => rfl
          | dryRun => exact absurd rfl hmode
        rw [pushPublication, if_neg hidle, publishRefs_eq,
          Action.bind_of_ok (Action.attempt_apply _ _)]
        cases hcommit : commitRefs P storage repo key draws checked.current checked.batch.nextRefs
            checked.batch.packRefs m₁ with
        | mk r m₂ =>
          cases r with
          | error e =>
            rw [Action.bind_of_error hcommit]
            exact .uncommitted hpreflight hpublish hchanged hcommit
          | ok published =>
            rw [Action.bind_of_ok hcommit]
            cases hbooks : keepBooks repo checked.current.manifest.refs checked.batch.nextRefs
                published m₂ with
            | mk r m₃ =>
              cases r with
              | error e =>
                rw [Action.bind_of_error hbooks]
                exact .unrecorded hpreflight hpublish hchanged hcommit hbooks
              | ok u =>
                rw [Action.bind_of_ok hbooks]
                exact .published hpreflight hpublish hchanged hcommit hbooks

end

/-- HEAD behind the swap, whatever becomes of the books. -/
theorem keepBooks_head (hreg : HeadRegister storage head) {draws : Draws} {current : OpenedState}
    {nextRefs packRefs parentRefs : RefMap} {m m₁ m₂ m₃ : Machine S G} {published : Text × Manifest}
    {r : Result Unit} (hsame : SameHead head m m₁)
    (hcommit : commitRefs P storage repo key draws current nextRefs packRefs m₁
      = (.ok published, m₂))
    (hbooks : keepBooks repo parentRefs nextRefs published m₂ = (r, m₃)) :
    head m₃.storage = some published.1 ∧ published.2.refs = nextRefs := by
  obtain ⟨hswapped, hrefs⟩ := (spec_commitRefs hreg draws current nextRefs packRefs m).ok hsame
    hcommit
  have hkept : SameHead head m₂ (keepBooks repo parentRefs nextRefs published m₂).2 :=
    keeps_keepBooks _ _ _ m₂
  rw [hbooks] at hkept
  exact ⟨Eq.trans hkept hswapped, hrefs⟩

/-- A push that keeps its books, if it gets to them, is all or nothing. -/
theorem PushRun.allOrNothing (hreg : HeadRegister storage head) {pushes : List RefPush}
    {mode : PushMode} {draws : Draws} {m m' : Machine S G} {result : Result (Accepted PushOutcome)}
    (hrun : PushRun P storage repo key pushes mode draws m result m')
    (hkept : ∀ {checked m₁ published m₂ e m₃},
      preflight P storage repo key pushes m = (.ok checked, m₁) →
      commitRefs P storage repo key draws checked.current checked.batch.nextRefs
        checked.batch.packRefs m₁ = (.ok published, m₂) →
      keepBooks repo checked.current.manifest.refs checked.batch.nextRefs published m₂
        ≠ (.error e, m₃)) :
    AllOrNothing head repo pushes mode m result m' := by
  have hpre : Spec (SameHead head m) (preflight P storage repo key pushes) _ (SameHead head m) :=
    spec_preflight hreg pushes m
  cases hrun with
  | unchecked hchecked => exact .of_error (hpre.error (SameHead.refl m) hchecked)
  | @idle checked m₁ _ hchecked hidle hadvance =>
    obtain ⟨hsame, hhead, ⟨below, hchain⟩, happlied⟩ := hpre.ok (SameHead.refl m) hchecked
    have hkept : SameHead head m m' := (spec_sameHead (sameHead_onFloor _) m).ok hsame hadvance
    refine .of_published rfl fun hmode => ⟨Eq.trans hkept hhead, checked.current.manifest,
      entriesOf below, (checked.current.id, checked.current.manifest),
        congrArg entriesOf hchain, ?_,
      hhead, ?_⟩
    · rw [hchain]
      exact List.mem_cons_self
    · rcases hidle with hdry | hunchanged
      · rw [hdry] at hmode
        cases hmode
      · rw [hunchanged] at happlied
        exact happlied
  | idleFailed hchecked hidle hadvance =>
    obtain ⟨hsame, -⟩ := hpre.ok (SameHead.refl m) hchecked
    exact .of_error ((spec_sameHead (sameHead_onFloor _) m).error hsame hadvance)
  | @uncommitted checked m₁ _ e hchecked hmode hchanged hcommit =>
    obtain ⟨hsame, hhead, ⟨below, hchain⟩, -⟩ := hpre.ok (SameHead.refl m) hchecked
    exact .of_unpublished rfl ((spec_commitRefs hreg draws checked.current _ _ m).error hsame
      hcommit) ⟨_, entriesOf below, congrArg entriesOf hchain, hhead⟩
  -- the head has moved and the push reports a failure: what `hkept` rules out
  | unrecorded hchecked _ _ hcommit hbooks => exact absurd hbooks (hkept hchecked hcommit)
  | @published checked m₁ m₂ _ published hchecked hmode hchanged hcommit hbooks =>
    obtain ⟨hsame, hhead, ⟨below, hchain⟩, happlied⟩ := hpre.ok (SameHead.refl m) hchecked
    obtain ⟨hswapped, hrefs⟩ := keepBooks_head hreg hsame hcommit hbooks
    refine .of_published rfl fun _ => ⟨hswapped, published.2, entriesOf checked.chain,
      (checked.current.id, checked.current.manifest), rfl, List.mem_cons_of_mem _ ?_, hhead, ?_⟩
    · rw [hchain]
      exact List.mem_cons_self
    · rw [hrefs]
      exact happlied

/-- A push that moves HEAD kept its books, or reports that its publication failed. -/
theorem PushRun.moved (hreg : HeadRegister storage head) {pushes : List RefPush}
    {mode : PushMode} {draws : Draws} {m m' : Machine S G} {result : Result (Accepted PushOutcome)}
    (hrun : PushRun P storage repo key pushes mode draws m result m')
    (hmoved : ¬ SameHead head m m') :
    (∃ checked m₁ published m₂, preflight P storage repo key pushes m = (.ok checked, m₁)
      ∧ commitRefs P storage repo key draws checked.current checked.batch.nextRefs
        checked.batch.packRefs m₁ = (.ok published, m₂)
      ∧ keepBooks repo checked.current.manifest.refs checked.batch.nextRefs published m₂
        = (.ok (), m'))
    ∨ ∃ accepted e, result = .ok accepted ∧ accepted.value.publication = .error e := by
  have hpre : Spec (SameHead head m) (preflight P storage repo key pushes) _ (SameHead head m) :=
    spec_preflight hreg pushes m
  cases hrun with
  | unchecked hchecked => exact absurd (hpre.error (SameHead.refl m) hchecked) hmoved
  | idle hchecked _ hadvance =>
    have hsame := (hpre.ok (SameHead.refl m) hchecked).1
    exact absurd ((spec_sameHead (sameHead_onFloor _) m).ok hsame hadvance) hmoved
  | idleFailed hchecked _ hadvance =>
    have hsame := (hpre.ok (SameHead.refl m) hchecked).1
    exact absurd ((spec_sameHead (sameHead_onFloor _) m).error hsame hadvance) hmoved
  | uncommitted => exact .inr ⟨_, _, rfl, rfl⟩
  | unrecorded => exact .inr ⟨_, _, rfl, rfl⟩
  | published hchecked _ _ hcommit hbooks =>
    exact .inl ⟨_, _, _, _, hchecked, hcommit, hbooks⟩

/-- The run that gets past the swap: HEAD is at the new manifest, and what is reported is how
the books went. -/
theorem push_swapped (hreg : HeadRegister storage head) {pushes : List RefPush} {draws : Draws}
    {m m₁ m₂ m₃ : Machine S G} {checked : Preflight} {published : Text × Manifest}
    {r : Result Unit} (hchecked : preflight P storage repo key pushes m = (.ok checked, m₁))
    (hchanged : checked.batch.nextRefs ≠ checked.current.manifest.refs)
    (hcommit : commitRefs P storage repo key draws checked.current checked.batch.nextRefs
      checked.batch.packRefs m₁ = (.ok published, m₂))
    (hbooks : keepBooks repo checked.current.manifest.refs checked.batch.nextRefs published m₂
      = (r, m₃)) :
    ∃ accepted, push P storage repo key pushes .publish draws m = (.ok accepted, m₃)
      ∧ accepted.value.publication = r.map (fun _ => published.1)
      ∧ head m₃.storage = some published.1 := by
  have hidle : ¬ (PushMode.publish = .dryRun
      ∨ checked.batch.nextRefs = checked.current.manifest.refs) := by
    rintro (hdry | hunchanged)
    · cases hdry
    · exact hchanged hunchanged
  have hsame := ((spec_preflight hreg pushes m).ok (SameHead.refl m) hchecked).1
  have hhead := (keepBooks_head hreg hsame hcommit hbooks).1
  rw [push_eq, Action.bind_of_ok hchecked, pushPublication, if_neg hidle, publishRefs_eq,
    Action.bind_of_ok (Action.attempt_apply _ _), Action.bind_of_ok hcommit]
  cases r with
  | error e =>
    rw [Action.bind_of_error hbooks]
    exact ⟨_, rfl, rfl, hhead⟩
  | ok u =>
    rw [Action.bind_of_ok hbooks]
    exact ⟨_, rfl, rfl, hhead⟩

/-! ## A directory -/

namespace Directory

variable {location : String}

/-- Where HEAD stands, if it can be read. -/
def standing (location : String) (d : Directory) : Option Text :=
  (d.readHead location).toOption.join

/-- A directory whose HEAD names a manifest has the current format. -/
theorem readHead_some {d : Directory} {id : Text} (h : d.readHead location = .ok (some id)) :
    d.format = some (.regular STORAGE_FORMAT) := by
  simp only [readHead, except_bind_eq_ok] at h
  obtain ⟨⟨⟩, hformat, hhead⟩ := h
  -- there is a HEAD, so there must be a FORMAT, and it must be the current one
  have hpresent : d.head.isSome = true := by
    cases hfile : d.head with
    | some entry => rfl
    | none =>
      rw [readStoredHead, hfile] at hhead
      cases hhead
  simp only [checkFormat, except_bind_eq_ok, hpresent] at hformat
  obtain ⟨content, hroot, hcheck⟩ := hformat
  cases hfile : d.format with
  | none =>
    rw [hfile] at hroot
    cases hroot
    cases hcheck
  | some entry =>
    rw [hfile] at hroot
    cases entry with
    | notRegular => cases hroot
    | regular bytes =>
      by_cases hsize : MAX_STORAGE_FORMAT_BYTES < bytes.length
      · rw [readRootFile, readRegularBounded, if_pos hsize] at hroot
        cases hroot
      · rw [readRootFile, readRegularBounded, if_neg hsize] at hroot
        cases hroot
        simp only [checkStorageFormat] at hcheck
        split at hcheck
        · rename_i hsame
          rw [hsame]
        · cases hcheck

/-- A swap that fails changes nothing. -/
theorem spec_compareAndSwapHead (expected : Option Text) (next : Text) (d : Directory) :
    Spec (fun s => s = d) (compareAndSwapHead location expected next) (fun _ _ => True)
      (fun s => s = d) := by
  refine Spec.bind (fun _ s => s = d) (.lift (fun _ _ _ h => h) fun _ h => h) fun _ => ?_
  refine Spec.bind (fun _ s => s = d) (fun _ h => h) fun directory => ?_
  refine Spec.bind (fun _ s => s = d) (.lift (fun _ _ _ h => h) fun _ h => h) fun actual => ?_
  split
  · exact .fail fun _ h => h
  · exact fun _ _ => trivial

/-- **A directory's HEAD is a register.** -/
theorem headRegister : HeadRegister (Directory.storage P location) (standing location) where
  beginObject _ _ := rfl
  finishObject kind bytes id := by
    refine (Keeps.lift HeadKept.refl).bind HeadKept.trans fun _ d => ?_
    unfold publishObject
    split
    · exact HeadKept.refl d
    · rfl
  openObject _ _ _ := rfl
  readHead _ := rfl
  refresh _ := rfl
  read := by
    intro s id s' h
    have hread : s.readHead location = .ok id := congrArg Prod.fst h
    rw [standing, hread]
    rfl
  swapped := by
    intro expected id s s' h
    obtain ⟨⟨⟩, s₁, hid, h⟩ := Action.bind_eq_ok.mp h
    obtain ⟨hvalid, rfl⟩ := Action.lift_eq_ok.mp hid
    obtain ⟨d, s₂, hget, h⟩ := Action.bind_eq_ok.mp h
    cases hget
    obtain ⟨actual, s₃, hread, h⟩ := Action.bind_eq_ok.mp h
    obtain ⟨hactual, rfl⟩ := Action.lift_eq_ok.mp hread
    split at h
    · cases h
    · cases h
      -- a first head comes with its FORMAT; a later one finds the FORMAT its reader accepted
      have hformatted : (replaceHead id actual.isNone s).Formatted (some id) := by
        refine formatted_replaceHead (by simpa [validateId] using hvalid) fun hsome => ?_
        cases actual with
        | none => cases hsome
        | some current => exact readHead_some hactual
      rw [standing, hformatted.readHead]
      rfl
  refused := by
    intro expected id s e s' h
    rw [(spec_compareAndSwapHead expected id s).error rfl h]

end Directory

end GitE2EE

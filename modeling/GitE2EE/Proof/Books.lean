import GitE2EE.Proof.IdealGit
import GitE2EE.Proof.Stocked

/-!
# When a push is all or nothing

Behind its swap a push keeps its books. It reads the floor and writes it, and it opens and
reads the progress of the checkout, and writes it if the checkout was verified up to the
parent. Nothing before the swap makes these accesses succeed or fail: the floor is locked
and was read twice by then, so they are its third and fourth access, and the push has not
touched the progress. So the machine a push starts on decides whether its books will be kept
(`BooksKept`), and a push whose books can be kept is all or nothing; of the pushes that move
HEAD only these are (`push_allOrNothing`).
-/

namespace GitE2EE

open Wire Effect

variable {S G : Type} {P : Primitives} {storage : Storage S} {repo : GitRepository G}
variable {key : KeyFile} {head : S → Option Text}

/-! ## The floor, access by access -/

/-- What will happen to an access to the floor, counted from the next one. -/
def FloorFile.fate (file : FloorFile) (n : Nat) : Fault := file.faults.getD n .none

theorem FloorFile.fate_tail (content : Option ContinuityFloor) (faults : List Fault) (n : Nat) :
    FloorFile.fate ⟨content, faults.tail⟩ n = faults.getD (n + 1) .none := by
  cases faults <;> rfl

theorem access_of_none {effect : Option ContinuityFloor → Option ContinuityFloor}
    {file : FloorFile} (h : file.fate 0 = .none) :
    FloorFile.access effect file = (.ok (), ⟨effect file.content, file.faults.tail⟩) := by
  obtain ⟨content, faults⟩ := file
  cases faults with
  | nil => rfl
  | cons fault rest =>
    obtain rfl : fault = .none := h
    rfl

theorem access_of_fault (effect : Option ContinuityFloor → Option ContinuityFloor)
    {file : FloorFile} (h : file.fate 0 ≠ .none) :
    ∃ e file', FloorFile.access effect file = (.error e, file') := by
  obtain ⟨content, faults⟩ := file
  cases faults with
  | nil => exact absurd rfl h
  | cons fault rest =>
    cases fault with
    | none => exact absurd rfl h
    | before e => exact ⟨e, _, rfl⟩
    | after e => exact ⟨e, _, rfl⟩

theorem access_id_ok {file file' : FloorFile} (h : FloorFile.access id file = (.ok (), file')) :
    file' = ⟨file.content, file.faults.tail⟩ := by
  by_cases hfate : file.fate 0 = .none
  · rw [access_of_none hfate] at h
    exact (Prod.mk.inj h).2.symm
  · obtain ⟨e, file₁, hfault⟩ := access_of_fault id hfate
    rw [hfault] at h
    cases h

/-- Reading the floor takes one access. -/
theorem floorRead_file {file file' : FloorFile} {floor : Option ContinuityFloor}
    (h : FloorGuard.read file = (.ok floor, file')) :
    file' = ⟨file.content, file.faults.tail⟩
      ∧ FloorGuard.read.checkFormat file.content = .ok file.content := by
  have hfloor := floorRead_ok h
  obtain ⟨⟨⟩, f₁, haccess, h⟩ := Action.bind_eq_ok.mp h
  obtain ⟨f₂, f₃, hget, h⟩ := Action.bind_eq_ok.mp h
  cases hget
  obtain ⟨hcheck, rfl⟩ := Action.lift_eq_ok.mp h
  rw [access_id_ok haccess, hfloor] at hcheck
  exact ⟨access_id_ok haccess, hcheck⟩

theorem floorRead_of_none {file : FloorFile} (h : file.fate 0 = .none)
    (hformat : FloorGuard.read.checkFormat file.content = .ok file.content) :
    FloorGuard.read file = (.ok file.content, ⟨file.content, file.faults.tail⟩) :=
  Action.bind_eq_ok.mpr ⟨(), _, access_of_none h, Action.bind_eq_ok.mpr
    ⟨_, _, rfl, Action.lift_eq_ok.mpr ⟨hformat, rfl⟩⟩⟩

/-- Moving the floor takes two accesses, if the floor may move. -/
theorem floorAdvance_ok_iff {next : ContinuityFloor} {file : FloorFile}
    (hformat : FloorGuard.read.checkFormat file.content = .ok file.content)
    (hmoves : ∀ floor, file.content = some floor → FloorGuard.advances floor next = .ok true) :
    (FloorGuard.advance next file).1 = .ok () ↔ file.fate 0 = .none ∧ file.fate 1 = .none := by
  have hsecond : FloorFile.fate ⟨file.content, file.faults.tail⟩ 0 = file.fate 1 :=
    FloorFile.fate_tail _ _ _
  by_cases hread : file.fate 0 = .none
  · -- the read goes through, so it is up to the write
    have hrun : FloorGuard.advance next file
        = FloorFile.access (fun _ => some next) ⟨file.content, file.faults.tail⟩ := by
      rw [FloorGuard.advance, Action.bind_of_ok (floorRead_of_none hread hformat)]
      cases hcontent : file.content with
      | none => rfl
      | some floor =>
        have hlift : (Action.lift (FloorGuard.advances floor next) : Action Error FloorFile Bool)
            ⟨some floor, file.faults.tail⟩ = (.ok true, _) :=
          Action.lift_eq_ok.mpr ⟨hmoves floor hcontent, rfl⟩
        exact Action.bind_of_ok hlift
    rw [hrun, and_iff_right hread, ← hsecond]
    by_cases hwrite : FloorFile.fate ⟨file.content, file.faults.tail⟩ 0 = .none
    · rw [access_of_none hwrite]
      exact iff_of_true rfl hwrite
    · obtain ⟨e, file', hfault⟩ := access_of_fault (fun _ => some next) hwrite
      rw [hfault]
      exact iff_of_false (fun h => by cases h) hwrite
  · refine iff_of_false (fun hok => ?_) fun h => hread h.1
    obtain ⟨e, file', hfault⟩ := access_of_fault id hread
    have hfailed : FloorGuard.read file = (.error e, file') := Action.bind_of_error hfault
    rw [FloorGuard.advance, Action.bind_of_error hfailed] at hok
    cases hok

/-! ## The refs of the head -/

/-- The head still has the same refs. -/
def RefsKept (refsAt : S → RefMap) (s s' : S) : Prop := refsAt s' = refsAt s

/-- `refsAt` are the refs of the manifest at HEAD, which reading leaves alone. -/
structure HeadRefs (P : Primitives) (storage : Storage S) (key : KeyFile) (refsAt : S → RefMap) :
    Prop where
  openObject : ∀ id, Keeps (RefsKept refsAt) (storage.openObject .manifest id)
  readHead : Keeps (RefsKept refsAt) storage.readHead
  refresh : Keeps (RefsKept refsAt) storage.refresh
  read : ∀ {s s' current chain}, currentChain P storage key s = (.ok (current :: chain), s') →
    current.manifest.refs = refsAt s

/-- What a push knows of the head it is checked against. -/
structure PinnedAt (refs : RefMap) (content : Option ContinuityFloor) (current : OpenedState)
    (chain : List OpenedState) : Prop where
  newest : ∃ below, chain = current :: below
  refs : current.manifest.refs = refs
  valid : validatePinnedHead chain content = .ok ()

/-- The pinned head, and the one access to the floor it takes. -/
theorem pinnedState_ok {refsAt : S → RefMap} (hrefs : HeadRefs P storage key refsAt)
    {current : OpenedState} {chain : List OpenedState} {m m' : Machine S G}
    (h : pinnedState P storage key m = (.ok (current, chain), m')) :
    m'.floor = ⟨m.floor.content, m.floor.faults.tail⟩ ∧ m'.git = m.git
      ∧ FloorGuard.read.checkFormat m.floor.content = .ok m.floor.content
      ∧ PinnedAt (refsAt m.storage) m.floor.content current chain := by
  have hkeeps : Keeps (RefsKept refsAt) (currentChain P storage key) :=
    keeps_currentChain (R := RefsKept refsAt) (fun _ => rfl) (fun _ _ _ h h' => Eq.trans h' h)
      hrefs.openObject hrefs.readHead key
  obtain ⟨chain', m₁, hchain, h⟩ := Action.bind_eq_ok.mp h
  obtain ⟨current', m₂, hcurrent, h⟩ := Action.bind_eq_ok.mp h
  obtain ⟨hpair, rfl⟩ := Action.pure_eq_ok.mp h
  cases hpair
  obtain ⟨hhead, rfl⟩ := Action.lift_eq_ok.mp hcurrent
  obtain ⟨below, rfl⟩ := List.head?_eq_some_iff.mp (orBail_eq_ok.mp hhead)
  obtain ⟨floor, m₃, hfloor, hchain⟩ := Action.bind_eq_ok.mp hchain
  obtain ⟨hread, rfl⟩ := Action.zoom_eq hfloor
  obtain ⟨hfile, hformat⟩ := floorRead_file hread
  obtain rfl := floorRead_ok hread
  obtain ⟨first, m₄, honce, hchain⟩ := Action.bind_eq_ok.mp hchain
  obtain ⟨hfirst, rfl⟩ := Action.zoom_eq honce
  cases hvalid : validatePinnedHead first m.floor.content with
  | ok u =>
    rw [hvalid] at hchain
    obtain ⟨rfl, rfl⟩ := Action.pure_eq_ok.mp hchain
    exact ⟨hfile, rfl, hformat, ⟨below, rfl⟩, hrefs.read hfirst, hvalid⟩
  | error e =>
    -- a stale view: the chain was read again after a refresh, which shows the same refs
    rw [hvalid] at hchain
    obtain ⟨refreshed, m₅, hrefresh, hchain⟩ := Action.bind_eq_ok.mp hchain
    obtain ⟨hrefresh, rfl⟩ := Action.zoom_eq hrefresh
    split at hchain
    · cases hchain
    · obtain ⟨second, m₆, hagain, hchain⟩ := Action.bind_eq_ok.mp hchain
      obtain ⟨hsecond, rfl⟩ := Action.zoom_eq hagain
      obtain ⟨⟨⟩, m₇, hlift, hchain⟩ := Action.bind_eq_ok.mp hchain
      obtain ⟨hvalid', rfl⟩ := Action.lift_eq_ok.mp hlift
      obtain ⟨rfl, rfl⟩ := Action.pure_eq_ok.mp hchain
      have hsame : refsAt (storage.refresh (currentChain P storage key m.storage).2).2
          = refsAt m.storage := Eq.trans (hrefs.refresh _) (hkeeps m.storage)
      exact ⟨hfile, rfl, hformat, ⟨below, rfl⟩, (hrefs.read hsecond).trans hsame, hvalid'⟩

/-! ## The checkout -/

/-- The progress of a checkout is apart from the rest of it: the Git commands of a push leave
it `same`, and then it answers the same. Whether it can be written does not depend on what
is written. -/
structure CheckoutApart (repo : GitRepository G) (same : G → G → Prop) : Prop where
  refl : ∀ g, same g g
  trans : ∀ ⦃a b c⦄, same a b → same b c → same a c
  resolveRef : ∀ name, Keeps same (repo.resolveRef name)
  objectExists : ∀ object, Keeps same (repo.objectExists object)
  ensureBranchTarget : ∀ name object, Keeps same (repo.ensureBranchTarget name object)
  isAncestor : ∀ old next, Keeps same (repo.isAncestor old next)
  startIncrementalPack : ∀ new old, Keeps same (repo.startIncrementalPack new old)
  finishPack : Keeps same repo.finishPack
  openCheckout : ∀ {g g'}, same g g' → (repo.openCheckout g').1 = (repo.openCheckout g).1
    ∧ same (repo.openCheckout g).2 (repo.openCheckout g').2
  readProgress : ∀ {g g'}, same g g' → (repo.readProgress g').1 = (repo.readProgress g).1
    ∧ same (repo.readProgress g).2 (repo.readProgress g').2
  hasCompleteObjectGraph : ∀ {g g'}, same g g' →
    repo.hasCompleteObjectGraph g' = repo.hasCompleteObjectGraph g
  writeProgress : ∀ {g g'} progress progress', same g g' →
    (repo.writeProgress progress' g').1 = (repo.writeProgress progress g).1

/-- The progress can be opened and read, and it can be written if it has to be: if it was
verified up to the parent, and the checkout is complete. -/
def Records (repo : GitRepository G) (parentRefs : RefMap) (g : G) : Prop :=
  ∃ g₁ stored g₂ progress, repo.openCheckout g = (.ok (), g₁)
    ∧ repo.readProgress g₁ = (.ok stored, g₂) ∧ Checkout.checkFormat stored = .ok progress
    ∧ (progress.verifiedRefs = parentRefs → repo.hasCompleteObjectGraph g₂ = true →
      ∀ written, (repo.writeProgress written g₂).1 = .ok ())

section

variable {same : G → G → Prop} (h : CheckoutApart repo same)

include h

/-- **What a push records about the checkout it came from**: whether that goes through can be
seen at the checkout the push started in. -/
theorem CheckoutApart.recordPublication_ok_iff {g g' : G} (hsame : same g g')
    (parentRefs nextRefs : RefMap) :
    (recordPublication repo parentRefs nextRefs g').1 = .ok () ↔ Records repo parentRefs g := by
  obtain ⟨hopen, hopened⟩ := h.openCheckout hsame
  obtain ⟨hread, hkept⟩ := h.readProgress hopened
  have hcomplete := h.hasCompleteObjectGraph hkept
  constructor
  · intro hok
    have hrun : recordPublication repo parentRefs nextRefs g'
        = (.ok (), (recordPublication repo parentRefs nextRefs g').2) := Prod.ext hok rfl
    obtain ⟨⟨⟩, g₁, hopens, hrun⟩ := Action.bind_eq_ok.mp hrun
    obtain ⟨progress, g₂, hreads, hrun⟩ := Action.bind_eq_ok.mp hrun
    obtain ⟨stored, g₃, hstored, hlift⟩ := Action.bind_eq_ok.mp hreads
    obtain ⟨hformat, rfl⟩ := Action.lift_eq_ok.mp hlift
    obtain ⟨g₄, g₅, hget, hrun⟩ := Action.bind_eq_ok.mp hrun
    cases hget
    rw [hopens] at hopen hread hkept hcomplete
    rw [hstored] at hread hkept hcomplete
    refine ⟨(repo.openCheckout g).2, stored, (repo.readProgress (repo.openCheckout g).2).2,
      progress, Prod.ext hopen.symm rfl, Prod.ext hread.symm rfl, hformat,
      fun hverified hgraph written => ?_⟩
    rw [if_pos ⟨hverified, hcomplete.trans hgraph⟩] at hrun
    rw [← h.writeProgress written _ hkept]
    exact congrArg Prod.fst hrun
  · -- the checkout answers in `g'` as it would have in `g`
    rintro ⟨g₁, stored, g₂, progress, hopens, hreads, hformat, hwrites⟩
    rw [hopens] at hopen hread hkept hcomplete
    rw [hreads] at hread hkept hcomplete
    have hstored : repo.readProgress (repo.openCheckout g').2
        = (.ok stored, (repo.readProgress (repo.openCheckout g').2).2) := Prod.ext hread rfl
    have hprogress : Checkout.read repo (repo.openCheckout g').2 = (.ok progress, _) :=
      Action.bind_eq_ok.mpr ⟨stored, _, hstored, Action.lift_eq_ok.mpr ⟨hformat, rfl⟩⟩
    have hopens' : repo.openCheckout g' = (.ok (), (repo.openCheckout g').2) := Prod.ext hopen rfl
    rw [recordPublication, Action.bind_of_ok hopens', Action.bind_of_ok hprogress,
      Action.bind_of_ok (x := Action.get) rfl]
    split
    · rename_i hneeded
      rw [Checkout.write, h.writeProgress progress _ hkept]
      exact hwrites hneeded.1 (hcomplete.symm.trans hneeded.2) progress
    · rfl

end

/-! ## Up to the swap -/

/-- The machine at the swap: two accesses to the floor later, and with the same progress. -/
structure Reached (same : G → G → Prop) (m m' : Machine S G) : Prop where
  floor : m'.floor = ⟨m.floor.content, m.floor.faults.tail.tail⟩
  git : same m.git m'.git

section

variable {same : G → G → Prop} (h : CheckoutApart repo same)

include h

theorem CheckoutApart.checkUpdate (kind : InnerRefKind) (destination : Text) (old : Option Text)
    (next : Text) (force : Bool) :
    Keeps same (checkUpdate repo kind destination old next force) := by
  cases kind with
  | tag =>
    unfold GitE2EE.checkUpdate
    dsimp only
    split
    · exact .fail h.refl
    · exact .pure h.refl
  | branch =>
    refine (h.ensureBranchTarget _ _).bind h.trans fun _ => ?_
    cases old with
    | none => exact .pure h.refl
    | some old =>
      refine (h.objectExists old).bind h.trans fun present => ?_
      split
      · exact .fail h.refl
      split
      · exact .pure h.refl
      refine (h.isAncestor old next).bind h.trans fun ancestor => ?_
      split
      · exact .fail h.refl
      · exact .pure h.refl

theorem CheckoutApart.preflightRefChange (parentRefs : RefMap) (push : RefPush) :
    Keeps same (preflightRefChange repo parentRefs push) := by
  refine (Keeps.lift h.refl).bind h.trans fun kind => ?_
  cases push.change with
  | delete => exact .lift h.refl
  | update source force =>
    refine (h.resolveRef source).bind h.trans fun next => ?_
    split
    · exact .pure h.refl
    · exact (h.checkUpdate _ _ _ _ _).bind h.trans fun _ => .pure h.refl

theorem CheckoutApart.pushChanges (parentRefs : RefMap) (pushes : List RefPush)
    (state : PushState) : Keeps same (pushChanges repo parentRefs state pushes) := by
  induction pushes generalizing state with
  | nil => exact .pure h.refl
  | cons push rest ih =>
    refine Keeps.bind h.trans (Keeps.bind h.trans (Keeps.attempt ?_) fun _ => .pure h.refl)
      fun _ => ih _
    split
    · exact .fail h.refl
    · exact h.preflightRefChange parentRefs push

theorem CheckoutApart.knownRefs (entries : List (Text × Text)) (known : RefMap) :
    Keeps same (knownRefs repo entries known) := by
  induction entries generalizing known with
  | nil => exact .pure h.refl
  | cons entry rest ih => exact (h.objectExists _).bind h.trans fun _ => ih _

end

/-- The floor is as it was, and the progress of the checkout too. -/
def Undisturbed (same : G → G → Prop) (m m' : Machine S G) : Prop :=
  m'.floor = m.floor ∧ same m.git m'.git

section

variable {same : G → G → Prop} (h : CheckoutApart repo same)

include h

theorem CheckoutApart.undisturbed_refl (m : Machine S G) : Undisturbed same m m :=
  ⟨rfl, h.refl m.git⟩

theorem CheckoutApart.undisturbed_trans ⦃a b c : Machine S G⦄ (hab : Undisturbed same a b)
    (hbc : Undisturbed same b c) : Undisturbed same a c :=
  ⟨hbc.1.trans hab.1, h.trans hab.2 hbc.2⟩

omit h in
theorem undisturbed_onGit {α : Type} {x : Action Error G α} (hx : Keeps same x) :
    Keeps (Undisturbed same) (onGit x : Action Error (Machine S G) α) := fun m => ⟨rfl, hx m.git⟩

theorem CheckoutApart.onStorage {α : Type} (x : Action Error S α) :
    Keeps (Undisturbed same) (onStorage x : Action Error (Machine S G) α) :=
  fun m => ⟨rfl, h.refl m.git⟩

theorem CheckoutApart.storePacks (draws : Draws) (current : OpenedState) (generation : Nat)
    (packRefs : RefMap) :
    Keeps (Undisturbed same) (storePacks P storage repo draws current generation packRefs) := by
  have hlift : ∀ {α : Type} (r : Result α),
      Keeps (Undisturbed same) (Action.lift r : Action Error (Machine S G) α) :=
    fun _ => .lift h.undisturbed_refl
  unfold GitE2EE.storePacks
  split
  · exact .pure h.undisturbed_refl
  refine Keeps.bind h.undisturbed_trans ?_ fun _ => .pure h.undisturbed_refl
  refine (undisturbed_onGit (h.knownRefs _ _)).bind h.undisturbed_trans fun _ => ?_
  refine (hlift _).bind h.undisturbed_trans fun _ => ?_
  refine (undisturbed_onGit (h.startIncrementalPack _ _)).bind h.undisturbed_trans fun _ => ?_
  refine (h.onStorage _).bind h.undisturbed_trans fun _ => ?_
  refine (hlift _).bind h.undisturbed_trans fun _ => ?_
  refine (undisturbed_onGit h.finishPack).bind h.undisturbed_trans fun _ => ?_
  exact (h.onStorage _).bind h.undisturbed_trans fun _ => .pure h.undisturbed_refl

theorem CheckoutApart.commitRefs (draws : Draws) (current : OpenedState)
    (nextRefs packRefs : RefMap) : Keeps (Undisturbed same)
      (commitRefs P storage repo key draws current nextRefs packRefs) := by
  refine (Keeps.lift h.undisturbed_refl).bind h.undisturbed_trans fun _ => ?_
  refine (h.storePacks _ _ _ _).bind h.undisturbed_trans fun _ => ?_
  refine (Keeps.lift h.undisturbed_refl).bind h.undisturbed_trans fun _ => ?_
  exact (h.onStorage _).bind h.undisturbed_trans fun _ => .pure h.undisturbed_refl

/-- **The machine behind preflight.** -/
theorem CheckoutApart.preflight_ok {refsAt : S → RefMap} (hrefs : HeadRefs P storage key refsAt)
    {pushes : List RefPush} {checked : Preflight} {m m₁ : Machine S G}
    (hrun : preflight P storage repo key pushes m = (.ok checked, m₁)) :
    Reached same m m₁ ∧ FloorGuard.read.checkFormat m.floor.content = .ok m.floor.content
      ∧ PinnedAt (refsAt m.storage) m.floor.content checked.current checked.chain := by
  obtain ⟨⟨⟩, m₂, hlock, hrun⟩ := Action.bind_eq_ok.mp hrun
  obtain ⟨⟨current, chain⟩, m₃, hpinned, hrun⟩ := Action.bind_eq_ok.mp hrun
  obtain ⟨⟨⟩, m₄, hwriter, hrun⟩ := Action.bind_eq_ok.mp hrun
  obtain ⟨⟨⟩, m₅, hvalid, hrun⟩ := Action.bind_eq_ok.mp hrun
  obtain ⟨batch, m₆, hbatch, hrun⟩ := Action.bind_eq_ok.mp hrun
  obtain ⟨rfl, rfl⟩ := Action.pure_eq_ok.mp hrun
  obtain ⟨-, rfl⟩ := Action.lift_eq_ok.mp hwriter
  obtain ⟨-, rfl⟩ := Action.lift_eq_ok.mp hvalid
  unfold lockFloor at hlock
  obtain ⟨hacquire, rfl⟩ := Action.zoom_eq hlock
  have hlocked : (FloorGuard.acquire m.floor).2 = ⟨m.floor.content, m.floor.faults.tail⟩ :=
    access_id_ok hacquire
  obtain ⟨hfloor, hgit, hformat, hat⟩ := pinnedState_ok hrefs hpinned
  rw [hlocked] at hfloor hformat hat
  obtain ⟨-, rfl⟩ := Action.zoom_eq hbatch
  have hkept := h.pushChanges current.manifest.refs pushes ⟨[], current.manifest.refs, .empty, []⟩
    m₃.git
  rw [hgit] at hkept
  exact ⟨⟨hfloor, hgit ▸ hkept⟩, hformat, hat⟩

end

/-- A commit puts a successor on top of the head. -/
theorem commitRefs_conforms {draws : Draws} {current : OpenedState} {nextRefs packRefs : RefMap}
    {published : Text × Manifest} {m m' : Machine S G}
    (h : commitRefs P storage repo key draws current nextRefs packRefs m = (.ok published, m')) :
    SuccessorManifest P published.2 current.id current.manifest := by
  have hrun := commitRefs_run P storage repo key draws current nextRefs packRefs m
  rw [h] at hrun
  cases hrun with
  | committed hprepares hmanifest =>
    cases hmanifest with
    | committed hsealed => exact manifestSuccessor_ok (sealNext_eq_ok.mp hsealed).1

/-- A floor moves to a later generation of its repository. -/
theorem advances_of_lt {previous next : ContinuityFloor}
    (hroot : previous.repositoryRoot = next.repositoryRoot)
    (hlt : previous.generation < next.generation)
    (hpolicy : previous.policyGeneration ≤ next.policyGeneration) :
    FloorGuard.advances previous next = .ok true := by
  have hne : previous ≠ next := fun heq => by
    rw [heq] at hlt
    exact absurd hlt (lt_irrefl _)
  simp only [FloorGuard.advances, except_bind_eq_ok, bailIf_eq_ok]
  refine ⟨(), fun hother => hother hroot, ?_⟩
  rw [if_neg (by omega)]
  simp only [except_bind_eq_ok, bailIf_eq_ok]
  exact ⟨(), fun hfork => by omega, (), by omega, by simpa [pure, Except.pure] using hne⟩

/-- It moves to every successor of a head that it accepts. -/
theorem PinnedAt.advances {refs : RefMap} {content : Option ContinuityFloor}
    {current : OpenedState} {chain : List OpenedState} (h : PinnedAt refs content current chain)
    {id : Text} {manifest : Manifest} (hnext : SuccessorManifest P manifest current.id
      current.manifest) : ∀ floor, content = some floor →
    FloorGuard.advances floor (ContinuityFloor.at id manifest) = .ok true := by
  rintro floor rfl
  obtain ⟨below, rfl⟩ := h.newest
  have hvalid := h.valid
  simp only [validatePinnedHead, checkFloor, except_bind_eq_ok, orBail_eq_ok, bailIf_eq_ok]
    at hvalid
  obtain ⟨current', hcurrent, ⟨⟩, hroot, ⟨⟩, hpolicy, ⟨⟩, hgeneration, -⟩ := hvalid
  cases hcurrent
  push Not at hroot hpolicy hgeneration
  refine advances_of_lt (hroot.trans hnext.root.symm) ?_ (hpolicy.trans hnext.policyGeneration)
  show floor.generation < manifest.generation
  rw [hnext.generation]
  omega

/-! ## The books -/

/-- **The books of a push can be kept**, judged by the machine the push starts on: the third
and fourth access to the floor do not fail, and the checkout can record. -/
structure BooksKept (repo : GitRepository G) (parentRefs : RefMap) (m : Machine S G) : Prop where
  floorRead : m.floor.fate 2 = .none
  floorWritten : m.floor.fate 3 = .none
  records : Records repo parentRefs m.git

section

variable {same : G → G → Prop} (h : CheckoutApart repo same)

include h

theorem CheckoutApart.keepBooks_ok_iff {m m₂ : Machine S G} (hreached : Reached same m m₂)
    (hformat : FloorGuard.read.checkFormat m.floor.content = .ok m.floor.content)
    {parentRefs nextRefs : RefMap} {current : OpenedState} {chain : List OpenedState}
    (hat : PinnedAt parentRefs m.floor.content current chain) {published : Text × Manifest}
    (hnext : SuccessorManifest P published.2 current.id current.manifest) :
    (keepBooks repo current.manifest.refs nextRefs published m₂).1 = .ok ()
      ↔ BooksKept repo parentRefs m := by
  have hfloor : (advanceFloor published.1 published.2 m₂).1 = .ok ()
      ↔ m.floor.fate 2 = .none ∧ m.floor.fate 3 = .none := by
    have hadvance : (FloorGuard.advance (ContinuityFloor.at published.1 published.2) m₂.floor).1
        = .ok () ↔ m₂.floor.fate 0 = .none ∧ m₂.floor.fate 1 = .none :=
      floorAdvance_ok_iff (by rw [hreached.floor]; exact hformat)
        (by rw [hreached.floor]; exact hat.advances hnext)
    -- the lock and the pinned read have used the first two outcomes
    have hfate : ∀ n, m₂.floor.fate n = m.floor.fate (n + 2) := by
      intro n
      rw [hreached.floor, FloorFile.fate_tail]
      exact FloorFile.fate_tail m.floor.content _ (n + 1)
    rw [hfate, hfate] at hadvance
    exact hadvance
  have hrecord := h.recordPublication_ok_iff hreached.git parentRefs nextRefs
  rw [keepBooks, hat.refs]
  rcases Action.bind_cases (advanceFloor published.1 published.2)
      (fun _ => onGit (recordPublication repo parentRefs nextRefs)) m₂
    with ⟨⟨⟩, m₃, hrun, heq⟩ | ⟨e, m₃, hrun, heq⟩
  · rw [hrun] at hfloor
    have hgit : m₃.git = m₂.git := by
      unfold advanceFloor at hrun
      obtain ⟨-, rfl⟩ := Action.zoom_eq hrun
      rfl
    have hlast : (onGit (recordPublication repo parentRefs nextRefs) m₃).1
        = (recordPublication repo parentRefs nextRefs m₂.git).1 := by
      rw [← hgit]
      rfl
    rw [heq, hlast, hrecord]
    exact ⟨fun hrecords => ⟨(hfloor.mp rfl).1, (hfloor.mp rfl).2, hrecords⟩, fun hkept =>
      hkept.records⟩
  · rw [hrun] at hfloor
    rw [heq]
    exact iff_of_false (fun hok => by cases hok) fun hkept =>
      absurd (hfloor.mpr ⟨hkept.floorRead, hkept.floorWritten⟩) (fun hok => by cases hok)

end

/-- **When a push is all or nothing.** If the books of the push can be kept it is, and of the
pushes that move HEAD only those are. -/
theorem push_allOrNothing {same : G → G → Prop} {refsAt : S → RefMap}
    (hreg : HeadRegister storage head) (hrefs : HeadRefs P storage key refsAt)
    (happart : CheckoutApart repo same) (pushes : List RefPush) (mode : PushMode) (draws : Draws)
    (m : Machine S G) :
    (BooksKept repo (refsAt m.storage) m →
      AllOrNothing head repo pushes mode m (push P storage repo key pushes mode draws m).1
        (push P storage repo key pushes mode draws m).2)
    ∧ (¬ SameHead head m (push P storage repo key pushes mode draws m).2 →
      AllOrNothing head repo pushes mode m (push P storage repo key pushes mode draws m).1
        (push P storage repo key pushes mode draws m).2 →
      BooksKept repo (refsAt m.storage) m) := by
  -- what keeping the books comes to, for whatever the push has published
  have hbooks : ∀ {checked m₁ published m₂}, preflight P storage repo key pushes m
        = (.ok checked, m₁) →
      commitRefs P storage repo key draws checked.current checked.batch.nextRefs
        checked.batch.packRefs m₁ = (.ok published, m₂) →
      ((keepBooks repo checked.current.manifest.refs checked.batch.nextRefs published m₂).1
        = .ok () ↔ BooksKept repo (refsAt m.storage) m) := by
    intro checked m₁ published m₂ hchecked hcommit
    obtain ⟨hreached, hformat, hat⟩ := happart.preflight_ok hrefs hchecked
    have hundisturbed : Undisturbed same m₁ (commitRefs P storage repo key draws checked.current
        checked.batch.nextRefs checked.batch.packRefs m₁).2 := happart.commitRefs _ _ _ _ m₁
    rw [hcommit] at hundisturbed
    refine happart.keepBooks_ok_iff ⟨hundisturbed.1.trans hreached.floor, ?_⟩ hformat hat
      (commitRefs_conforms hcommit)
    exact happart.trans hreached.git hundisturbed.2
  constructor
  · intro hkept
    refine push_run.allOrNothing hreg fun hchecked hcommit hfailed => ?_
    have hok := (hbooks hchecked hcommit).mpr hkept
    rw [hfailed] at hok
    cases hok
  · intro hmoved hall
    rcases push_run.moved hreg hmoved with ⟨checked, m₁, published, m₂, hchecked, hcommit, hkept⟩
      | ⟨accepted, e, hresult, hfailed⟩
    · exact (hbooks hchecked hcommit).mp (congrArg Prod.fst hkept)
    · exact absurd (hall.unpublished accepted e hresult hfailed).1 hmoved

/-! ## A directory and a local repository -/

/-- The refs of the manifest at a directory's HEAD, if there is one that can be read. -/
def Directory.headRefs (P : Primitives) (location : String) (key : KeyFile) (d : Directory) :
    RefMap :=
  ((currentChain P (Directory.storage P location) key d).1.toOption.bind List.head?).elim .empty
    fun current => current.manifest.refs

theorem Directory.headRefs_read {location : String} :
    HeadRefs P (Directory.storage P location) key (Directory.headRefs P location key) where
  openObject _ _ := rfl
  readHead _ := rfl
  refresh _ := rfl
  read h := by rw [Directory.headRefs, h]; rfl

/-- The Git commands of a push change nothing in a local repository. -/
theorem localGit_apart (git : GitTool) : CheckoutApart (localGit git) (fun g g' => g' = g) where
  refl _ := rfl
  trans _ _ _ hab hbc := hbc.trans hab
  resolveRef _ _ := rfl
  objectExists _ _ := rfl
  ensureBranchTarget _ _ _ := rfl
  isAncestor _ _ _ := rfl
  startIncrementalPack new old g := by
    show (LocalRepository.startIncrementalPack git new old g).2 = g
    have hlooks : Looks (LocalRepository.startIncrementalPack git new old) := by
      refine Looks.get.bind fun repository => .ite .fail ?_
      split
      · exact .pure
      · exact .fail
    exact hlooks g
  finishPack _ := rfl
  openCheckout := by
    rintro g _ rfl
    exact ⟨rfl, rfl⟩
  readProgress := by
    rintro g _ rfl
    exact ⟨rfl, rfl⟩
  hasCompleteObjectGraph := by
    rintro g _ rfl
    rfl
  writeProgress := by
    rintro g _ progress progress' rfl
    rfl

namespace Reference

/-- A repository without objects, in which no push has been made yet. -/
def emptyRepository : LocalRepository where
  objects := ∅
  shallow := []
  promisor := false
  names name := .error (.msg s!"unknown revision {render name}")
  progress := none
  importing := []

/-- A machine at a directory, whose floor fails as `faults` say. -/
def machineAt (d : Directory) (faults : List Fault) (git : G) : Machine Directory G :=
  ⟨d, ⟨none, faults⟩, git⟩

/-- The push that deletes the tag. -/
def deleteTag (repo : GitRepository G) (m : Machine Directory G) :
    Result (Accepted PushOutcome) × Machine Directory G :=
  push primitives (Directory.storage primitives "shelf") repo ownerKey deletion .publish (draws 2) m

/-- The books of a push on a machine whose floor does not fail. -/
theorem booksKept_emptyRepository (parentRefs : RefMap) (d : Directory) :
    BooksKept (localGit idealGit) parentRefs (machineAt d [.none, .none] emptyRepository) where
  floorRead := rfl
  floorWritten := rfl
  records := ⟨emptyRepository, none, emptyRepository, .default, rfl, rfl, rfl, fun _ _ _ => rfl⟩

/-- The deletion gets past the swap, and reports how the books went. -/
theorem Stocked.deleteTag {objects : List Bytes} {p : OpenedState} {chain : List OpenedState}
    (h : Stocked objects p chain) : ∃ published : Text × Manifest, ∃ d, published.1 ≠ p.id
    ∧ ∀ {G : Type} (repo : GitRepository G) (git : G) faults, ∃ accepted,
      deleteTag repo (machineAt (shelf objects p.id) (.none :: .none :: faults) git)
        = (.ok accepted,
        (keepBooks repo tagged .empty published (machineAt d faults git)).2)
      ∧ accepted.value.publication = (keepBooks repo tagged .empty published
        (machineAt d faults git)).1.map (fun _ => published.1)
      ∧ Directory.standing "shelf" (keepBooks repo tagged .empty published
        (machineAt d faults git)).2.storage = some published.1 := by
  obtain ⟨id, manifest, d, hne, hcommit⟩ := h.commits
  refine ⟨(id, manifest), d, hne, fun repo git faults => ?_⟩
  have hbooks : keepBooks repo p.manifest.refs .empty (id, manifest) ⟨d, ⟨none, faults⟩, git⟩
      = keepBooks repo tagged .empty (id, manifest) (machineAt d faults git) := by
    rw [h.refs]
    rfl
  exact push_swapped Directory.headRegister (h.preflight repo git faults) h.changes
    (hcommit repo git ⟨none, faults⟩) hbooks

end Reference

/-- Where nothing fails, the deletion moves HEAD and is all or nothing. -/
theorem push_allOrNothing_deletion : ∃ d id, ∃ m : Machine Directory LocalRepository,
    m = Reference.machineAt d [.none, .none] Reference.emptyRepository
    ∧ Directory.standing "shelf" d = some id
    ∧ BooksKept (localGit idealGit) (Directory.headRefs Reference.primitives "shelf"
      Reference.ownerKey d) m
    ∧ AllOrNothing (Directory.standing "shelf") (localGit idealGit) Reference.deletion .publish m
      (Reference.deleteTag (localGit idealGit) m).1 (Reference.deleteTag (localGit idealGit) m).2
    ∧ Directory.standing "shelf" (Reference.deleteTag (localGit idealGit) m).2.storage
      ≠ some id := by
  obtain ⟨objects, p, chain, h⟩ := Reference.stocked_exists
  obtain ⟨published, d, hne, hrun⟩ := h.deleteTag
  obtain ⟨accepted, hpush, -, hhead⟩ := hrun (localGit idealGit) Reference.emptyRepository []
  have hkept := Reference.booksKept_emptyRepository (Directory.headRefs Reference.primitives
    "shelf" Reference.ownerKey (Reference.shelf objects p.id)) (Reference.shelf objects p.id)
  refine ⟨Reference.shelf objects p.id, p.id, _, rfl, h.sample.standing, hkept,
    (push_allOrNothing Directory.headRegister Directory.headRefs_read (localGit_apart idealGit)
      Reference.deletion .publish (Reference.draws 2) _).1 hkept, ?_⟩
  rw [hpush, hhead]
  exact fun hsame => hne (Option.some.inj hsame)

/-- A floor that cannot be read behind the swap: the push reports that its publication
failed, and HEAD has moved. -/
theorem push_reports_failure_and_publishes : ∃ d id,
    ∃ m : Machine Directory (Option CheckoutProgress),
    m = Reference.machineAt d [.none, .none, .before (.msg "read continuity.json")] none
    ∧ Directory.standing "shelf" d = some id
    ∧ ¬ AllOrNothing (Directory.standing "shelf") Reference.checkout Reference.deletion .publish m
      (Reference.deleteTag Reference.checkout m).1
      (Reference.deleteTag Reference.checkout m).2 := by
  obtain ⟨objects, p, chain, h⟩ := Reference.stocked_exists
  obtain ⟨published, d, hne, hrun⟩ := h.deleteTag
  obtain ⟨accepted, hpush, hpublication, hhead⟩ :=
    hrun Reference.checkout none [.before (.msg "read continuity.json")]
  refine ⟨Reference.shelf objects p.id, p.id, _, rfl, h.sample.standing, fun hall => ?_⟩
  rw [hpush] at hall
  have hkept := (hall.unpublished _ _ rfl hpublication).1
  have hsame : some p.id = some published.1 :=
    h.sample.standing.symm.trans (Eq.trans (Eq.symm hkept) hhead)
  exact hne (Option.some.inj hsame).symm

end GitE2EE

import GitE2EE.Lib.Spec
import GitE2EE.Model.Init
import GitE2EE.Proof.Carrier
import GitE2EE.Proof.FileCalls

/-!
# When a backend has set the head

Whether a client has set the head is read off the record of what it did: its renames onto
HEAD, and its pushes that landed. Other processes may do anything, as long as they do not
act in this one's name.

`initialize` reports an error from before publication only if its client has not set the
head (`initializeRepository_before`). That rests on what the backends do (`Discreet`):
nothing but the swap sets the head, and only a carrier ever says that storage is occupied,
which it does before it pushes.
-/

namespace GitE2EE

open Wire Effect

/-! ## Who set the head -/

section

variable {ι : Type} [DecidableEq ι] {i : ι}

/-- How often client `i` has put a file in the place of HEAD. -/
def Host.headsSetBy (i : ι) (m : Host ι) : Nat := m.renames.count (i, FilesystemStorage.HEAD)

/-- The event is a push of client `i`. -/
def CarrierEvent.isPushOf (i : ι) : CarrierEvent ι → Bool
  | .pushed client _ _ => client = i
  | _ => false

/-- How often a push of client `i` has landed. -/
def Carrier.headsSetBy (i : ι) (w : Carrier ι) : Nat :=
  w.log.countP (CarrierEvent.isPushOf i)

/-- Client `i` has not set the head in between. -/
def Host.SameHeads (i : ι) (m m' : Host ι) : Prop := m'.headsSetBy i = m.headsSetBy i

def Carrier.SameHeads (i : ι) (w w' : Carrier ι) : Prop := w'.headsSetBy i = w.headsSetBy i

/-- Only a rename puts a file in the place of HEAD. -/
theorem Host.perform_quiet {call : FileCall} {outcome : Outcome} {reply : call.Reply}
    {m m' : Host ι} (hcall : Host.Quiet call) (h : m.perform i outcome call = some (reply, m')) :
    m'.renames = m.renames := by
  have hfiles : ∀ {α : Type}
      {f : Files.FileSystem Text → Except Files.Fault α × Files.FileSystem Text}
      {reply : Except Files.Fault α}, m.onFiles outcome f = some (reply, m') →
        m'.renames = m.renames := by
    intro α f reply h
    rcases Host.onFiles_cases h with ⟨-, rfl⟩ | ⟨-, -, h⟩
    · rfl
    · exact h
  have hrelease : (m.release i).renames = m.renames := by
    unfold Host.release
    split <;> rfl
  -- most calls are effects on the files alone; the lock is kept beside them
  cases call with
  | rename _ _ _ => exact hcall.elim
  | «exists» path => rw [(Host.ask_cases h).1]
  | isDir path => rw [(Host.ask_cases h).1]
  | createDir parent name =>
    simp only [Host.perform] at h
    exact hfiles h
  | removeDir parent name =>
    simp only [Host.perform] at h
    exact hfiles h
  | createNew parent name =>
    simp only [Host.perform] at h
    exact hfiles h
  | writeAll file data =>
    cases outcome with
    | succeeds =>
      cases h
      rfl
    | fails fault written =>
      cases h
      rfl
  | syncAll file =>
    simp only [Host.perform] at h
    exact hfiles h
  | hardLink directory source parent name =>
    simp only [Host.perform] at h
    exact hfiles h
  | removeFile parent name =>
    simp only [Host.perform] at h
    exact hfiles h
  | readFile path =>
    simp only [Host.perform] at h
    exact hfiles h
  | syncDirectory path =>
    simp only [Host.perform] at h
    exact hfiles h
  | openLock root name =>
    simp only [Host.perform] at h
    exact hfiles h
  | lockExclusive =>
    cases outcome with
    | fails fault written =>
      cases h
      rfl
    | succeeds =>
      simp only [Host.perform] at h
      split at h
      · cases h
        rfl
      · cases h
  | unlock =>
    cases outcome with
    | fails fault written =>
      cases h
      rfl
    | succeeds =>
      cases h
      exact hrelease
  | closeLock =>
    cases h
    exact hrelease

/-- A silent command pushes nothing. -/
theorem Carrier.perform_sameHeads {call : CarrierCall} {outcome : CarrierOutcome}
    {reply : call.Reply} {w w' : Carrier ι} (hcall : Carrier.Silent call)
    (h : w.perform i outcome call = some (reply, w')) : Carrier.SameHeads i w w' := by
  obtain ⟨-, hlog | hlog⟩ := Carrier.perform_silent hcall h
  · rw [Carrier.SameHeads, Carrier.headsSetBy, hlog, Carrier.headsSetBy]
  · rw [Carrier.SameHeads, Carrier.headsSetBy, hlog, List.countP_append, Carrier.headsSetBy]
    rfl

end

/-! ## Storage that says when it is occupied -/

section

variable {S G : Type} {storage : Storage S} {same : S → S → Prop}

/-- Storage whose head this client sets by a swap only, and not by one that is refused as
occupied. -/
structure Discreet (storage : Storage S) (same : S → S → Prop) : Prop where
  refl : ∀ s, same s s
  trans : ∀ ⦃a b c⦄, same a b → same b c → same a c
  beginObject : ∀ kind, Keeps same (storage.beginObject kind)
  finishObject : ∀ kind content id, Keeps same (storage.finishObject kind content id)
  readHead : Keeps same storage.readHead
  refused : ∀ expected next s e s', storage.compareAndSwapHead expected next s = (.error e, s') →
    e.isStorageOccupied = true → same s s'

/-- The storage of the machine, seen through `same`. -/
def SameStorage (same : S → S → Prop) (m m' : Machine S G) : Prop := same m.storage m'.storage

variable (P : Primitives) (key : KeyFile)

/-- Everything up to the swap leaves the head to others. -/
theorem keeps_prepareGenesis (h : Discreet storage same) (ownerLabel : Text) (draws : Draws) :
    Keeps (SameStorage same)
      (prepareGenesis P storage key ownerLabel draws : Action Error (Machine S G) _) := by
  have hrefl : ∀ m : Machine S G, SameStorage same m m := fun m => h.refl m.storage
  have htrans : ∀ ⦃a b c : Machine S G⦄, SameStorage same a b → SameStorage same b c →
      SameStorage same a c := fun a b c => @h.trans a.storage b.storage c.storage
  have hfloor : ∀ {α : Type} (x : Action Error FloorFile α),
      Keeps (SameStorage same) (onFloor x : Action Error (Machine S G) α) := fun _ m => h.refl _
  have hstorage : ∀ {α : Type} {x : Action Error S α}, Keeps same x →
      Keeps (SameStorage same) (onStorage x : Action Error (Machine S G) α) :=
    fun hx m => hx m.storage
  have hstore : ∀ coins previous prepared, Keeps same
      (sealAndStoreManifest P storage key coins previous prepared) := by
    intro coins previous prepared
    refine .bind h.trans (.lift h.refl) fun sealed => .bind h.trans ?_ fun _ =>
      .bind h.trans (.lift h.refl) fun _ => .pure h.refl
    exact .bind h.trans (h.beginObject _) fun _ => h.finishObject _ _ _
  refine .bind htrans (hfloor _) fun _ => .bind htrans (hstorage h.readHead) fun _ =>
    .bind htrans (.lift hrefl) fun _ => .bind htrans (hfloor _) fun _ =>
    .bind htrans (.lift hrefl) fun _ => .bind htrans (.lift hrefl) fun prepared =>
    .bind htrans (hstorage (hstore _ _ _)) fun _ => .pure hrefl

/-- How the swap of the genesis head ended, if the call came to it. -/
def genesisSwap (storage : Storage S) (ownerLabel : Text) (draws : Draws) (m : Machine S G) :
    Option (Result Unit) :=
  match prepareGenesis P storage key ownerLabel draws m with
  | (.ok (_, id), m') => some (storage.compareAndSwapHead none id m'.storage).1
  | (.error _, _) => none

section

variable {P key} {ownerLabel : Text} {draws : Draws} {m m₁ : Machine S G} {prepared : Prepared}
  {id : Text}

/-- A genesis that can be sealed is stored, where storage has no head and takes the object. -/
theorem prepareGenesis_stored {s s₁ s₂ : S} {git : G} {encrypted : Bytes}
    (hhead : storage.readHead s = (.ok none, s₁))
    (hprepared : genesisManifest P key ownerLabel draws = .ok prepared)
    (hsealed : sealNext P key draws.coins none prepared = .ok (id, encrypted))
    (hput : storage.putObjectIfAbsent .manifest id encrypted s₁ = (.ok (), s₂))
    (hcheck : selfCheck P none prepared encrypted = .ok ()) :
    prepareGenesis P storage key ownerLabel draws (⟨s, ⟨none, []⟩, git⟩ : Machine S G)
      = (.ok (prepared, id), ⟨s₂, ⟨none, []⟩, git⟩) := by
  have hstored : sealAndStoreManifest P storage key draws.coins none prepared s₁ = (.ok id, s₂) :=
    Action.bind_eq_ok.mpr ⟨(id, encrypted), s₁, Action.lift_eq_ok.mpr ⟨hsealed, rfl⟩,
      Action.bind_eq_ok.mpr ⟨(), s₂, hput,
        Action.bind_eq_ok.mpr ⟨(), s₂, Action.lift_eq_ok.mpr ⟨hcheck, rfl⟩, rfl⟩⟩⟩
  refine Action.bind_eq_ok.mpr ⟨(), ⟨s, ⟨none, []⟩, git⟩, rfl, ?_⟩
  refine Action.bind_eq_ok.mpr ⟨none, ⟨s₁, ⟨none, []⟩, git⟩,
    by simp only [onStorage, Action.zoom, hhead], ?_⟩
  refine Action.bind_eq_ok.mpr ⟨(), _, rfl,
    Action.bind_eq_ok.mpr ⟨none, ⟨s₁, ⟨none, []⟩, git⟩, rfl, ?_⟩⟩
  refine Action.bind_eq_ok.mpr ⟨(), _, rfl, ?_⟩
  refine Action.bind_eq_ok.mpr ⟨prepared, _, Action.lift_eq_ok.mpr ⟨hprepared, rfl⟩, ?_⟩
  refine Action.bind_eq_ok.mpr ⟨id, ⟨s₂, ⟨none, []⟩, git⟩, ?_, rfl⟩
  simp only [onStorage, Action.zoom, hstored]

theorem genesisSwap_of_prepared
    (h : prepareGenesis P storage key ownerLabel draws m = (.ok (prepared, id), m₁)) :
    genesisSwap P key storage ownerLabel draws m
      = some (storage.compareAndSwapHead none id m₁.storage).1 := by
  rw [genesisSwap, h]

/-- A call that stores no manifest fails before publication. -/
theorem initializeRepository_unprepared {e : Error}
    (h : prepareGenesis P storage key ownerLabel draws m = (.error e, m₁)) :
    initializeRepository P storage key ownerLabel draws m
      = (.error (.beforePublication e), m₁) := by
  have hfirst : Action.mapError InitializeError.beforePublication
      (prepareGenesis P storage key ownerLabel draws) m = (.error (.beforePublication e), m₁) := by
    simp only [Action.mapError, h, Except.mapError]
  rw [initializeRepository, Action.bind_of_error hfirst]

/-- What is left of `initialize` once a genesis manifest is stored. -/
theorem initializeRepository_prepared
    (h : prepareGenesis P storage key ownerLabel draws m = (.ok (prepared, id), m₁)) :
    initializeRepository P storage key ownerLabel draws m
      = (Action.mapError swapFailure (onStorage (storage.compareAndSwapHead none id)) >>= fun _ =>
          Action.mapError (.afterPublication id) (advanceFloor id prepared.manifest) >>= fun _ =>
          pure ⟨id, [(id, prepared.manifest)]⟩) m₁ := by
  have hfirst : Action.mapError InitializeError.beforePublication
      (prepareGenesis P storage key ownerLabel draws) m = (.ok (prepared, id), m₁) := by
    simp only [Action.mapError, h, Except.mapError]
  rw [initializeRepository, Action.bind_of_ok hfirst]

/-- A swap that fails is told as occupied or as uncertain. -/
theorem initializeRepository_refused {e : Error} {s : S}
    (h : prepareGenesis P storage key ownerLabel draws m = (.ok (prepared, id), m₁))
    (hswap : storage.compareAndSwapHead none id m₁.storage = (.error e, s)) :
    initializeRepository P storage key ownerLabel draws m
      = (.error (swapFailure e), { m₁ with storage := s }) := by
  have hon : Action.mapError swapFailure
      (onStorage (storage.compareAndSwapHead none id) : Action Error (Machine S G) Unit) m₁
        = (.error (swapFailure e), { m₁ with storage := s }) := by
    simp only [Action.mapError, onStorage, Action.zoom, hswap, Except.mapError]
  rw [initializeRepository_prepared h, Action.bind_of_error hon]

/-- Once the swap has worked, an error can only come after publication. -/
theorem initializeRepository_swapped {e : InitializeError} {s : S} {m' : Machine S G}
    (h : prepareGenesis P storage key ownerLabel draws m = (.ok (prepared, id), m₁))
    (hswap : storage.compareAndSwapHead none id m₁.storage = (.ok (), s))
    (hrun : initializeRepository P storage key ownerLabel draws m = (.error e, m')) :
    ∃ error, e = .afterPublication id error := by
  have hon : Action.mapError swapFailure
      (onStorage (storage.compareAndSwapHead none id) : Action Error (Machine S G) Unit) m₁
        = (.ok (), { m₁ with storage := s }) := by
    simp only [Action.mapError, onStorage, Action.zoom, hswap, Except.mapError]
  rw [initializeRepository_prepared h, Action.bind_of_ok hon] at hrun
  rcases Action.bind_cases (Action.mapError (InitializeError.afterPublication id)
      (advanceFloor id prepared.manifest)) (fun _ => pure _)
      { m₁ with storage := s } with ⟨a, m₃, -, heq⟩ | ⟨e', m₃, herror, heq⟩
  · rw [heq] at hrun
    cases hrun
  · rw [heq] at hrun
    cases hrun
    simp only [Action.mapError, Prod.mk.injEq] at herror
    cases hr : (advanceFloor id prepared.manifest { m₁ with storage := s }).1 with
    | ok _ =>
      rw [hr] at herror
      cases herror.1
    | error error =>
      rw [hr] at herror
      cases herror.1
      exact ⟨error, rfl⟩

end

/-- **What the kind of an error says.** Before publication, this client has not set the
head: the swap was not tried, or refused as occupied. -/
theorem initializeRepository_before (h : Discreet storage same) {ownerLabel : Text} {draws : Draws}
    {m m' : Machine S G} {e : Error}
    (hrun : initializeRepository P storage key ownerLabel draws m
      = (.error (.beforePublication e), m')) :
    SameStorage same m m' ∧ ∀ outcome, genesisSwap P key storage ownerLabel draws m = some outcome →
      ∃ refusal, outcome = .error refusal ∧ refusal.isStorageOccupied = true := by
  have hprepare := keeps_prepareGenesis (G := G) P key h ownerLabel draws m
  cases hp : prepareGenesis P storage key ownerLabel draws m with
  | mk prepared m₁ =>
    rw [hp] at hprepare
    cases prepared with
    | error error =>
      -- no genesis was stored, so there was no swap
      rw [initializeRepository_unprepared hp] at hrun
      cases hrun
      refine ⟨hprepare, fun outcome ho => ?_⟩
      rw [genesisSwap, hp] at ho
      cases ho
    | ok made =>
      obtain ⟨prepared, id⟩ := made
      rw [genesisSwap_of_prepared hp]
      cases hswap : storage.compareAndSwapHead none id m₁.storage with
      | mk outcome s₂ =>
        cases outcome with
        | error error =>
          rw [initializeRepository_refused hp hswap, swapFailure] at hrun
          by_cases hoccupied : error.isStorageOccupied = true
          · rw [if_pos hoccupied] at hrun
            cases hrun
            refine ⟨h.trans hprepare (h.refused _ _ _ _ _ hswap hoccupied), fun outcome ho => ?_⟩
            cases ho
            exact ⟨e, rfl, hoccupied⟩
          · -- an uncertain outcome is reported as one
            rw [if_neg hoccupied] at hrun
            cases hrun
        | ok u =>
          -- the head is set, and what fails behind it is told apart
          obtain ⟨error, herror⟩ := initializeRepository_swapped hp hswap hrun
          cases herror

end

/-! ## The directory backend -/

section

variable {ι τ : Type} [DecidableEq ι] {i : ι}
  (D : Adversary Host.platform (Host.SameHeads i) i τ)

/-- The client has not set HEAD of the directory in between. -/
def DirectoryClient.SameHeads (i : ι) (client client' : DirectoryClient ι τ) : Prop :=
  Host.SameHeads i client.host.1 client'.host.1

theorem DirectoryClient.SameHeads.refl (client : DirectoryClient ι τ) :
    DirectoryClient.SameHeads i client client := Eq.refl (client.host.1.headsSetBy i)

theorem DirectoryClient.SameHeads.trans {a b c : DirectoryClient ι τ}
    (h : DirectoryClient.SameHeads i a b) (h' : DirectoryClient.SameHeads i b c) :
    DirectoryClient.SameHeads i a c := Eq.trans h' h

/-- A quiet process does not set HEAD, whatever comes between its calls. -/
theorem keeps_onHost {α : Type} {x : Process α} (hx : x.Only Host.Quiet) :
    Keeps (DirectoryClient.SameHeads i) (onHost D x) := by
  intro client
  refine Thread.Only.keeps (R := Host.SameHeads i) D (fun _ => rfl) (fun _ _ _ h h' => h'.trans h)
    (fun _ _ h => h) (fun op m outcome reply m' hop h => ?_) hx client.host
  rw [Host.SameHeads, Host.headsSetBy, Host.perform_quiet hop h, Host.headsSetBy]

/-- **A directory is discreet**: it never says that it is occupied. -/
theorem FilesystemStorage.discreet (P : Primitives) (names : Host ι × τ → RandomNames)
    (storage : FilesystemStorage) :
    Discreet (storage.backend D P names) (DirectoryClient.SameHeads i) where
  refl := .refl
  trans _ _ _ h h' := h.trans h'
  beginObject kind := by
    have hget : Keeps (DirectoryClient.SameHeads i)
        (Action.get : Action Error (DirectoryClient ι τ) _) := DirectoryClient.SameHeads.refl
    refine .bind (fun _ _ _ h h' => h.trans h') hget fun client =>
      .bind (fun _ _ _ h h' => h.trans h') ?_ fun stage client => .refl client
    exact keeps_onHost D (storage.quiet_beginObject _ kind).1
  finishObject kind content id := by
    have hget : Keeps (DirectoryClient.SameHeads i)
        (Action.get : Action Error (DirectoryClient ι τ) _) := DirectoryClient.SameHeads.refl
    refine .bind (fun _ _ _ h h' => h.trans h') hget fun client => ?_
    cases client.stage with
    | some stage => exact keeps_onHost D (storage.quiet_storePieces P stage [content] id).1
    | none => exact .fail .refl
  readHead := keeps_onHost D storage.quiet_readHead.1
  refused expected next client e client' h he := by
    -- a directory never says that it is occupied
    exfalso
    have hruns := Runs.against D
      (storage.compareAndSwapHead (names client.host).files expected next) client.host
    have herror : ((storage.compareAndSwapHead (names client.host).files expected next).against D
        client.host).1 = .error e := congrArg Prod.fst h
    rw [herror] at hruns
    have hplain := Runs.failsWith (storage.plain_compareAndSwapHead _ expected next).2 hruns
    rw [Error.Plain, he] at hplain
    cases hplain

end

/-! ## The carrier backend -/

theorem plain_commandFailure (action : String) (failure : CommandFailure) :
    (failure.error action).Plain := by
  cases failure <;> rfl

/-- A command that fails is no sign of an occupied branch. -/
theorem plain_orFail {α : Type} (action : String) (reply : Except CommandFailure α) :
    (orFail action reply).FailsWith Error.Plain := by
  cases reply with
  | ok _ => trivial
  | error failure => exact plain_commandFailure action failure

namespace GitStorage

theorem plain_writeWork (name : Text) (content : Bytes) :
    (writeWork name content).FailsWith Error.Plain := by
  refine .bind .perform fun reply => ?_
  cases reply with
  | ok _ => trivial
  | error failure => exact plain_ioError failure.fault

/-- Neither is a commit that cannot be made. -/
theorem plain_commitHead (next : Text) (base : Option Commit) :
    (commitHead next base).FailsWith Error.Plain := by
  have hhead : ∀ genesis, (writeCheckoutHead next genesis).FailsWith Error.Plain := by
    intro genesis
    cases genesis with
    | false => exact plain_writeWork _ _
    | true =>
      exact .bind (plain_writeWork _ _) fun _ => .bind (plain_writeWork _ _) fun _ =>
        plain_writeWork _ _
  exact .bind (hhead _) fun _ => .bind .perform fun _ => .bind (plain_orFail _ _) fun _ =>
    .bind .perform fun _ => .bind (plain_orFail _ _) fun _ => .bind .perform fun _ =>
    .bind (plain_orFail _ _) fun _ => .bind .perform fun _ => .bind (plain_orFail _ _) fun _ =>
    trivial

theorem plain_conflictingHead (tip : Option Commit) :
    (conflictingHead tip).FailsWith Error.Plain := by
  cases tip with
  | none => trivial
  | some commit =>
    refine .bind .attempt fun stored => ?_
    rcases stored with _ | _ | _ <;> trivial

/-- A failed push ends as itself or as a conflict. -/
theorem plain_judgePush (expected : Option Text) (base : Option Commit) (commit : Commit)
    {pushError : Error} (h : pushError.Plain) :
    (judgePush expected base commit pushError).FailsWith Error.Plain := by
  refine .bind .attempt fun latest => ?_
  cases latest with
  | error _ => exact h
  | ok latest =>
    dsimp only
    split
    · trivial
    split
    · exact h
    · exact .bind (plain_conflictingHead latest) fun _ => rfl

theorem plain_pushHead (expected : Option Text) (base : Option Commit) (commit : Commit) :
    (pushHead expected base commit).FailsWith Error.Plain := by
  refine .bind .perform fun pushed => ?_
  rcases pushed with (fault | stderr) | _
  · exact plain_ioError fault
  · exact plain_judgePush expected base commit rfl
  · trivial

/-- Once the checkout is being published, no error says that storage is occupied. -/
theorem plain_publishCheckoutHead (next : Text) (expected : Option Text) (base : Option Commit) :
    (publishCheckoutHead next expected base).FailsWith Error.Plain := by
  have hpublish : (commitAndPushHead next expected base).FailsWith Error.Plain :=
    .bind (plain_commitHead next base) fun _ => .bind (plain_pushHead _ _ _) fun _ =>
      .bind (.bind .perform fun _ => plain_orFail _ _) fun _ => trivial
  refine .attempt_bind hpublish (fun _ => trivial) fun e he => ?_
  -- the error of the publication is the one that is returned, restored or not
  refine .bind .attempt fun restored => ?_
  cases restored with
  | ok _ => exact he
  | error _ => exact he

/-- Opening a carrier looks at the remote and fills a checkout. -/
theorem silent_open (location : Text) : (GitStorage.open location).Only Carrier.Silent := by
  have hcheckOut : ∀ base, (checkOut base).Only Carrier.Silent := by
    intro base
    refine .bind (.perform trivial) fun created => ?_
    cases created with
    | ok _ => trivial
    | error failure =>
      refine .bind CarrierCache.silent_isCorrupt fun corrupt => ?_
      cases corrupt with
      | false => trivial
      | true =>
        refine .bind CarrierCache.silent_rebuild fun _ =>
          .bind CarrierCache.silent_refresh fun base =>
          .bind (.perform trivial) fun created => ?_
        cases created <;> trivial
  refine .bind trivial fun place => .bind CarrierCache.silent_lock fun _ =>
    .bind CarrierCache.silent_refresh fun tip => .bind (hcheckOut tip) fun base =>
      .bind ?_ fun _ => trivial
  unfold hasFormat4Branch
  split
  · exact .bind (.perform trivial) fun _ => trivial
  · trivial

variable (storage : GitStorage)

/-- **A carrier says that it is occupied before it pushes.** -/
theorem careful_compareAndSwapHead (base : Option Commit) (expected : Option Text) (next : Text) :
    (storage.compareAndSwapHead base expected next).Careful Carrier.Silent
      fun e => e.isStorageOccupied = true := by
  have hpublish := plain_publishCheckoutHead next expected base
  refine .bind trivial fun _ => .bind CarrierCache.silent_lock fun _ =>
    .bind CarrierCache.silent_refresh fun tip => ?_
  split
  · -- the branch has moved since the checkout was made
    exact .bind (silent_conflictingHead tip) fun _ => .done _
  · refine .bind storage.silent_localHead fun actual => ?_
    split
    · exact .done _
    · exact .bind trivial fun _ => .unmarked (hpublish.mono fun e he => ne_true_of_eq_false he)

end GitStorage

section

variable {ι τ : Type} [DecidableEq ι] {i : ι}
  (C : Adversary Carrier.platform (Carrier.SameHeads i) i τ)

/-- No push of the client has landed in between. -/
def CarrierClient.SameHeads (i : ι) (client client' : CarrierClient ι τ) : Prop :=
  Carrier.SameHeads i client.world.1 client'.world.1

theorem CarrierClient.SameHeads.refl (client : CarrierClient ι τ) :
    CarrierClient.SameHeads i client client := Eq.refl (client.world.1.headsSetBy i)

theorem CarrierClient.SameHeads.trans {a b c : CarrierClient ι τ}
    (h : CarrierClient.SameHeads i a b) (h' : CarrierClient.SameHeads i b c) :
    CarrierClient.SameHeads i a c := Eq.trans h' h

/-- A silent process pushes nothing, whatever comes between its commands. -/
theorem keeps_onWorld {α : Type} {x : CarrierProcess α} (hx : x.Only Carrier.Silent) :
    Keeps (CarrierClient.SameHeads i) (onWorld C x) := by
  intro client
  exact Thread.Only.keeps (R := Carrier.SameHeads i) C (fun _ => rfl) (fun _ _ _ h h' => h'.trans h)
    (fun _ _ h => h) (fun _ _ _ _ _ hop h => Carrier.perform_sameHeads hop h) hx client.world

theorem keeps_onObjects {α : Type} {x : CarrierProcess (Result α)} (hx : x.Only Carrier.Silent) :
    Keeps (CarrierClient.SameHeads i) (onObjects C x) :=
  .bind (fun _ _ _ h h' => h.trans h') (keeps_onWorld C hx) fun _ => .lift .refl

/-- **A carrier is discreet**: it refuses an occupied branch before it pushes. -/
theorem GitStorage.discreet (token : Option Commit → Bytes) (storage : GitStorage) :
    Discreet (storage.backend C token) (CarrierClient.SameHeads i) where
  refl := .refl
  trans _ _ _ h h' := h.trans h'
  beginObject _ := keeps_onObjects C (.perform trivial)
  finishObject _ _ _ := keeps_onObjects C (.perform trivial)
  readHead := keeps_onWorld C storage.silent_localHead
  refused expected next client e client' h he := by
    have hruns := Runs.against C (storage.compareAndSwapHead client.base expected next) client.world
    cases hswap : (storage.compareAndSwapHead client.base expected next).against C client.world with
    | mk result world =>
      have hon : onWorld C (storage.compareAndSwapHead client.base expected next) client
          = (result, { client with world }) := by
        rw [onWorld, Action.zoom, hswap]
      rw [hswap] at hruns
      have hbackend : (onWorld C (storage.compareAndSwapHead client.base expected next)
          >>= fun commit => rebase (some commit)) client = (.error e, client') := h
      cases result with
      | ok commit =>
        rw [Action.bind_of_ok hon] at hbackend
        cases hbackend
      | error e' =>
        rw [Action.bind_of_error hon] at hbackend
        cases hbackend
        exact Runs.careful (R := Carrier.SameHeads i) (fun _ => rfl) (fun _ _ _ h h' => h'.trans h)
          (fun _ _ h => h) (fun _ _ _ _ _ hop h => Carrier.perform_sameHeads hop h)
          (storage.careful_compareAndSwapHead client.base expected next) hruns he

end

end GitE2EE

import GitE2EE.Proof.Runs

/-!
# A transcript changes nothing

The proofs about several operations watch a machine that writes down every manifest it
meets. That machine returns what the plain one returns: the operations never look at
the transcript. So the results are about the program as it is, and the transcript only
says among which manifests ids must not collide.
-/

namespace GitE2EE

open Wire Effect

variable {S T G : Type} {P : Primitives} {key : KeyFile}

/-! ## Backends that answer alike -/

/-- Every call on `a` is the call on `b`, seen through `view`. -/
structure Storage.Mirrored (view : S → T) (a : Storage S) (b : Storage T) : Prop where
  beginObject : ∀ kind, Mirrors view (a.beginObject kind) (b.beginObject kind)
  finishObject : ∀ kind bytes id,
    Mirrors view (a.finishObject kind bytes id) (b.finishObject kind bytes id)
  openObject : ∀ kind id, Mirrors view (a.openObject kind id) (b.openObject kind id)
  readHead : Mirrors view a.readHead b.readHead
  refresh : Mirrors view a.refresh b.refresh
  compareAndSwapHead : ∀ expected id,
    Mirrors view (a.compareAndSwapHead expected id) (b.compareAndSwapHead expected id)

/-- Noting a result does not change it. -/
theorem mirrors_noting {α : Type} (x : Action Error S α) (note : Result α → List Bytes) :
    Mirrors Prod.fst (noting x note) x := fun _ => rfl

/-- The backend with a transcript answers as the backend. -/
theorem logged_mirrored (storage : Storage S) :
    Storage.Mirrored Prod.fst storage.logged storage where
  beginObject _ := mirrors_noting _ _
  finishObject _ _ _ := mirrors_noting _ _
  openObject _ _ := mirrors_noting _ _
  readHead := mirrors_noting _ _
  refresh := mirrors_noting _ _
  compareAndSwapHead _ _ := mirrors_noting _ _

section

variable {view : S → T} {a : Storage S} {b : Storage T}

/-- A manifest is read with one call. -/
theorem mirrors_readManifestMaterial (h : Storage.Mirrored view a b) (id : Text) :
    Mirrors view (readManifestMaterial P a id) (readManifestMaterial P b id) :=
  ((h.openObject _ _).bind fun _ => .lift).bind fun _ => .lift

/-- The walk to the genesis does with each parent what the plain walk does. -/
theorem mirrors_chainLoop {read : Text → Action Error S Material}
    {read' : Text → Action Error T Material} (hread : ∀ id, Mirrors view (read id) (read' id))
    (fuel : Nat) (seen : List Text) (u : Unverified) :
    Mirrors view (chainLoop P read unbudgeted fuel seen u)
      (chainLoop P read' unbudgeted fuel seen u) := by
  induction fuel generalizing seen u with
  | zero => exact .fail
  | succ fuel ih =>
    unfold chainLoop
    refine .ite .fail ?_
    -- a manifest without a parent must be a genesis; any other one leads to its parent
    split
    · exact .ite .fail .pure
    · refine (hread _).bind fun parent => Mirrors.pure.bind fun _ => ?_
      refine Mirrors.lift.bind fun parentKey => Mirrors.lift.bind fun opened => ?_
      exact .ite .fail ((ih _ _).bind fun _ => .pure)

/-- The chain of the head, from the call that reads it to the last check. -/
theorem mirrors_currentChain (h : Storage.Mirrored view a b) :
    Mirrors view (currentChain P a key) (currentChain P b key) := by
  refine h.readHead.bind fun head => Mirrors.lift.bind fun head => ?_
  have hread := mirrors_readManifestMaterial (P := P) h
  refine Mirrors.bind ?_ fun entry => (mirrors_chainLoop hread _ _ _).bind fun _ => .lift
  exact (hread _).bind fun _ => Mirrors.pure.bind fun _ => Mirrors.lift.bind fun _ =>
    Mirrors.lift.bind fun _ => .pure

theorem mirrors_sealAndStoreManifest (h : Storage.Mirrored view a b) (coins : Coins)
    (previous : Option OpenedState) (prepared : Prepared) :
    Mirrors view (sealAndStoreManifest P a key coins previous prepared)
      (sealAndStoreManifest P b key coins previous prepared) :=
  Mirrors.lift.bind fun _ => ((h.beginObject _).bind fun _ => h.finishObject _ _ _).bind fun _ =>
    Mirrors.lift.bind fun _ => .pure

/-- Committing a manifest stores it and swaps the head. -/
theorem mirrors_commitManifest (h : Storage.Mirrored view a b) (coins : Coins)
    (previous : Option OpenedState) (prepared : Prepared) :
    Mirrors view (commitManifest P a key coins previous prepared)
      (commitManifest P b key coins previous prepared) :=
  (mirrors_sealAndStoreManifest h coins previous prepared).bind fun _ =>
    (h.compareAndSwapHead _ _).bind fun _ => .pure

end

/-! ## Machines that work alike -/

/-- The machine with another view of its storage. -/
def Machine.viewed (view : S → T) (m : Machine S G) : Machine T G :=
  ⟨view m.storage, m.floor, m.git⟩

section

variable {view : S → T} {a : Storage S} {b : Storage T}

/-- What a machine does on its storage is seen through the view of that storage. -/
theorem mirrors_onStorage {α : Type} {x : Action Error S α} {y : Action Error T α}
    (h : Mirrors view x y) :
    Mirrors (Machine.viewed view) (onStorage x : Action Error (Machine S G) α) (onStorage y) := by
  intro m
  simp only [onStorage, Action.zoom, Machine.viewed, h m.storage]

/-- The floor is not part of the storage. -/
theorem mirrors_onFloor {α : Type} {x : Action Error FloorFile α} :
    Mirrors (Machine.viewed view) (onFloor x : Action Error (Machine S G) α) (onFloor x) :=
  fun _ => rfl

/-- The checkout is not part of the storage. -/
theorem mirrors_onGit {α : Type} {x : Action Error G α} :
    Mirrors (Machine.viewed view) (onGit x : Action Error (Machine S G) α) (onGit x) :=
  fun _ => rfl

/-- A view that fails the floor is refreshed by both or by neither. -/
theorem mirrors_pinnedState (h : Storage.Mirrored view a b) :
    Mirrors (Machine.viewed view) (pinnedState P a key : Action Error (Machine S G) _)
      (pinnedState P b key) := by
  have hchain : Mirrors (Machine.viewed view)
      (onStorage (currentChain P a key) : Action Error (Machine S G) _)
      (onStorage (currentChain P b key)) := mirrors_onStorage (mirrors_currentChain h)
  refine Mirrors.bind ?_ fun chain => Mirrors.lift.bind fun _ => .pure
  refine mirrors_onFloor.bind fun floor => hchain.bind fun chain => ?_
  -- the chain passes the floor, or the storage is asked to refresh
  split
  · exact .pure
  · refine (mirrors_onStorage h.refresh).bind fun _ => .ite .fail ?_
    exact hchain.bind fun _ => Mirrors.lift.bind fun _ => .pure

theorem mirrors_pinnedHead (h : Storage.Mirrored view a b) :
    Mirrors (Machine.viewed view) (pinnedHead P a key : Action Error (Machine S G) _)
      (pinnedHead P b key) :=
  mirrors_onFloor.bind fun _ => (mirrors_pinnedState h).bind fun _ =>
    mirrors_onFloor.bind fun _ => .pure

/-- Adding and revoking devices differ in the list they publish only. -/
theorem mirrors_changePolicy (h : Storage.Mirrored view a b)
    (nextDevices : OpenedState → Result (List DeviceRecord)) (draws : Draws) :
    Mirrors (Machine.viewed view) (changePolicy P a key nextDevices draws :
      Action Error (Machine S G) _) (changePolicy P b key nextDevices draws) :=
  mirrors_onFloor.bind fun _ => (mirrors_pinnedState h).bind fun _ => Mirrors.lift.bind fun _ =>
    (mirrors_onStorage (mirrors_commitManifest h _ _ _)).bind fun _ =>
      mirrors_onFloor.bind fun _ => .pure

/-- Creating a repository, with the kind of its error. -/
theorem mirrors_initializeRepository (h : Storage.Mirrored view a b) (ownerLabel : Text)
    (draws : Draws) :
    Mirrors (Machine.viewed view) (initializeRepository P a key ownerLabel draws :
      Action InitializeError (Machine S G) _) (initializeRepository P b key ownerLabel draws) := by
  refine Mirrors.bind (Mirrors.mapError ?_) fun prepared =>
    (mirrors_onStorage (h.compareAndSwapHead _ _)).mapError.bind fun _ =>
      mirrors_onFloor.mapError.bind fun _ => .pure
  exact mirrors_onFloor.bind fun _ => (mirrors_onStorage h.readHead).bind fun _ =>
    Mirrors.lift.bind fun _ => mirrors_onFloor.bind fun _ => Mirrors.lift.bind fun _ =>
      Mirrors.lift.bind fun _ => (mirrors_onStorage (mirrors_sealAndStoreManifest h _ _ _)).bind
        fun _ => .pure

variable {repo : GitRepository G}

/-- A publication of refs, with the pack it may store. -/
theorem mirrors_publishRefs (h : Storage.Mirrored view a b) (draws : Draws)
    (current : OpenedState) (chain : List OpenedState) (nextRefs packRefs : RefMap) :
    Mirrors (Machine.viewed view) (publishRefs P a repo key draws current chain nextRefs packRefs)
      (publishRefs P b repo key draws current chain nextRefs packRefs) := by
  refine Mirrors.lift.bind fun generation => Mirrors.bind (.ite .pure ?_) fun newPacks =>
    Mirrors.lift.bind fun prepared =>
      (mirrors_onStorage (mirrors_commitManifest h _ _ _)).bind fun id =>
        mirrors_onFloor.bind fun _ => mirrors_onGit.bind fun _ => .pure
  refine Mirrors.bind ?_ fun _ => .pure
  exact mirrors_onGit.bind fun _ => Mirrors.lift.bind fun _ => mirrors_onGit.bind fun _ =>
    (mirrors_onStorage (h.beginObject _)).bind fun _ => Mirrors.lift.bind fun _ =>
      mirrors_onGit.bind fun _ => (mirrors_onStorage (h.finishObject _ _ _)).bind fun _ => .pure

/-- A push ends in a dry run or in a publication whose failure is kept as a value. -/
theorem mirrors_push (h : Storage.Mirrored view a b) (pushes : List RefPush) (mode : PushMode)
    (draws : Draws) :
    Mirrors (Machine.viewed view) (push P a repo key pushes mode draws)
      (push P b repo key pushes mode draws) :=
  mirrors_onFloor.bind fun _ => (mirrors_pinnedState h).bind fun _ => Mirrors.lift.bind fun _ =>
    Mirrors.lift.bind fun _ => mirrors_onGit.bind fun _ => Mirrors.bind
      (.ite (mirrors_onFloor.bind fun _ => .pure) (mirrors_publishRefs h _ _ _ _ _).attempt)
      fun _ => .pure

/-! ### Packs -/

section

variable {write : Bytes → Action Error (Machine S G) Unit}
variable {write' : Bytes → Action Error (Machine T G) Unit}

/-- Segments are written out one by one, to whatever takes them. -/
theorem mirrors_openSegments
    (hwrite : ∀ plain, Mirrors (Machine.viewed view) (write plain) (write' plain))
    {packKey : SecretKey} {nonce : StreamNonce} {aad : Bytes} {count segment remaining : Nat}
    {reader : Reader} {consumed : Bytes} :
    Mirrors (Machine.viewed view)
      (openSegments P write packKey nonce aad count segment remaining reader consumed)
      (openSegments P write' packKey nonce aad count segment remaining reader consumed) := by
  induction count generalizing segment remaining reader consumed with
  | zero => exact .pure
  | succ count ih => exact Mirrors.lift.bind fun _ => (hwrite _).bind fun _ => ih

theorem mirrors_openPackStream
    (hwrite : ∀ plain, Mirrors (Machine.viewed view) (write plain) (write' plain))
    {packKey : SecretKey} {ciphertext : Reader} {aad : Bytes} {size : Nat} {id : Text} :
    Mirrors (Machine.viewed view) (openPackStream P write packKey ciphertext aad size id)
      (openPackStream P write' packKey ciphertext aad size id) := by
  unfold openPackStream
  refine Mirrors.lift.bind fun opened => ?_
  obtain ⟨header, reader, nonce, expectedSize⟩ := opened
  exact (mirrors_openSegments hwrite).bind fun _ => .lift

/-- A pack of the chain is one object of the storage. -/
theorem mirrors_openChainPack (h : Storage.Mirrored view a b)
    (hwrite : ∀ plain, Mirrors (Machine.viewed view) (write plain) (write' plain))
    {entry : OpenedState} {descriptor : PackDescriptor} :
    Mirrors (Machine.viewed view) (openChainPack P a write entry descriptor)
      (openChainPack P b write' entry descriptor) := by
  unfold openChainPack
  refine (mirrors_onStorage (h.openObject _ _)).bind fun encrypted => Mirrors.lift.bind
    fun packKey => ?_
  exact (mirrors_openPackStream hwrite).bind fun _ => .pure

end

theorem mirrors_forEach {α σ τ : Type} {view : σ → τ} {step : α → Action Error σ Unit}
    {step' : α → Action Error τ Unit} (h : ∀ x, Mirrors view (step x) (step' x)) (xs : List α) :
    Mirrors view (forEach step xs) (forEach step' xs) := by
  induction xs with
  | nil => exact .pure
  | cons x rest ih => exact (h x).bind fun _ => ih

/-- The packs of all entries above a generation. -/
theorem mirrors_importChainPacks (h : Storage.Mirrored view a b) {chain : List OpenedState}
    {afterGeneration : Option Nat} :
    Mirrors (Machine.viewed view) (importChainPacks P a repo chain afterGeneration)
      (importChainPacks P b repo chain afterGeneration) := by
  refine mirrors_forEach (fun entry => .ite .pure (mirrors_forEach (fun descriptor => ?_) _)) _
  exact mirrors_onGit.bind fun _ => (mirrors_openChainPack h fun _ => mirrors_onGit).bind
    fun _ => mirrors_onGit

/-- An import that cannot connect its refs is made once more in full. -/
theorem mirrors_importPacks (h : Storage.Mirrored view a b) :
    Mirrors (Machine.viewed view) (importPacks P a repo key) (importPacks P b repo key) := by
  refine mirrors_onFloor.bind fun _ => mirrors_onGit.bind fun _ =>
    (mirrors_pinnedState h).bind fun _ => Mirrors.lift.bind fun _ => mirrors_onGit.bind fun _ =>
      Mirrors.bind ?_ fun _ => mirrors_onFloor.bind fun _ => mirrors_onGit.bind fun _ => .pure
  exact (mirrors_importChainPacks h).bind fun _ => mirrors_onGit.bind fun _ =>
    .ite .pure ((mirrors_importChainPacks h).bind fun _ => mirrors_onGit)

theorem mirrors_observeManifest (h : Storage.Mirrored view a b) :
    Mirrors (Machine.viewed view) (observeManifest P a repo key) (observeManifest P b repo key) :=
  mirrors_onFloor.bind fun _ => mirrors_onGit.bind fun _ => (mirrors_pinnedState h).bind fun _ =>
    Mirrors.lift.bind fun _ => mirrors_onFloor.bind fun _ => mirrors_onGit.bind fun _ => .pure

theorem mirrors_countPacks (h : Storage.Mirrored view a b) {entry : OpenedState}
    (packs : List PackDescriptor) (count : Nat) :
    Mirrors (Machine.viewed view) (countPacks P a entry count packs : Action Error (Machine S G) _)
      (countPacks P b entry count packs) := by
  induction packs generalizing count with
  | nil => exact .pure
  | cons descriptor rest ih =>
    exact (mirrors_openChainPack h fun _ => .pure).bind fun _ => ih (count + 1)

/-- Verifying opens every pack and keeps a count. -/
theorem mirrors_countChainPacks (h : Storage.Mirrored view a b) (chain : List OpenedState)
    (count : Nat) :
    Mirrors (Machine.viewed view) (countChainPacks P a count chain : Action Error (Machine S G) _)
      (countChainPacks P b count chain) := by
  induction chain generalizing count with
  | nil => exact .pure
  | cons entry rest ih => exact (mirrors_countPacks h _ count).bind fun count' => ih count'

theorem mirrors_verifyCiphertext (h : Storage.Mirrored view a b) :
    Mirrors (Machine.viewed view) (verifyCiphertext P a key : Action Error (Machine S G) _)
      (verifyCiphertext P b key) :=
  mirrors_onFloor.bind fun _ => (mirrors_pinnedState h).bind fun _ =>
    (mirrors_countChainPacks h _ 0).bind fun _ => Mirrors.lift.bind fun _ =>
      mirrors_onFloor.bind fun _ => .pure

end

/-! ## Runs -/

/-- **A call does the same with a transcript.** -/
theorem mirrors_call (call : Call S G) :
    Mirrors (Machine.viewed Prod.fst) (call.logged.run P) (call.run P) := by
  -- both calls are the same operation, so one case for each is enough
  have h := logged_mirrored call.storage
  unfold Call.run
  simp only [Call.logged]
  cases call.operation with
  | observeManifest => exact ((mirrors_observeManifest h).bind fun _ => .pure).mapError
  | importPacks => exact ((mirrors_importPacks h).bind fun _ => .pure).mapError
  | push pushes mode draws => exact ((mirrors_push h _ _ _).bind fun _ => .lift).mapError
  | addDevice pub label roles draws =>
    exact ((mirrors_changePolicy h _ _).bind fun _ => .pure).mapError
  | revokeDevice deviceId draws =>
    exact ((mirrors_changePolicy h _ _).bind fun _ => .pure).mapError
  | listDevices =>
    exact (((mirrors_pinnedHead h).bind fun _ => .pure).bind fun _ => .pure).mapError
  | currentManifest =>
    exact (((mirrors_pinnedHead h).bind fun _ => .pure).bind fun _ => .pure).mapError
  | verifyCiphertext => exact ((mirrors_verifyCiphertext h).bind fun _ => .pure).mapError
  | initializeRepository ownerLabel draws =>
    exact ((mirrors_initializeRepository h _ _).bind fun _ => .pure).mapError

/-- **A run does the same with a transcript.** -/
theorem runCalls_logged (calls : List (Call S G)) (m : Machine (S × List Bytes) G) :
    (runCalls P calls (m.viewed Prod.fst)).1 = (runCalls P (calls.map Call.logged) m).1 := by
  -- each call leaves machines that still differ in the transcript only
  induction calls generalizing m with
  | nil => rfl
  | cons call rest ih =>
    simp only [runCalls, List.map_cons, mirrors_call call m, ih]
    rfl

end GitE2EE

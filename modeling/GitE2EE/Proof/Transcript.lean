import GitE2EE.Lib.Lineage
import GitE2EE.Lib.Spec
import GitE2EE.Model.Repository
import GitE2EE.Proof.Readers
import GitE2EE.Proof.Sealing

/-!
# What storage showed us

Storage may answer every read differently. What it cannot do is show two different
manifests under one id, as long as ids do not collide among the manifests this
machine has seen. So the proofs about several operations keep a transcript of
those manifests: everything read as a manifest and everything stored as one.

`Transcribed` says that a log is such a transcript; `Storage.logged` turns any
backend into one that keeps it. The manifests of the transcript, each naming its
predecessor in its header, are the items of a `Lineage`.
-/

namespace GitE2EE

open Wire Effect Lineage

variable {S G : Type} {P : Primitives} {root : Text}

/-! ## Logs -/

/-- Nothing leaves the log. -/
def Grows (log : S → List Bytes) (s s' : S) : Prop := log s ⊆ log s'

theorem Grows.refl {log : S → List Bytes} (s : S) : Grows log s s := List.Subset.refl _

theorem Grows.trans {log : S → List Bytes} ⦃a b c : S⦄ (h : Grows log a b) (h' : Grows log b c) :
    Grows log a c := List.Subset.trans h h'

/-- `log` holds the manifests that storage returned or was given. -/
structure Transcribed (storage : Storage S) (log : S → List Bytes) : Prop where
  beginObject : ∀ kind, Keeps (Grows log) (storage.beginObject kind)
  finishObject : ∀ kind bytes id,
    Keeps (Grows log) (storage.finishObject kind bytes id)
  openObject : ∀ kind id, Keeps (Grows log) (storage.openObject kind id)
  readHead : Keeps (Grows log) storage.readHead
  refresh : Keeps (Grows log) storage.refresh
  compareAndSwapHead : ∀ expected id,
    Keeps (Grows log) (storage.compareAndSwapHead expected id)
  read : ∀ {id s reader s'}, storage.openObject .manifest id s = (.ok reader, s') →
    reader.bytes ∈ log s'
  written : ∀ bytes id s, bytes ∈ log (storage.finishObject .manifest bytes id s).2

/-- Runs `x` and notes what it read or wrote. -/
def noting {α : Type} (x : Action Error S α) (note : Result α → List Bytes) :
    Action Error (S × List Bytes) α :=
  fun s => ((x s.1).1, ((x s.1).2, note (x s.1).1 ++ s.2))

/-- The bytes of a manifest that was opened. -/
def openedManifest (kind : ObjectKind) : Result Reader → List Bytes
  | .ok reader => if kind = .manifest then [reader.bytes] else []
  | .error _ => []

/-- The same backend with a transcript. -/
def Storage.logged (storage : Storage S) : Storage (S × List Bytes) where
  beginObject kind := noting (storage.beginObject kind) fun _ => []
  finishObject kind bytes id := noting (storage.finishObject kind bytes id) fun _ =>
    if kind = .manifest then [bytes] else []
  openObject kind id := noting (storage.openObject kind id) (openedManifest kind)
  readHead := noting storage.readHead fun _ => []
  refresh := noting storage.refresh fun _ => []
  compareAndSwapHead expected id := noting (storage.compareAndSwapHead expected id) fun _ => []
  observeHead := noting storage.observeHead fun _ => []
  compareAndSwapObservedHead observation id :=
    noting (storage.compareAndSwapObservedHead observation id) fun _ => []
  recoveryHistory maxCommits maxBytes :=
    noting (storage.recoveryHistory maxCommits maxBytes) fun _ => []
  restoreHistoricalObject kind id maxCommits :=
    noting (storage.restoreHistoricalObject kind id maxCommits) fun _ => []
  prepareRecovery manifests packs := noting (storage.prepareRecovery manifests packs) fun _ => []

/-- Noting adds to the transcript. -/
theorem keeps_noting {α : Type} (x : Action Error S α) (note : Result α → List Bytes) :
    Keeps (Grows Prod.snd) (noting x note) :=
  fun _ => List.subset_append_right _ _

/-- **Any backend can be made to keep one.** -/
theorem logged_transcribed (storage : Storage S) :
    Transcribed storage.logged (Prod.snd : S × List Bytes → List Bytes) where
  beginObject _ := keeps_noting _ _
  finishObject _ _ _ := keeps_noting _ _
  openObject _ _ := keeps_noting _ _
  readHead := keeps_noting _ _
  refresh := keeps_noting _ _
  compareAndSwapHead _ _ := keeps_noting _ _
  read := by
    intro id s reader s' h
    simp only [Storage.logged, noting, Prod.mk.injEq] at h
    obtain ⟨hr, rfl⟩ := h
    rw [hr]
    exact List.mem_append_left _ (by simp [openedManifest])
  written := by
    intro bytes id s
    simp [Storage.logged, noting]

/-! ## Lineage -/

/-- Some manifest of `objects` has this id and names this predecessor. -/
def Stored (P : Primitives) (objects : List Bytes) (id : Text) (previous : Option Text) : Prop :=
  ∃ bytes ∈ objects, objectId P bytes = id
    ∧ ∃ header, peekManifestHeader P bytes = .ok header ∧ header.previous = previous

/-- Ids that do not collide name one predecessor each. -/
theorem stored_functional {objects : List Bytes}
    (hinj : Set.InjOn (objectId P) { b | b ∈ objects }) : Functional (Stored P objects) := by
  rintro id x y ⟨bytes, hmem, hid, header, hpeek, rfl⟩ ⟨bytes', hmem', hid', header', hpeek', rfl⟩
  -- one id, one manifest, and so one header
  have hbytes : bytes = bytes' := hinj hmem hmem' (hid.trans hid'.symm)
  subst hbytes
  rw [hpeek] at hpeek'
  rw [Except.ok.inj hpeek']

theorem Stored.mono {objects objects' : List Bytes} (h : objects ⊆ objects') {id : Text}
    {previous : Option Text} (hs : Stored P objects id previous) :
    Stored P objects' id previous := by
  obtain ⟨bytes, hmem, hrest⟩ := hs
  exact ⟨bytes, h hmem, hrest⟩

/-- The material behind an entry. -/
theorem stored_of_read {objects : List Bytes} {M : Text → Material → Prop}
    (hM : ∀ name m, M name m → m.encrypted ∈ objects ∧ objectId P m.encrypted = m.id)
    {u : Unverified} (h : Read P M u) : Stored P objects u.id u.opened.manifest.previous := by
  obtain ⟨name, m, hm, hid, hopen⟩ := h
  obtain ⟨hmem, hobject⟩ := hM name m hm
  have ho := opens_of_openManifest hopen
  exact ⟨m.encrypted, hmem, by rw [hobject, hid], u.opened.header, ho.peek, ho.previous.symm⟩

/-- **An authenticated chain is a line of ancestors** among the manifests read. -/
theorem authentic_line {objects : List Bytes} {M : Text → Material → Prop}
    (hM : ∀ name m, M name m → m.encrypted ∈ objects ∧ objectId P m.encrypted = m.id)
    {chain : List OpenedState} (h : Authentic P root M chain) :
    Line (Stored P objects) (chain.map OpenedState.id) := by
  induction h with
  -- the induction follows the chain from genesis up
  | @genesis u s hread hverify =>
    obtain ⟨-, -, -, hid, hm, -⟩ := verifyEntry_ok hverify
    have hstored := stored_of_read hM hread
    rw [← hid, ← hm, (genesis_of_verifyEntry hread hverify).previous] at hstored
    exact .root hstored
  | @step u s p chain hread hlink hverify _ ih =>
    obtain ⟨-, -, -, hid, hm, -⟩ := verifyEntry_ok hverify
    have hstored := stored_of_read hM hread
    rw [← hid, ← hm, (extends_of_verifyEntry hread hlink hverify).previous] at hstored
    exact .step hstored ih

/-! ## Reading, and what it leaves alone -/

section

variable {storage : Storage S} {R : S → S → Prop} (hrefl : ∀ s, R s s)
variable (htrans : ∀ ⦃a b c⦄, R a b → R b c → R a c)
variable (hopen : ∀ id, Keeps R (storage.openObject .manifest id))

include hrefl htrans hopen

theorem keeps_readManifestMaterial (id : Text) : Keeps R (readManifestMaterial P storage id) :=
  Keeps.bind htrans (Keeps.bind htrans (hopen id) fun _ => .lift hrefl) fun _ => .lift hrefl

/-- Following a chain reads one manifest after the other. -/
theorem keeps_chainLoop (fuel : Nat) (seen : List Text) (u : Unverified) :
    Keeps R (chainLoop P (readManifestMaterial P storage) unbudgeted fuel seen u) := by
  induction fuel generalizing seen u with
  | zero => exact .fail hrefl
  | succ fuel ih =>
    unfold chainLoop
    split
    · exact .fail hrefl
    · split
      · split
        · exact .fail hrefl
        · exact .pure hrefl
      · refine (keeps_readManifestMaterial hrefl htrans hopen _).bind htrans fun parent => ?_
        refine (Keeps.pure hrefl).bind htrans fun _ => ?_
        refine (Keeps.lift hrefl).bind htrans fun parentKey => ?_
        refine (Keeps.lift hrefl).bind htrans fun opened => ?_
        split
        · exact .fail hrefl
        · exact (ih _ _).bind htrans fun _ => .pure hrefl

/-- The current chain starts with a read of the head. -/
theorem keeps_currentChain (hhead : Keeps R storage.readHead) (key : KeyFile) :
    Keeps R (currentChain P storage key) := by
  refine hhead.bind htrans fun _ => (Keeps.lift hrefl).bind htrans fun head => ?_
  refine Keeps.bind htrans ?_ fun _ =>
    (keeps_chainLoop hrefl htrans hopen _ _ _).bind htrans fun _ => .lift hrefl
  exact (keeps_readManifestMaterial hrefl htrans hopen _).bind htrans fun _ =>
    (Keeps.pure hrefl).bind htrans fun _ => (Keeps.lift hrefl).bind htrans fun _ =>
      (Keeps.lift hrefl).bind htrans fun _ => .pure hrefl

end

/-! ## Reading through a transcript -/

section

variable {storage : Storage S} {log : S → List Bytes}

theorem buffered_ok {reader : Reader} {bytes : Bytes} (h : Storage.buffered reader = .ok bytes) :
    bytes = reader.bytes := by
  unfold Storage.buffered Reader.readToEnd at h
  split at h
  · cases h
  · split at h
    · exact (Except.ok.inj h).symm
    · cases h

/-- A manifest that was read is in the transcript, under the id it was asked for. -/
theorem readManifestMaterial_ok (ht : Transcribed storage log) {name : Text} {s s' : S}
    {m : Material} (h : readManifestMaterial P storage name s = (.ok m, s')) :
    m.encrypted ∈ log s' ∧ objectId P m.encrypted = m.id ∧ m.id = name := by
  obtain ⟨bytes, s₁, hget, hlift⟩ := Action.bind_eq_ok.mp h
  obtain ⟨hcheck, rfl⟩ := Action.lift_eq_ok.mp hlift
  obtain ⟨reader, s₂, hopen, hlift'⟩ := Action.bind_eq_ok.mp hget
  obtain ⟨hbuffered, rfl⟩ := Action.lift_eq_ok.mp hlift'
  obtain ⟨hid, hencrypted, hobject, -⟩ := checkMaterial_ok hcheck
  rw [hencrypted, hid, hobject, buffered_ok hbuffered]
  exact ⟨ht.read hopen, rfl, rfl⟩

/-- Reading with a transcript, as the walk along a chain asks it of its reader. -/
theorem readerSpec_transcript (ht : Transcribed storage log) :
    ReaderSpec (readManifestMaterial P storage) unbudgeted (Grows log)
      (fun s name m => m.encrypted ∈ log s ∧ objectId P m.encrypted = m.id ∧ m.id = name) where
  refl := Grows.refl
  trans := Grows.trans
  read_later name s := keeps_readManifestMaterial Grows.refl Grows.trans (ht.openObject _) name s
  charge_later _ _ s := Grows.refl s
  read_ok h := readManifestMaterial_ok ht h
  keep h hm := ⟨h hm.1, hm.2⟩

/-- What an operation knows of the chain it read. -/
structure Known (P : Primitives) (root : Text) (objects : List Bytes)
    (chain : List OpenedState) : Prop where
  chained : Chained P root chain
  packIds_nodup : (packIds chain).Nodup
  line : Line (Stored P objects) (chain.map OpenedState.id)

theorem Known.shape {objects : List Bytes} {chain : List OpenedState}
    (h : Known P root objects chain) : Shape P chain := chained_shape h.chained h.packIds_nodup

theorem Known.mono {objects objects' : List Bytes} (hsub : objects ⊆ objects')
    {chain : List OpenedState} (h : Known P root objects chain) : Known P root objects' chain :=
  ⟨h.chained, h.packIds_nodup, h.line.mono fun _ _ => Stored.mono hsub⟩

/-- **What reading the current chain establishes.** -/
theorem currentChain_ok (ht : Transcribed storage log) {key : KeyFile}
    {chain : List OpenedState} {s s' : S}
    (h : currentChain P storage key s = (.ok chain, s')) :
    Known P key.repositoryRoot (log s') chain := by
  obtain ⟨head, s₁, -, h⟩ := Action.bind_eq_ok.mp h
  obtain ⟨head', s₂, -, h⟩ := Action.bind_eq_ok.mp h
  obtain ⟨-, hauthentic, hnd, -⟩ := chainFrom_ok (readerSpec_transcript ht) h
  exact ⟨authentic_chained hauthentic, hnd, authentic_line
    (fun _ _ hm => ⟨hm.1, hm.2.1⟩) hauthentic⟩

end

end GitE2EE

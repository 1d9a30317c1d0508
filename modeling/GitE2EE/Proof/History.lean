import GitE2EE.Proof.Accepted
import GitE2EE.Proof.Mirrored

/-!
# One machine, one history

The result about all the operations of a machine, and an instance of it: an owner who
creates a repository in an empty directory and then reads it.
-/

namespace GitE2EE

open Wire Effect

variable {S G : Type} {P : Primitives}

/-- **Continuity of one machine.** Storage may answer every call as it likes. From a
machine without a floor, and as long as the ids of the manifests it meets do not
collide, the heads that its successful operations accept or publish lie on one chain:
each of these operations' chains contains, at its generation, the head of every
earlier one, neither generation ever falls, and each success leaves the floor exactly
at its head. -/
theorem operations_continuous (hjson : ReadsJson P) (calls : List (Call S G))
    (m : Machine S G) (hfresh : m.floor.content = none)
    (hids : Set.InjOn (objectId P)
      { bytes | bytes ∈ (runCalls P (calls.map Call.logged) m.logged).2.storage.2 }) :
    Continuous (runCalls P calls m).1 := by
  have ht : ∀ call ∈ calls.map Call.logged, Transcribed call.storage
      (Prod.snd : S × List Bytes → List Bytes) := by
    intro call hcall
    obtain ⟨c, -, rfl⟩ := List.mem_map.mp hcall
    exact logged_transcribed c.storage
  have hm : Remembers P (runCalls P (calls.map Call.logged) m.logged).2.storage.2 []
      m.logged.floor.content := by
    show Remembers P _ [] m.floor.content
    rw [hfresh]
    exact .nothing rfl
  have hlogged := runCalls_continuous hjson (stored_functional hids) ht hm (List.Subset.refl _)
  -- the transcript is only in the proof: without it the run is the same
  rw [← runCalls_logged calls m.logged] at hlogged
  exact hlogged.1

/-! ## An instance -/

section

variable {key : KeyFile} {location : String} {git : G}

/-- A manifest that is stored goes into the transcript. -/
theorem putObject_logged {storage : Storage S} {id : Text} {bytes : Bytes} {log : List Bytes}
    {s t : S} (h : storage.putObjectIfAbsent .manifest id bytes s = (.ok (), t)) :
    storage.logged.putObjectIfAbsent .manifest id bytes (s, log) = (.ok (), (t, bytes :: log)) := by
  obtain ⟨⟨⟩, s₁, hbegin, hfinish⟩ := Action.bind_eq_ok.mp h
  refine Action.bind_eq_ok.mpr ⟨(), (s₁, log), ?_, ?_⟩
  · simp only [Storage.logged, noting, hbegin, List.nil_append]
  · simp only [Storage.logged, noting, hfinish, if_true, List.singleton_append]

/-- A swap does not. -/
theorem compareAndSwapHead_logged {storage : Storage S} {expected : Option Text} {id : Text}
    {log : List Bytes} {s t : S} (h : storage.compareAndSwapHead expected id s = (.ok (), t)) :
    storage.logged.compareAndSwapHead expected id (s, log) = (.ok (), (t, log)) := by
  simp only [Storage.logged, noting, h, List.nil_append]

/-- The machine between two operations: a directory with a transcript, a floor that
nothing keeps from being read and written, and a checkout. -/
def resting (d : Directory) (log : List Bytes) (floor : Option ContinuityFloor) (git : G) :
    Machine (Directory × List Bytes) G :=
  ⟨(d, log), ⟨floor, []⟩, git⟩

theorem onStorage_resting {α : Type} {x : Action Error (Directory × List Bytes) α}
    {d d' : Directory} {log log' : List Bytes} {floor : Option ContinuityFloor} {r : α}
    (h : x (d, log) = (.ok r, (d', log'))) :
    onStorage x (resting d log floor git) = (.ok r, resting d' log' floor git) := by
  simp only [onStorage, Action.zoom, resting, h]

/-- A floor of this format is read as it is. -/
theorem read_floor {floor : Option ContinuityFloor}
    (hfloor : ∀ f, floor = some f → f.formatVersion = FLOOR_FORMAT) :
    FloorGuard.read ⟨floor, []⟩ = (.ok floor, ⟨floor, []⟩) := by
  cases floor with
  | none => rfl
  | some f =>
    refine Action.bind_eq_ok.mpr ⟨(), ⟨some f, []⟩, rfl, Action.bind_eq_ok.mpr
      ⟨⟨some f, []⟩, ⟨some f, []⟩, rfl, Action.lift_eq_ok.mpr ⟨?_, rfl⟩⟩⟩
    simp only [FloorGuard.read.checkFormat, except_bind_eq_ok, bailIf_eq_ok]
    exact ⟨(), by simp [hfloor f rfl], rfl⟩

/-- A genesis in an empty directory. -/
theorem initializeRepository_empty {ownerLabel : Text} {draws : Draws} {prepared : Prepared}
    {id : Text} {object : Bytes}
    (hprepared : genesisManifest P key ownerLabel draws = .ok prepared)
    (hsealed : sealNext P key draws.coins none prepared = .ok (id, object))
    (hcheck : selfCheck P none prepared object = .ok ())
    (hsmall : object.length ≤ MAX_MANIFEST_BYTES) :
    initializeRepository P (Directory.storage P location).logged key ownerLabel draws
        (resting .empty [] none git)
      = (.ok ⟨id, [(id, prepared.manifest)]⟩,
        resting ((Directory.empty.withObject .manifest id object).replaceHead id true) [object]
          (some (ContinuityFloor.at id prepared.manifest)) git) := by
  obtain ⟨-, -, -, -, hid⟩ := sealNext_eq_ok.mp hsealed
  have hput : (Directory.storage P location).putObjectIfAbsent .manifest id object .empty
      = (.ok (), Directory.empty.withObject .manifest id object) :=
    Directory.putObject_new hid.symm hsmall rfl
  have hswap : (Directory.storage P location).compareAndSwapHead none id
      (Directory.empty.withObject .manifest id object) = (.ok (), _) :=
    Directory.compareAndSwapHead_held rfl (isObjectId_digest ⟨_, hid⟩)
  -- nothing stands in the way of a genesis, step by step up to the swap
  have hprepare : prepareGenesis P (Directory.storage P location).logged key ownerLabel draws
      (resting .empty [] none git) = (.ok (prepared, id),
        resting (Directory.empty.withObject .manifest id object) [object] none git) := by
    refine Action.bind_eq_ok.mpr ⟨(), resting .empty [] none git, rfl, ?_⟩
    refine Action.bind_eq_ok.mpr ⟨none, resting .empty [] none git,
      onStorage_resting rfl, ?_⟩
    refine Action.bind_eq_ok.mpr ⟨(), _, Action.lift_eq_ok.mpr ⟨rfl, rfl⟩, ?_⟩
    refine Action.bind_eq_ok.mpr ⟨none, resting .empty [] none git, rfl, ?_⟩
    refine Action.bind_eq_ok.mpr ⟨(), _, Action.lift_eq_ok.mpr ⟨rfl, rfl⟩, ?_⟩
    refine Action.bind_eq_ok.mpr ⟨prepared, _, Action.lift_eq_ok.mpr ⟨hprepared, rfl⟩, ?_⟩
    refine Action.bind_eq_ok.mpr ⟨id, _, onStorage_resting ?_, rfl⟩
    refine Action.bind_eq_ok.mpr ⟨(id, object), _, Action.lift_eq_ok.mpr ⟨hsealed, rfl⟩, ?_⟩
    exact Action.bind_eq_ok.mpr ⟨(), (Directory.empty.withObject .manifest id object, [object]),
      putObject_logged hput, Action.bind_eq_ok.mpr
        ⟨(), _, Action.lift_eq_ok.mpr ⟨hcheck, rfl⟩, rfl⟩⟩
  refine Action.bind_eq_ok.mpr
    ⟨(prepared, id), _, by simp only [Action.mapError, hprepare]; rfl, ?_⟩
  refine Action.bind_eq_ok.mpr ⟨(), resting ((Directory.empty.withObject .manifest id
    object).replaceHead id true) [object] none git, ?_, ?_⟩
  · simp only [Action.mapError, onStorage_resting (compareAndSwapHead_logged hswap)]
    rfl
  · exact Action.bind_eq_ok.mpr ⟨(), _, rfl, rfl⟩

/-- A directory serves its manifests with a transcript too, which stays among them. -/
theorem serves_logged {objects : List Bytes} {d : Directory} (h : d.Holds P objects)
    (hsmall : ∀ object ∈ objects, object.length ≤ MAX_MANIFEST_BYTES) :
    Serves (readManifestMaterial P (Directory.storage P location).logged) unbudgeted
      (Shelved P objects) (fun _ s => s.1 = d ∧ s.2 ⊆ objects) := by
  rintro n ⟨d', log⟩ name m ⟨rfl, hlog⟩ ⟨hmem, hcheck⟩
  obtain ⟨-, -, hid, -⟩ := checkMaterial_ok hcheck
  have hget : (Directory.storage P location).getObject .manifest name d' = (.ok m.encrypted, d') :=
    Directory.getObject_held (isObjectId_digest ⟨_, hid.symm⟩) (by rw [← hid]; exact h _ hmem)
      (hsmall _ hmem)
  -- what is read goes into the transcript, and is one of the manifests
  obtain ⟨reader, d₁, hopen, hlift⟩ := Action.bind_eq_ok.mp hget
  obtain ⟨hbuffered, rfl⟩ := Action.lift_eq_ok.mp hlift
  refine ⟨(d₁, reader.bytes :: log), _, Action.bind_eq_ok.mpr ⟨m.encrypted, _, ?_,
    Action.lift_eq_ok.mpr ⟨hcheck, rfl⟩⟩, rfl, rfl, ?_⟩
  · refine Action.bind_eq_ok.mpr ⟨reader, _, ?_, Action.lift_eq_ok.mpr ⟨hbuffered, rfl⟩⟩
    simp only [Storage.logged, noting, hopen, openedManifest, if_true, List.singleton_append]
  · rw [← buffered_ok hbuffered]
    exact List.cons_subset.mpr ⟨hmem, hlog⟩

/-- The floor was never set, or it is at this head. -/
def Rests (p : OpenedState) (floor : Option ContinuityFloor) : Prop :=
  ∀ f, floor = some f → f = ContinuityFloor.at p.id p.manifest

theorem Rests.read {p : OpenedState} {floor : Option ContinuityFloor} (h : Rests p floor) :
    FloorGuard.read ⟨floor, []⟩ = (.ok floor, ⟨floor, []⟩) :=
  read_floor fun f hf => by rw [h f hf]; rfl

/-- Such a floor accepts the head. -/
theorem Rests.validatePinnedHead {p : OpenedState} {floor : Option ContinuityFloor}
    (h : Rests p floor) (chain : List OpenedState) :
    validatePinnedHead (p :: chain) floor = .ok () := by
  cases floor with
  | none => rfl
  | some f =>
    rw [h f rfl]
    simp only [GitE2EE.validatePinnedHead, checkFloor, except_bind_eq_ok, orBail_eq_ok,
      bailIf_eq_ok]
    exact ⟨p, rfl, (), by simp [ContinuityFloor.at], (), by simp [ContinuityFloor.at], (),
      by simp [ContinuityFloor.at], p, by simp [ContinuityFloor.at], by simp [ContinuityFloor.at]⟩

/-- A floor that is there already is not written again. -/
theorem advances_self (floor : ContinuityFloor) : FloorGuard.advances floor floor = .ok false := by
  simp only [FloorGuard.advances, lt_self_iff_false, if_false, except_bind_eq_ok, bailIf_eq_ok]
  exact ⟨(), by simp, (), by simp, (), by simp, by simp [pure, Except.pure]⟩

/-- Accepting the head leaves the floor at it. -/
theorem Rests.advanceFloor {S : Type} {p : OpenedState} {floor : Option ContinuityFloor}
    (h : Rests p floor) (s : S) (git : G) :
    advanceFloor p.id p.manifest ⟨s, ⟨floor, []⟩, git⟩
      = (.ok (), ⟨s, ⟨some (ContinuityFloor.at p.id p.manifest), []⟩, git⟩) := by
  cases floor with
  | none => rfl
  | some f =>
    obtain rfl := h f rfl
    have hadvance : FloorGuard.advance (ContinuityFloor.at p.id p.manifest)
        ⟨some (ContinuityFloor.at p.id p.manifest), []⟩ = (.ok (), _) :=
      Action.bind_eq_ok.mpr ⟨_, _, h.read, Action.bind_eq_ok.mpr
        ⟨false, _, Action.lift_eq_ok.mpr ⟨advances_self _, rfl⟩, rfl⟩⟩
    simp only [GitE2EE.advanceFloor, onFloor, Action.zoom, hadvance]

/-- The pinned head is the one that is there, if the floor can be read and accepts it. -/
theorem pinnedState_of_chain {S : Type} {storage : Storage S} {s s' : S} {git : G}
    {file file' : FloorFile} {floor : Option ContinuityFloor} {p : OpenedState}
    {chain : List OpenedState} (hread : FloorGuard.read file = (.ok floor, file'))
    (hchain : currentChain P storage key s = (.ok (p :: chain), s'))
    (hvalid : validatePinnedHead (p :: chain) floor = .ok ()) :
    pinnedState P storage key (⟨s, file, git⟩ : Machine S G)
      = (.ok (p, p :: chain), ⟨s', file', git⟩) := by
  refine Action.bind_eq_ok.mpr ⟨p :: chain, ⟨s', file', git⟩, ?_,
    Action.bind_eq_ok.mpr ⟨p, _, Action.lift_eq_ok.mpr ⟨rfl, rfl⟩, rfl⟩⟩
  refine Action.bind_eq_ok.mpr ⟨floor, ⟨s, file', git⟩, ?_, ?_⟩
  · simp only [onFloor, Action.zoom, hread]
  · refine Action.bind_eq_ok.mpr ⟨p :: chain, ⟨s', file', git⟩, ?_, ?_⟩
    · simp only [onStorage, Action.zoom, hchain]
    · simp only [hvalid]
      rfl

/-- A machine whose floor is at the head reads the chain, and rests again. -/
theorem currentManifest_resting {root : Text} {objects : List Bytes} {d : Directory}
    (location : String) (git : G) (log : List Bytes) (h : d.Holds P objects)
    (hsmall : ∀ object ∈ objects, object.length ≤ MAX_MANIFEST_BYTES)
    (hinj : Set.InjOn (objectId P) { object | object ∈ objects }) {p : OpenedState}
    {chain : List OpenedState} (hchain : Authentic P root (Shelved P objects) (p :: chain))
    (hpacks : (packIds (p :: chain)).Nodup) (hroot : key.repositoryRoot = root)
    (hkey : unwrapGenerationKey P p.header key = .ok p.generationKey)
    (hhead : d.Formatted (some p.id)) (hlog : log ⊆ objects) :
    ∃ log', log' ⊆ objects ∧ currentManifest P (Directory.storage P location).logged key
        (resting d log (some (ContinuityFloor.at p.id p.manifest)) git)
      = (.ok ⟨(p.id, p.manifest), entriesOf (p :: chain)⟩,
        resting d log' (some (ContinuityFloor.at p.id p.manifest)) git) := by
  have hserves : Serves (readManifestMaterial P (Directory.storage P location).logged) unbudgeted
      (Shelved P objects) (fun _ s => s.1 = d ∧ s.2 ⊆ objects) := serves_logged h hsmall
  obtain ⟨⟨d', log'⟩, hwalk, rfl, hlog'⟩ := chainFrom_of_authentic (shelved_archive hinj) hserves
    hchain hpacks hroot hkey (n := 0) (s := (d, log)) ⟨rfl, hlog⟩
  have hcurrent : currentChain P (Directory.storage P location).logged key (d', log)
      = (.ok (p :: chain), (d', log')) := by
    refine Action.bind_eq_ok.mpr ⟨some p.id, (d', log), ?_, Action.bind_eq_ok.mpr
      ⟨p.id, _, Action.lift_eq_ok.mpr ⟨rfl, rfl⟩, hwalk⟩⟩
    simp only [Storage.logged, noting, Directory.storage, hhead.readHead, List.nil_append]
  have hrests : Rests p (some (ContinuityFloor.at p.id p.manifest)) := by
    rintro f ⟨⟩
    rfl
  refine ⟨log', hlog', Action.bind_eq_ok.mpr ⟨⟨p, entriesOf (p :: chain)⟩, _, ?_, rfl⟩⟩
  refine Action.bind_eq_ok.mpr ⟨(), resting d' log (some (ContinuityFloor.at p.id p.manifest)) git,
    rfl, Action.bind_eq_ok.mpr ⟨(p, p :: chain), resting d' log' (some
      (ContinuityFloor.at p.id p.manifest)) git, ?_, ?_⟩⟩
  · exact pinnedState_of_chain hrests.read hcurrent (hrests.validatePinnedHead chain)
  · exact Action.bind_eq_ok.mpr ⟨(), _, hrests.advanceFloor _ _, rfl⟩

end

theorem mapError_map_ok {ε ε' σ α β : Type} {wrap : ε → ε'} {f : α → β} {x : Action ε σ α}
    {s t : σ} {r : α} (h : x s = (.ok r, t)) :
    Action.mapError wrap (f <$> x) s = (.ok (f r), t) := by
  have hmap : (f <$> x) s = (.ok (f r), t) := Action.bind_eq_ok.mpr ⟨r, t, h, rfl⟩
  simp only [Action.mapError, hmap]
  rfl

/-- A call is the operation it names. -/
theorem run_initializeRepository (call : Call S G) {ownerLabel : Text} {draws : Draws}
    {m m' : Machine S G} {r : Accepted Text}
    (hop : call.operation = .initializeRepository ownerLabel draws)
    (h : initializeRepository P call.storage call.key ownerLabel draws m = (.ok r, m')) :
    call.run P m = (.ok r.chain, m') := by
  unfold Call.run
  rw [hop]
  exact mapError_map_ok h

theorem run_currentManifest (call : Call S G) {m m' : Machine S G}
    {r : Accepted (Text × Manifest)} (hop : call.operation = .currentManifest)
    (h : currentManifest P call.storage call.key m = (.ok r, m')) :
    call.run P m = (.ok r.chain, m') := by
  unfold Call.run
  rw [hop]
  exact mapError_map_ok h

/-- A creation in an empty directory, and a reading of it. -/
def creation (P : Primitives) (repo : GitRepository G) (key : KeyFile) (ownerLabel : Text)
    (draws : Draws) : List (Call Directory G) :=
  [⟨Directory.storage P "repository", repo, key, .initializeRepository ownerLabel draws⟩,
    ⟨Directory.storage P "repository", repo, key, .currentManifest⟩]

/-- **What the creation does**, with its transcript: if its genesis can be sealed and is
an authentic chain, both operations succeed with one head. -/
theorem creation_logged (repo : GitRepository G) (git : G) {key : KeyFile} {ownerLabel : Text}
    {draws : Draws} {prepared : Prepared} {p : OpenedState} {object : Bytes}
    (hprepared : genesisManifest P key ownerLabel draws = .ok prepared)
    (hsealed : sealNext P key draws.coins none prepared = .ok (p.id, object))
    (hcheck : selfCheck P none prepared object = .ok ())
    (hmanifest : p.manifest = prepared.manifest)
    (hsmall : object.length ≤ MAX_MANIFEST_BYTES)
    (hauthentic : Authentic P key.repositoryRoot (Shelved P [object]) [p])
    (hpacks : (packIds [p]).Nodup)
    (hkey : unwrapGenerationKey P p.header key = .ok p.generationKey) :
    ∃ log ⊆ [object],
      runCalls P ((creation P repo key ownerLabel draws).map Call.logged)
          (Machine.logged ⟨.empty, ⟨none, []⟩, git⟩)
        = ([⟨.ok [(p.id, p.manifest)], some (ContinuityFloor.at p.id p.manifest)⟩,
            ⟨.ok [(p.id, p.manifest)], some (ContinuityFloor.at p.id p.manifest)⟩],
          resting ((Directory.empty.withObject .manifest p.id object).replaceHead p.id true) log
            (some (ContinuityFloor.at p.id p.manifest)) git) := by
  obtain ⟨-, -, -, -, hid⟩ := sealNext_eq_ok.mp hsealed
  have hinit : initializeRepository P (Directory.storage P "repository").logged key ownerLabel draws
      (resting .empty [] none git) = (.ok ⟨p.id, [(p.id, prepared.manifest)]⟩, _) :=
    initializeRepository_empty hprepared hsealed hcheck hsmall
  rw [← hmanifest] at hinit
  have hholds : ((Directory.empty.withObject .manifest p.id object).replaceHead p.id true).Holds P
      [object] := by
    intro o ho
    rw [List.mem_singleton.mp ho, ← hid]
    simp [Directory.replaceHead, Directory.withObject]
  have hinj : Set.InjOn (objectId P) { o | o ∈ [object] } := by
    intro a ha b hb _
    rw [List.mem_singleton.mp ha, List.mem_singleton.mp hb]
  obtain ⟨log, hlog, hcurrent⟩ := currentManifest_resting "repository" git [object] hholds
    (fun o ho => by rw [List.mem_singleton.mp ho]; exact hsmall) hinj
    hauthentic hpacks rfl hkey
    (Directory.formatted_replaceHead (isObjectId_digest ⟨_, hid⟩) fun h => (by cases h))
    (List.Subset.refl _)
  refine ⟨log, hlog, ?_⟩
  have hfirst := run_initializeRepository (Call.logged
    ⟨Directory.storage P "repository", repo, key, .initializeRepository ownerLabel draws⟩) rfl hinit
  have hsecond := run_currentManifest (Call.logged
    ⟨Directory.storage P "repository", repo, key, .currentManifest⟩) rfl hcurrent
  rw [show Machine.logged ⟨.empty, ⟨none, []⟩, git⟩ = resting .empty [] none git from rfl]
  simp only [creation, List.map_cons, List.map_nil, runCalls, hfirst, hsecond]
  rfl

/-- With the reference libraries the owner's genesis is such a chain. -/
theorem operations_continuous_created : ∃ head : Text × Manifest,
    (runCalls Reference.primitives (creation Reference.primitives Reference.checkout
        Reference.ownerKey (text "owner") (Reference.draws 0)) ⟨.empty, ⟨none, []⟩, none⟩).1
      = [⟨.ok [head], some (ContinuityFloor.at head.1 head.2)⟩,
        ⟨.ok [head], some (ContinuityFloor.at head.1 head.2)⟩]
      ∧ Continuous (runCalls Reference.primitives (creation Reference.primitives Reference.checkout
        Reference.ownerKey (text "owner") (Reference.draws 0)) ⟨.empty, ⟨none, []⟩, none⟩).1 := by
  obtain ⟨prepared, object, p, hprepared, hsealed, hcheck, hmanifest, hsample, hsmall, -⟩ :=
    Reference.genesis_published
  obtain ⟨log, hlog, hrun⟩ := creation_logged Reference.checkout none hprepared
    hsealed hcheck hmanifest (hsmall object (List.mem_singleton_self _)) hsample.authentic
    hsample.packs_nodup hsample.unwraps
  refine ⟨(p.id, p.manifest), ?_, operations_continuous Reference.lawful.json _ _ rfl ?_⟩
  · have hlogged := congrArg Prod.fst hrun
    rw [← runCalls_logged] at hlogged
    exact hlogged
  · rw [hrun]
    intro a ha b hb _
    rw [List.mem_singleton.mp (hlog ha), List.mem_singleton.mp (hlog hb)]

end GitE2EE

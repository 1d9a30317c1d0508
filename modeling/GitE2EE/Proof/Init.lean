import GitE2EE.Proof.Discreet
import GitE2EE.Proof.Samples

/-!
# A key is removed only if nothing was published under it

`git-e2ee init` decides from the kind of an error whether to remove the key it has made.
The kinds are right because of what the backends do (`Discreet`). Everything that can go
wrong from the swap on, a refusal as occupied apart, leaves the key where it is.

At the end are two calls on a carrier: one whose push lands unanswered and one that finds
the branch taken.
-/

namespace GitE2EE

open Wire Effect

/-! ## Key files -/

namespace KeyFiles

/-- The same files with the same bytes. -/
def Unchanged (files files' : KeyFiles) : Prop := files'.content = files.content

/-- What is there stays as it is. -/
def Kept (files files' : KeyFiles) : Prop :=
  ∀ path bytes, files.content path = some bytes → files'.content path = some bytes

theorem Unchanged.kept {files files' : KeyFiles} (h : files.Unchanged files') :
    files.Kept files' := fun path bytes hpath => by rw [h, hpath]

theorem Unchanged.refl (files : KeyFiles) : files.Unchanged files := Eq.refl files.content

theorem Unchanged.trans {a b c : KeyFiles} (h : a.Unchanged b) (h' : b.Unchanged c) :
    a.Unchanged c := Eq.trans h' h

/-- An access has its effect or none, and can fail either way. -/
theorem access_cases {α : Type}
    (effect : (Text → Option Bytes) → Result α × (Text → Option Bytes)) (files : KeyFiles) :
    ((∃ e, (access effect files).1 = .error e) ∧ files.Unchanged (access effect files).2)
    ∨ ((access effect files).2.content = (effect files.content).2
      ∧ ((access effect files).1 = (effect files.content).1
        ∨ ∃ e, (access effect files).1 = .error e)) := by
  unfold access
  rcases files.faults with _ | ⟨_ | e | e, rest⟩
  · exact .inr ⟨rfl, .inl rfl⟩
  · exact .inr ⟨rfl, .inl rfl⟩
  · exact .inl ⟨⟨e, rfl⟩, rfl⟩
  · exact .inr ⟨rfl, .inr ⟨e, rfl⟩⟩

/-- An access without an effect changes nothing. -/
theorem keeps_access {α : Type}
    {effect : (Text → Option Bytes) → Result α × (Text → Option Bytes)}
    (h : ∀ content, (effect content).2 = content) : Keeps Unchanged (access effect) := by
  intro files
  rcases access_cases effect files with ⟨-, hsame⟩ | ⟨hsame, -⟩
  · exact hsame
  · exact hsame.trans (h _)

theorem keeps_read (path : Text) : Keeps Unchanged (read path) := by
  refine keeps_access fun content => ?_
  cases content path <;> rfl

theorem keeps_exists (path : Text) : Keeps Unchanged (KeyFiles.exists path) := by
  refine .bind (fun _ _ _ h h' => h.trans h') (.attempt (keeps_access fun _ => rfl))
    fun present => ?_
  cases present <;> exact fun _ => rfl

theorem keeps_syncAll : Keeps Unchanged syncAll := keeps_access fun _ => rfl

/-- A file that is created was not there. -/
theorem createNew_cases (path : Text) (files : KeyFiles) :
    files.Unchanged (createNew path files).2
    ∨ (files.content path = none
      ∧ (createNew path files).2.content = Function.update files.content path (some [])) := by
  rcases access_cases _ files with ⟨-, hsame⟩ | ⟨heffect, -⟩
  · exact .inl hsame
  · cases hpath : files.content path with
    | some bytes =>
      rw [hpath] at heffect
      exact .inl heffect
    | none =>
      rw [hpath] at heffect
      exact .inr ⟨rfl, heffect⟩

/-- A creation that is reported done has taken place. -/
theorem createNew_ok {path : Text} {files files' : KeyFiles}
    (h : createNew path files = (.ok (), files')) :
    files.content path = none
      ∧ files'.content = Function.update files.content path (some []) := by
  have hresult : (createNew path files).1 = .ok () := by rw [h]
  rcases access_cases _ files with ⟨⟨e, he⟩, -⟩ | ⟨heffect, hsame | ⟨e, he⟩⟩
  · exact absurd (he.symm.trans hresult) (by simp)
  · cases hpath : files.content path with
    | some bytes =>
      rw [hpath] at hsame
      exact absurd (hsame.symm.trans hresult) (by simp)
    | none =>
      rw [hpath] at heffect
      exact ⟨rfl, (congrArg (·.2.content) h.symm).trans heffect⟩
  · exact absurd (he.symm.trans hresult) (by simp)

/-- Writing changes the one file, if any. -/
theorem writeAll_cases (path : Text) (bytes : Bytes) (files : KeyFiles) :
    files.Unchanged (writeAll path bytes files).2
    ∨ (writeAll path bytes files).2.content
      = Function.update files.content path (some bytes) := by
  rcases access_cases _ files with ⟨-, hsame⟩ | ⟨heffect, -⟩
  · exact .inl hsame
  · exact .inr heffect

/-- Removing a file leaves the others. -/
theorem removeFile_other {path other : Text} (h : other ≠ path) (files : KeyFiles) :
    (removeFile path files).2.content other = files.content other := by
  rcases access_cases _ files with ⟨-, hsame⟩ | ⟨heffect, -⟩
  · exact congrFun hsame other
  · refine (congrFun heffect other).trans ?_
    cases files.content path with
    | none => rfl
    | some bytes => exact Function.update_of_ne h _ _

end KeyFiles

/-- A file put where nothing was. -/
theorem KeyFiles.kept_of_update {files files' : KeyFiles} {path : Text} {bytes : Bytes}
    (hfree : files.content path = none)
    (h : files'.content = Function.update files.content path (some bytes)) : files.Kept files' := by
  intro other present hother
  have hne : other ≠ path := fun heq => by
    rw [heq, hfree] at hother
    cases hother
  rw [h, Function.update_of_ne hne, hother]

/-- From the moment the file is there, it has some bytes. -/
theorem KeyFiles.fill_cases (path : Text) (bytes : Bytes) {content : Text → Option Bytes}
    {made : KeyFiles} (h : made.content = Function.update content path (some [])) :
    ∃ written, ((do writeAll path bytes; syncAll : Action Error KeyFiles Unit) made).2.content
      = Function.update content path (some written) := by
  have hwrite : ∃ written, (writeAll path bytes made).2.content
      = Function.update content path (some written) := by
    rcases writeAll_cases path bytes made with hsame | hset
    · exact ⟨[], Eq.trans hsame h⟩
    · exact ⟨bytes, by rw [hset, h, Function.update_idem]⟩
  rcases Action.bind_cases (writeAll path bytes) (fun _ => syncAll) made
    with ⟨_, after, hrun, heq⟩ | ⟨e, after, hrun, heq⟩
  · rw [hrun] at hwrite
    obtain ⟨written, hwritten⟩ := hwrite
    exact ⟨written, by rw [heq, keeps_syncAll after, hwritten]⟩
  · rw [hrun] at hwrite
    rw [heq]
    exact hwrite

/-- **A new key is written where nothing was**, and nothing else changes. -/
theorem KeyFile.writeNew_kept (codec : KeyCodec) (key : KeyFile) (path : Text) (files : KeyFiles) :
    files.Kept (key.writeNew codec path files).2
    ∧ ((key.writeNew codec path files).1 = .ok () → files.content path = none
      ∧ (key.writeNew codec path files).2.content path ≠ none) := by
  unfold KeyFile.writeNew
  cases codec.encode key with
  | error e => exact ⟨KeyFiles.Unchanged.kept rfl, (fun h => by cases h)⟩
  | ok bytes =>
    rw [Action.bind_of_ok (x := Action.lift (.ok bytes)) (a := bytes) (s := files) rfl]
    have hcreate : ∀ note, (noted note (KeyFiles.createNew path) files).2
        = (KeyFiles.createNew path files).2 := fun note => rfl
    rcases Action.bind_cases (noted (s!"create key file {render path}") (KeyFiles.createNew path))
      (fun _ => do KeyFiles.writeAll path bytes; KeyFiles.syncAll) files
      with ⟨_, made, hrun, heq⟩ | ⟨e, made, hrun, heq⟩
    · rw [heq]
      -- the note on an error does not change what happened
      have hok : KeyFiles.createNew path files = (.ok (), made) := by
        cases hcall : KeyFiles.createNew path files with
        | mk result after =>
          simp only [noted, Action.mapError, hcall, Prod.mk.injEq] at hrun
          cases result with
          | ok _ => rw [hrun.2]
          | error e => cases hrun.1
      obtain ⟨hfree, hmade⟩ := KeyFiles.createNew_ok hok
      obtain ⟨written, hwritten⟩ := KeyFiles.fill_cases path bytes hmade
      refine ⟨KeyFiles.kept_of_update hfree hwritten, fun _ => ⟨hfree, ?_⟩⟩
      rw [hwritten, Function.update_self]
      exact Option.some_ne_none written
    · rw [heq]
      -- a creation that fails may have left the empty file
      have hmade : (KeyFiles.createNew path files).2 = made := by
        rw [← hcreate, hrun]
      refine ⟨?_, (fun h => by cases h)⟩
      rcases KeyFiles.createNew_cases path files with hsame | ⟨hfree, hset⟩
      · rw [hmade] at hsame
        exact hsame.kept
      · rw [hmade] at hset
        exact KeyFiles.kept_of_update hfree hset

/-! ## Choosing the key -/

section

variable {ι τ υ G : Type} (codec : KeyCodec) (request : InitRequest)

/-- Only key files have changed, and none that was there. -/
structure Desk.AddsKeys (desk desk' : Desk ι τ υ G) : Prop where
  keys : desk.keys.Kept desk'.keys
  directory : desk'.directory = desk.directory
  carrier : desk'.carrier = desk.carrier

theorem Desk.AddsKeys.refl (desk : Desk ι τ υ G) : desk.AddsKeys desk :=
  ⟨KeyFiles.Unchanged.kept rfl, rfl, rfl⟩

theorem Desk.AddsKeys.trans {a b c : Desk ι τ υ G} (h : a.AddsKeys b) (h' : b.AddsKeys c) :
    a.AddsKeys c :=
  ⟨fun path bytes hpath => h'.keys path bytes (h.keys path bytes hpath),
    h'.directory.trans h.directory, h'.carrier.trans h.carrier⟩

theorem Desk.keeps_onKeys {α : Type} {x : Action Error KeyFiles α} (h : Keeps KeyFiles.Kept x) :
    Keeps Desk.AddsKeys (Desk.onKeys x : Action Error (Desk ι τ υ G) α) :=
  fun desk => ⟨h desk.keys, rfl, rfl⟩

/-- A key is added to the files, and no other file is touched. -/
theorem keeps_createKey (path : Text) :
    Keeps Desk.AddsKeys (createKey codec request path : Action Error (Desk ι τ υ G) _) :=
  .bind (fun _ _ _ h h' => h.trans h') (.lift .refl) fun target =>
    .bind (fun _ _ _ h h' => h.trans h')
      (Desk.keeps_onKeys fun files => (request.generated.writeNew_kept codec target files).1)
      fun _ => .pure .refl

theorem keeps_keyExists (path : Text) :
    Keeps Desk.AddsKeys (keyExists request path : Action Error (Desk ι τ υ G) _) := by
  unfold keyExists
  split
  · exact Desk.keeps_onKeys fun files => (KeyFiles.keeps_exists _ files).kept
  · exact .pure .refl

/-- **Choosing a key** adds at most one file. -/
theorem keeps_chooseKey :
    Keeps Desk.AddsKeys (chooseKey codec request : Action Error (Desk ι τ υ G) _) := by
  unfold chooseKey
  split
  · refine .bind (fun _ _ _ h h' => h.trans h') (keeps_keyExists request _) fun present => ?_
    cases present with
    | true => exact .pure .refl
    | false => exact keeps_createKey codec request _
  · exact .bind (fun _ _ _ h h' => h.trans h') (.lift .refl) fun path =>
      keeps_createKey codec request path

/-- The key this call made was not there before, and is there now. -/
def MadeAt (target : Text) (desk desk' : Desk ι τ υ G) : Prop :=
  desk.keys.content target = none ∧ desk'.keys.content target ≠ none

/-- A key that was created was not there before. -/
theorem createKey_made {path : Text} {made : Text × Bool} {desk desk' : Desk ι τ υ G}
    (h : createKey codec request path desk = (.ok made, desk')) :
    MadeAt (absolutePath request.dir made.1) desk desk' := by
  obtain ⟨target, desk₁, htarget, h⟩ := Action.bind_eq_ok.1 h
  obtain ⟨_, desk₂, hwrite, h⟩ := Action.bind_eq_ok.1 h
  cases h
  obtain ⟨htarget, rfl⟩ := Action.lift_eq_ok.1 htarget
  have hpath : target = absolutePath request.dir path := by
    unfold absolute at htarget
    split at htarget
    · cases htarget
    · cases htarget
      rfl
  obtain ⟨hrun, hdesk⟩ := Action.zoom_eq hwrite
  have hmade := (request.generated.writeNew_kept codec target desk.keys).2 (congrArg Prod.fst hrun)
  rw [← hpath]
  exact ⟨hmade.1, by rw [hdesk]; exact hmade.2⟩

/-- The same of the key that was chosen, if the call made it. -/
theorem chooseKey_made {path : Text} {desk desk' : Desk ι τ υ G}
    (h : chooseKey codec request desk = (.ok (path, true), desk')) :
    MadeAt (absolutePath request.dir path) desk desk' := by
  rw [chooseKey] at h
  cases hkey : request.key with
  | some given =>
    rw [hkey] at h
    obtain ⟨present, desk₁, hexists, h⟩ := Action.bind_eq_ok.1 h
    cases present with
    | true => cases h
    | false =>
      have hmade := createKey_made codec request h
      -- what was not there after looking was not there before
      have hkept := (keeps_keyExists request given desk).keys
      rw [hexists] at hkept
      refine ⟨?_, hmade.2⟩
      cases hbefore : desk.keys.content (absolutePath request.dir path) with
      | none => rfl
      | some bytes => exact absurd (hkept _ _ hbefore) (by rw [hmade.1]; exact nofun)
  | none =>
    rw [hkey] at h
    obtain ⟨target, desk₁, htarget, h⟩ := Action.bind_eq_ok.1 h
    obtain ⟨-, rfl⟩ := Action.lift_eq_ok.1 htarget
    exact createKey_made codec request h

end

/-! ## The attempt -/

section

variable {ι τ υ G : Type} [DecidableEq ι] {i : ι}
  (P : Primitives) (codec : KeyCodec) (D : Adversary Host.platform (Host.SameHeads i) i τ)
  (C : Adversary Carrier.platform (Carrier.SameHeads i) i υ) (names : Host ι × τ → RandomNames)
  (token : Option Commit → Bytes) (request : InitRequest)

/-- This call has set neither head. -/
structure Desk.SameHeads (i : ι) (desk desk' : Desk ι τ υ G) : Prop where
  directory : DirectoryClient.SameHeads i desk.directory desk'.directory
  carrier : CarrierClient.SameHeads i desk.carrier desk'.carrier

theorem Desk.SameHeads.refl (desk : Desk ι τ υ G) : Desk.SameHeads i desk desk := ⟨.refl _, .refl _⟩

theorem Desk.SameHeads.trans {a b c : Desk ι τ υ G} (h : Desk.SameHeads i a b)
    (h' : Desk.SameHeads i b c) : Desk.SameHeads i a c :=
  ⟨h.directory.trans h'.directory, h.carrier.trans h'.carrier⟩

theorem Desk.AddsKeys.sameHeads {desk desk' : Desk ι τ υ G} (h : desk.AddsKeys desk') :
    Desk.SameHeads i desk desk' := by
  refine ⟨?_, ?_⟩
  · rw [h.directory]
    exact .refl _
  · rw [h.carrier]
    exact .refl _

/-- Nothing of a key file is changed, and no head is set. -/
structure Desk.Idle (i : ι) (desk desk' : Desk ι τ υ G) : Prop where
  keys : desk.keys.Unchanged desk'.keys
  heads : Desk.SameHeads i desk desk'

theorem Desk.Idle.refl (desk : Desk ι τ υ G) : Desk.Idle i desk desk := ⟨rfl, .refl desk⟩

theorem Desk.Idle.trans {a b c : Desk ι τ υ G} (h : Desk.Idle i a b) (h' : Desk.Idle i b c) :
    Desk.Idle i a c := ⟨h.keys.trans h'.keys, h.heads.trans h'.heads⟩

/-- Opening the storage reads the key and looks at the remote. -/
theorem keeps_openTarget (url : StorageUrl) (path : Text) : Keeps (Desk.Idle i)
    (openTarget codec C request url path : Action Error (Desk ι τ υ G) _) := by
  have hread : ∀ target, Keeps (Desk.Idle i)
      (Desk.onKeys (KeyFile.read codec target) : Action Error (Desk ι τ υ G) _) := by
    intro target desk
    have hkeys : Keeps KeyFiles.Unchanged (KeyFile.read codec target) :=
      .bind (fun _ _ _ h h' => h.trans h') (KeyFiles.keeps_read target) fun _ =>
        .bind (fun _ _ _ h h' => h.trans h') (.lift .refl) fun _ =>
        .bind (fun _ _ _ h h' => h.trans h') (.lift .refl) fun _ => .pure .refl
    exact ⟨hkeys desk.keys, .refl _, .refl _⟩
  have hopen : Keeps (Desk.Idle i) (openStorage C url : Action Error (Desk ι τ υ G) _) := by
    cases url with
    | directory root => exact .pure .refl
    | git remote =>
      have hconnect : Keeps (CarrierClient.SameHeads i) (GitStorage.connect C remote) :=
        .bind (fun _ _ _ h h' => h.trans h') (keeps_onWorld C (GitStorage.silent_open remote))
          fun _ => .bind (fun _ _ _ h h' => h.trans h') (fun client => .refl client)
          fun _ => .pure .refl
      exact .bind (fun _ _ _ h h' => h.trans h')
        (fun desk => ⟨rfl, .refl _, hconnect desk.carrier⟩) fun _ => .pure .refl
  exact .bind (fun _ _ _ h h' => h.trans h') (.lift .refl) fun target =>
    .bind (fun _ _ _ h h' => h.trans h') (hread target) fun _ =>
    .bind (fun _ _ _ h h' => h.trans h') (.lift .refl) fun _ =>
    .bind (fun _ _ _ h h' => h.trans h') hopen fun _ => .pure .refl

/-- How the swap of the genesis head ended in this call, if it came to one. -/
def attemptedSwap (url : StorageUrl) (path : Text) (desk : Desk ι τ υ G) : Option (Result Unit) :=
  match openTarget codec C request url path desk with
  | (.ok (key, .directory storage), desk) => genesisSwap P key (storage.backend D P names)
      request.label request.draws desk.directoryMachine
  | (.ok (key, .carrier storage), desk) => genesisSwap P key (storage.backend C token)
      request.label request.draws desk.carrierMachine
  | (.error _, _) => none

/-- The outcome on which a key is removed. -/
def FailedBefore : Except Error (Except InitializeError (Accepted Text)) → Prop
  | .ok (.error (.beforePublication _)) | .error _ => True
  | _ => False

/-- The swap was refused as occupied. -/
def RefusedAsOccupied (outcome : Result Unit) : Prop :=
  ∃ refusal, outcome = .error refusal ∧ refusal.isStorageOccupied = true

/-- An error from before publication, on either kind of storage. -/
theorem initializeOn_before {key : KeyFile} {storage : OpenedStorage} {desk desk' : Desk ι τ υ G}
    {e : Error} (h : initializeOn P D C names token request key storage desk
      = (.ok (.error (.beforePublication e)), desk')) :
    Desk.SameHeads i desk desk' := by
  cases storage with
  | directory storage =>
    cases hrun : initializeRepository P (storage.backend D P names) key request.label request.draws
        desk.directoryMachine with
    | mk outcome machine =>
      rw [initializeOn, hrun] at h
      cases h
      exact ⟨(initializeRepository_before P key (storage.discreet D P names) hrun).1, .refl _⟩
  | carrier storage =>
    cases hrun : initializeRepository P (storage.backend C token) key request.label request.draws
        desk.carrierMachine with
    | mk outcome machine =>
      rw [initializeOn, hrun] at h
      cases h
      exact ⟨.refl _, (initializeRepository_before P key (storage.discreet C token) hrun).1⟩

theorem initializeOn_keys (key : KeyFile) (storage : OpenedStorage) (desk : Desk ι τ υ G) :
    (initializeOn P D C names token request key storage desk).2.keys = desk.keys := by
  cases storage <;> rfl

/-- **What the attempt leaves**: the key files as they were, and, on an outcome that removes
the key, no head of this call and no swap that may have taken effect. -/
theorem initAttempt_cases (url : StorageUrl) (path : Text) (desk : Desk ι τ υ G) :
    desk.keys.Unchanged (initAttempt P codec D C names token request url path desk).2.keys
    ∧ (FailedBefore (initAttempt P codec D C names token request url path desk).1 →
      Desk.SameHeads i desk (initAttempt P codec D C names token request url path desk).2
      ∧ ∀ outcome, attemptedSwap P codec D C names token request url path desk = some outcome →
        RefusedAsOccupied outcome) := by
  have hopen := keeps_openTarget (i := i) codec C request url path desk
  unfold attemptedSwap
  rcases Action.bind_cases (openTarget codec C request url path)
      (fun opened => initializeOn P D C names token request opened.1 opened.2) desk
    with ⟨⟨key, storage⟩, desk₁, hrun, heq⟩ | ⟨e, desk₁, hrun, heq⟩
  · have hattempt : initAttempt P codec D C names token request url path desk
        = initializeOn P D C names token request key storage desk₁ := heq
    rw [hrun] at hopen ⊢
    rw [hattempt]
    refine ⟨hopen.keys.trans (congrArg KeyFiles.content
      (initializeOn_keys P D C names token request key storage desk₁)), fun hfailed => ?_⟩
    -- storage that opened never fails outside `initialize` itself
    obtain ⟨e, hbefore⟩ : ∃ e, (initializeOn P D C names token request key storage desk₁).1
        = .ok (.error (.beforePublication e)) := by
      cases hresult : (initializeOn P D C names token request key storage desk₁).1 with
      | error e => cases storage <;> cases hresult
      | ok outcome =>
        rw [hresult] at hfailed
        match outcome, hfailed with
        | .error (.beforePublication e), _ => exact ⟨e, rfl⟩
    refine ⟨hopen.heads.trans (initializeOn_before P D C names token request
      (Prod.ext hbefore rfl)), ?_⟩
    cases storage with
    | directory storage =>
      have hrun : initializeRepository P (storage.backend D P names) key request.label request.draws
          desk₁.directoryMachine = (.error (.beforePublication e), _) :=
        Prod.ext (Except.ok.inj hbefore) rfl
      exact (initializeRepository_before P key (storage.discreet D P names) hrun).2
    | carrier storage =>
      have hrun : initializeRepository P (storage.backend C token) key request.label request.draws
          desk₁.carrierMachine = (.error (.beforePublication e), _) :=
        Prod.ext (Except.ok.inj hbefore) rfl
      exact (initializeRepository_before P key (storage.discreet C token) hrun).2
  · have hattempt : initAttempt P codec D C names token request url path desk
      = (.error e, desk₁) := heq
    rw [hrun] at hopen ⊢
    rw [hattempt]
    exact ⟨hopen.keys, fun _ => ⟨hopen.heads, (fun _ h => by cases h)⟩⟩

/-- An attempt on a carrier that comes to the genesis swap, which fails. -/
theorem initAttempt_refused {url : StorageUrl} {path : Text} {keyed opened : Desk ι τ υ G}
    {key : KeyFile} {storage : GitStorage} {prepared : Prepared} {id : Text}
    {m : Machine (CarrierClient ι υ) G} {e : Error} {client : CarrierClient ι υ}
    (hopen : openTarget codec C request url path keyed = (.ok (key, .carrier storage), opened))
    (hprepared : prepareGenesis P (storage.backend C token) key request.label request.draws
      opened.carrierMachine = (.ok (prepared, id), m))
    (hswap : (storage.backend C token).compareAndSwapHead none id m.storage
      = (.error e, client)) :
    attemptedSwap P codec D C names token request url path keyed = some (.error e)
    ∧ initAttempt P codec D C names token request url path keyed
      = (.ok (.error (swapFailure e)), opened.putCarrierMachine { m with storage := client }) := by
  constructor
  · rw [attemptedSwap, hopen]
    exact (genesisSwap_of_prepared hprepared).trans (by rw [hswap])
  · rw [initAttempt, Action.bind_of_ok hopen]
    simp only [initializeOn, initializeRepository_refused hprepared hswap]

/-! ## The whole command -/

/-- **A key is removed only if this call made it**, on an outcome that allows it. -/
theorem settleKey_cases (url : StorageUrl) (path : Text) (created : Bool)
    (outcome : Except Error (Except InitializeError (Accepted Text))) (desk : Desk ι τ υ G) :
    Desk.Idle i desk (settleKey request url path created outcome desk).2
    ∨ created = true ∧ FailedBefore outcome
      ∧ Desk.SameHeads i desk (settleKey request url path created outcome desk).2
      ∧ ∀ other ≠ absolutePath request.dir path,
        (settleKey request url path created outcome desk).2.keys.content other
          = desk.keys.content other := by
  -- the two outcomes that remove a key do it the same way
  have hremove : ∀ error, FailedBefore outcome →
      settleKey request url path created outcome desk = (if created then do
          let _ ← Action.attempt
            (Desk.onKeys (KeyFiles.removeFile (absolutePath request.dir path)))
          Action.fail error
        else Action.fail error) desk →
      Desk.Idle i desk (settleKey request url path created outcome desk).2
      ∨ created = true ∧ FailedBefore outcome
        ∧ Desk.SameHeads i desk (settleKey request url path created outcome desk).2
        ∧ ∀ other ≠ absolutePath request.dir path,
          (settleKey request url path created outcome desk).2.keys.content other
            = desk.keys.content other := by
    intro error hfailed heq
    rw [heq]
    cases created with
    | false => exact .inl (.refl desk)
    | true =>
      exact .inr ⟨rfl, hfailed, ⟨.refl _, .refl _⟩,
        fun other hother => KeyFiles.removeFile_other hother desk.keys⟩
  match outcome with
  | .error e => exact hremove e trivial rfl
  | .ok (.error (.beforePublication e)) => exact hremove e trivial rfl
  | .ok (.ok accepted) => exact .inl (.refl desk)
  | .ok (.error (.publicationUncertain e)) => exact .inl (.refl desk)
  | .ok (.error (.afterPublication id e)) => exact .inl (.refl desk)

/-- What is asked before a key is chosen. -/
def initChecks : Result StorageUrl := do
  let url ← StorageUrl.parse request.dir request.url
  validateDeviceLabel request.label
  let taken ← request.remoteTaken
  bailIf taken "Git remote already exists; choose another name with --name"
  pure url

/-- What is promised of a key this call has made at `target`. -/
structure KeySafe (i : ι) (target : Text) (swap : Option (Result Unit))
    (desk keyed desk' : Desk ι τ υ G) : Prop where
  /-- It is new. -/
  made : MadeAt target desk keyed
  /-- If it is removed, this call has set no head. -/
  removed : desk'.keys.content target ≠ keyed.keys.content target → Desk.SameHeads i desk desk'
  /-- If the swap may have taken effect, the key is there as it was written. -/
  kept : ∀ outcome, swap = some outcome → ¬ RefusedAsOccupied outcome →
    desk'.keys.content target = keyed.keys.content target

/-- What the command promises of key files. -/
structure KeepsOwnerKeys (desk : Desk ι τ υ G) : Prop where
  /-- A key file that was there stays as it was. -/
  existing : desk.keys.Kept (initCommand P codec D C names token request desk).2.keys
  created : ∀ url path keyed, initChecks request = .ok url →
    chooseKey codec request desk = (.ok (path, true), keyed) →
    KeySafe i (absolutePath request.dir path)
      (attemptedSwap P codec D C names token request url path keyed) desk keyed
      (initCommand P codec D C names token request desk).2

/-- The command in its parts. -/
theorem initCommand_eq :
    (initCommand P codec D C names token request : Action Error (Desk ι τ υ G) _)
    = Action.lift (initChecks request) >>= fun url => chooseKey codec request >>= fun chosen =>
      Action.attempt (initAttempt P codec D C names token request url chosen.1) >>= fun outcome =>
      settleKey request url chosen.1 chosen.2 outcome >>= fun accepted =>
      Action.lift request.configured >>= fun _ => pure accepted := by
  unfold initCommand initChecks
  cases StorageUrl.parse request.dir request.url with
  | error e => rfl
  | ok url =>
    cases validateDeviceLabel request.label with
    | error e => rfl
    | ok _ =>
      cases request.remoteTaken with
      | error e => rfl
      | ok taken => cases taken <;> rfl

/-- The state the command ends in, once the key is chosen. -/
theorem initCommand_state {url : StorageUrl} {path : Text} {created : Bool}
    {desk keyed : Desk ι τ υ G} (hchecks : initChecks request = .ok url)
    (hchosen : chooseKey codec request desk = (.ok (path, created), keyed)) :
    (initCommand P codec D C names token request desk).2
      = (settleKey request url path created
          (initAttempt P codec D C names token request url path keyed).1
          (initAttempt P codec D C names token request url path keyed).2).2 := by
  rw [initCommand_eq, Action.bind_of_ok (x := Action.lift (initChecks request)) (a := url)
    (s := desk) (by rw [hchecks]; rfl), Action.bind_of_ok hchosen,
    Action.bind_of_ok (Action.attempt_apply _ keyed)]
  -- what comes after the key is settled changes no file
  rcases Action.bind_cases (settleKey request url path created
      (initAttempt P codec D C names token request url path keyed).1)
      (fun accepted => Action.lift request.configured >>= fun _ => pure accepted)
      (initAttempt P codec D C names token request url path keyed).2
    with ⟨accepted, desk₁, hrun, heq⟩ | ⟨e, desk₁, hrun, heq⟩
  · rw [heq, hrun]
    cases request.configured <;> rfl
  · rw [heq, hrun]

/-- Once the key is chosen, the key files stay as they are, or the key this call made is
the only one to go, on an outcome of the attempt that allows it. -/
theorem initCommand_cases {url : StorageUrl} {path : Text} {created : Bool}
    {desk keyed : Desk ι τ υ G} (hchecks : initChecks request = .ok url)
    (hchosen : chooseKey codec request desk = (.ok (path, created), keyed)) :
    keyed.keys.Unchanged (initCommand P codec D C names token request desk).2.keys
    ∨ created = true
      ∧ Desk.SameHeads i keyed (initCommand P codec D C names token request desk).2
      ∧ (∀ outcome, attemptedSwap P codec D C names token request url path keyed = some outcome →
        RefusedAsOccupied outcome)
      ∧ ∀ other ≠ absolutePath request.dir path,
        (initCommand P codec D C names token request desk).2.keys.content other
          = keyed.keys.content other := by
  obtain ⟨hkeys, hbefore⟩ := initAttempt_cases P codec D C names token request url path keyed
  rw [initCommand_state P codec D C names token request hchecks hchosen]
  rcases settleKey_cases (i := i) request url path created
      (initAttempt P codec D C names token request url path keyed).1
      (initAttempt P codec D C names token request url path keyed).2
    with hidle | ⟨hcreated, hfailed, hheads, hothers⟩
  · exact .inl (hkeys.trans hidle.keys)
  · obtain ⟨hsame, hswap⟩ := hbefore hfailed
    exact .inr ⟨hcreated, hsame.trans hheads, hswap,
      fun other hother => (hothers other hother).trans (congrFun hkeys other)⟩

/-- Whatever happens, the key files that were there stay as they were. -/
theorem initCommand_kept (desk : Desk ι τ υ G) :
    desk.keys.Kept (initCommand P codec D C names token request desk).2.keys := by
  cases hchecks : initChecks request with
  | error e =>
    rw [initCommand_eq, Action.bind_of_error (x := Action.lift (initChecks request)) (e := e)
      (s := desk) (by rw [hchecks]; rfl)]
    exact KeyFiles.Unchanged.kept rfl
  | ok url =>
    have hadds := keeps_chooseKey codec request desk
    cases hchosen : chooseKey codec request desk with
    | mk chosen keyed =>
      rw [hchosen] at hadds
      cases chosen with
      | error e =>
        rw [initCommand_eq, Action.bind_of_ok (x := Action.lift (initChecks request)) (a := url)
          (s := desk) (by rw [hchecks]; rfl), Action.bind_of_error hchosen]
        exact hadds.keys
      | ok chosen =>
        obtain ⟨path, created⟩ := chosen
        intro other bytes hother
        rcases initCommand_cases P codec D C names token request hchecks hchosen
          with hsame | ⟨rfl, -, -, hothers⟩
        · rw [hsame]
          exact hadds.keys other bytes hother
        · -- the key that goes was not there before
          have hne : other ≠ absolutePath request.dir path := by
            intro heq
            rw [heq, (chooseKey_made codec request hchosen).1] at hother
            cases hother
          rw [hothers other hne]
          exact hadds.keys other bytes hother

/-- **`init` removes a key only if nothing was published under it.** Whatever other processes
do and whichever calls fail: key files that were there stay as they were, and a key made by
this call is there at the end unless this call has set no head, in a directory or on a
carrier, and the genesis swap was not tried or was refused as occupied. -/
theorem init_keeps_owner_keys (desk : Desk ι τ υ G) :
    KeepsOwnerKeys P codec D C names token request desk where
  existing := initCommand_kept P codec D C names token request desk
  created url path keyed hchecks hchosen := by
    have hadds := keeps_chooseKey codec request desk
    rw [hchosen] at hadds
    have hcases := initCommand_cases P codec D C names token request hchecks hchosen
    refine ⟨chooseKey_made codec request hchosen, fun hgone => ?_, fun outcome hswap heffect => ?_⟩
    · -- a key that is gone was removed on an outcome from before publication
      rcases hcases with hsame | ⟨-, hheads, -, -⟩
      · exact absurd (congrFun hsame _) hgone
      · exact hadds.sameHeads.trans hheads
    · rcases hcases with hsame | ⟨-, -, hrefused, -⟩
      · exact congrFun hsame _
      · exact absurd (hrefused outcome hswap) heffect

end

/-! ## Two calls on a carrier -/

/-- A carrier always answers. -/
theorem Carrier.perform_isSome {ι : Type} [DecidableEq ι] (i : ι) (outcome : CarrierOutcome)
    (call : CarrierCall) (w : Carrier ι) : (w.perform i outcome call).isSome = true := by
  have hrun : ∀ {α : Type} (effect : Carrier ι → Carrier ι) (value : α),
      (w.run outcome effect value).isSome = true := by
    intro α effect value
    unfold Carrier.run
    split <;> rfl
  cases call <;> first | rfl | exact hrun _ _

/-- A call that fails is answered. -/
theorem Host.perform_fails_isSome {ι : Type} [DecidableEq ι] (i : ι) (call : FileCall)
    (m : Host ι) : (m.perform i (.fails .other 0) call).isSome = true := by
  cases call <;> rfl

namespace Vault

open Reference

/-- The checkout takes every object. -/
def objects : (call : ObjectCall) → call.Reply
  | .begin _ | .finish _ _ _ | .retain _ _ => (.ok () : Result Unit)
  | .open _ _ => (bail "no such object" : Result Reader)
  | .recoveryHistory _ _ => (.ok none : Result (Option RecoveryHistory))
  | .restore _ _ _ => (.ok false : Result Bool)

def works : CarrierOutcome := ⟨none, false, 0, objects, .empty, .empty⟩

/-- A command that has its effect and whose reply is lost. -/
def unanswered : CarrierOutcome :=
  ⟨some (.exit "connection reset"), true, 0, objects, .empty, .empty⟩

/-- The connection is lost with the push, which lands. -/
def lostWithPush : CarrierCall → Carrier Unit → CarrierOutcome
  | .push, _ => unanswered
  | .object _, _ => works
  | _, w => if w.headsSetBy () = 0 then works else unanswered

def remote : Adversary Carrier.platform (Carrier.SameHeads ()) () Unit :=
  .steady lostWithPush fun call w => Carrier.perform_isSome () _ call w

/-- Nothing here is in a directory. -/
def noDirectory : Adversary Host.platform (Host.SameHeads ()) () Unit :=
  .steady (fun _ _ => .fails .other 0) (Host.perform_fails_isSome ())

def names : Host Unit × Unit → RandomNames := fun _ => ⟨[], [], [], []⟩

def token : Option Commit → Bytes := fun _ => []

/-- There is only one key. -/
def keyCodec : KeyCodec where
  encode _ := .ok (text "owner key")
  decode bytes := if bytes = text "owner key" then some ownerKey else none

def keyPath : Text := text "/keys/owner"

def storage : GitStorage := ⟨text "host:vault.git", text "host:vault.git", text "main", false⟩

abbrev backend : Storage (CarrierClient Unit Unit) := storage.backend remote token

def request : InitRequest where
  dir := ⟨text "/home/owner", fun _ => false, by decide⟩
  url := text "e2ee::host:vault.git"
  key := some keyPath
  label := text "owner"
  remoteTaken := .ok false
  generated := ownerKey
  draws := draws 0
  defaultKeyPath := .ok (text "/keys/default")
  defaultStateDir := .ok ()
  configured := .ok ()

/-- The remote has no branch, or one that somebody has put something else on. -/
def desk (occupied : Bool) : Desk Unit Unit Unit Unit where
  keys := ⟨fun _ => none, []⟩
  directory := ⟨(⟨Files.FileSystem.empty, none, []⟩, ()), none⟩
  carrier := ⟨(⟨if occupied then some (.root .empty 0) else none, false, fun _ => .empty, []⟩, ()),
    none⟩
  floor := ⟨none, []⟩
  git := ()

/-- The desk with the new key. -/
def keyed (occupied : Bool) : Desk Unit Unit Unit Unit :=
  { desk occupied with keys := (ownerKey.writeNew keyCodec keyPath (desk occupied).keys).2 }

def connected (occupied : Bool) : CarrierClient Unit Unit :=
  (GitStorage.connect remote storage.location (desk occupied).carrier).2

def genesisId : Text := hexEncode (number 0).val

/-- The client once it has looked for a head and stored the manifest. -/
def readied (occupied : Bool) : CarrierClient Unit Unit :=
  (backend.putObjectIfAbsent .manifest genesisId [] (backend.readHead (connected occupied)).2).2

/-- The genesis swap. -/
def swapped (occupied : Bool) : Result Unit × CarrierClient Unit Unit :=
  backend.compareAndSwapHead none genesisId (readied occupied)

theorem checks : initChecks request = .ok (.git storage.location) := by decide

theorem chosen (occupied : Bool) :
    chooseKey keyCodec request (desk occupied) = (.ok (keyPath, true), keyed occupied) := rfl

theorem openTarget_eq (occupied : Bool) :
    openTarget keyCodec remote request (.git storage.location) keyPath (keyed occupied)
      = (.ok (ownerKey, .carrier storage),
        { keyed occupied with carrier := connected occupied }) := by
  cases occupied <;> rfl

theorem readHead_eq (occupied : Bool) : backend.readHead (connected occupied)
    = (.ok none, (backend.readHead (connected occupied)).2) := by
  have hnone : (backend.readHead (connected occupied)).1 = .ok none := by cases occupied <;> decide
  rw [← hnone]

theorem putObjectIfAbsent_eq (id : Text) (content : Bytes) (client : CarrierClient Unit Unit) :
    backend.putObjectIfAbsent .manifest id content client
      = (.ok (), (backend.putObjectIfAbsent .manifest id [] client).2) := rfl

/-- Both calls store a genesis manifest. -/
theorem prepareGenesis_eq (occupied : Bool) : ∃ prepared,
    prepareGenesis primitives backend ownerKey (text "owner") (draws 0)
        (⟨connected occupied, ⟨none, []⟩, ()⟩ : Machine (CarrierClient Unit Unit) Unit)
      = (.ok (prepared, genesisId), ⟨readied occupied, ⟨none, []⟩, ()⟩) := by
  obtain ⟨prepared, object, p, hprepared, hsealed, hcheck, -, hsample, -⟩ := genesis_published
  have hid : p.id = genesisId := by
    obtain ⟨k, hk, hobject⟩ := hsample.ids object (List.mem_singleton_self _)
    obtain ⟨-, -, -, -, hid⟩ := sealNext_eq_ok.mp hsealed
    rw [hid, hobject, Nat.le_zero.mp hk, genesisId]
  rw [hid] at hsealed
  exact ⟨prepared, prepareGenesis_stored (readHead_eq occupied) hprepared hsealed
    (putObjectIfAbsent_eq genesisId object _) hcheck⟩

/-- On a remote without the branch, the push lands and nobody answers. -/
theorem swapped_lost : (swapped false).1 = .error ((Error.msg
      "git push carrier branch failed: connection reset").context
        "restoring the carrier checkout after a failed publication also failed") := by
  decide

theorem swapped_lands : (swapped false).2.world.1.headsSetBy () = 1 := by decide

/-- A branch that holds something else is refused. -/
theorem swapped_refused : (swapped true).1 = .error (.of (.storageOccupied
      ("branch main of host:vault.git already exists; use an empty repository or choose another "
        ++ "branch with e2ee::host:vault.git#<branch>"))) := by
  decide

/-- Both calls come to the swap, and it fails. -/
theorem attempt_eq {occupied : Bool} {e : Error} (h : (swapped occupied).1 = .error e) :
    attemptedSwap primitives keyCodec noDirectory remote names token request
        (.git storage.location) keyPath (keyed occupied) = some (.error e)
    ∧ initAttempt primitives keyCodec noDirectory remote names token request
        (.git storage.location) keyPath (keyed occupied)
      = (.ok (.error (swapFailure e)),
        { keyed occupied with carrier := (swapped occupied).2 }) := by
  obtain ⟨prepared, hprepared⟩ := prepareGenesis_eq occupied
  have hswap : backend.compareAndSwapHead none genesisId (readied occupied)
      = (.error e, (swapped occupied).2) := by rw [← h, swapped]
  have hopen := openTarget_eq occupied
  -- the states are closed terms; without a name Lean would evaluate them to compare them
  generalize (swapped occupied).2 = last at hswap ⊢
  generalize readied occupied = client at hprepared hswap
  generalize connected occupied = first at hprepared hopen
  exact initAttempt_refused primitives keyCodec noDirectory remote names token request
    hopen hprepared hswap

/-- The desk after the call. -/
def finished (occupied : Bool) : Desk Unit Unit Unit Unit :=
  (initCommand primitives keyCodec noDirectory remote names token request (desk occupied)).2

/-- What is left of the call once the attempt is over. -/
theorem finished_eq {occupied : Bool} {e : Error} (h : (swapped occupied).1 = .error e) :
    finished occupied = (settleKey request (.git storage.location) keyPath true
      (.ok (.error (swapFailure e)))
      { keyed occupied with carrier := (swapped occupied).2 }).2 := by
  rw [finished, initCommand_state primitives keyCodec noDirectory remote names token request checks
    (chosen occupied), (attempt_eq h).2]

theorem finished_lost : (finished false).carrier = (swapped false).2 := by
  rw [finished_eq swapped_lost]
  rfl

theorem finished_refused : (finished true).keys.content keyPath = none := by
  rw [finished_eq swapped_refused]
  decide

/-- The push of a genesis head lands and its reply is lost: the call fails, and the key is
still there. A branch that holds something else is refused: the key is gone, and this call
has set no head. -/
theorem init_keeps_owner_keys_carrier :
    ((finished false).carrier.world.1.headsSetBy () = 1
      ∧ (finished false).keys.content keyPath = some (text "owner key"))
    ∧ (finished true).keys.content keyPath = none
      ∧ Desk.SameHeads () (desk true) (finished true) := by
  have hsafe : ∀ occupied, KeySafe () keyPath (attemptedSwap primitives keyCodec noDirectory
      remote names token request (.git storage.location) keyPath (keyed occupied))
      (desk occupied) (keyed occupied) (finished occupied) := by
    intro occupied
    have hpath : absolutePath request.dir keyPath = keyPath := by decide
    have hcreated := (init_keeps_owner_keys primitives keyCodec noDirectory remote names
      token request (desk occupied)).created _ _ _ checks (chosen occupied)
    rw [hpath] at hcreated
    exact hcreated
  have hwritten : ∀ occupied, (keyed occupied).keys.content keyPath = some (text "owner key") := by
    decide
  refine ⟨⟨?_, ?_⟩, finished_refused, ?_⟩
  · rw [finished_lost]
    exact swapped_lands
  · -- the outcome is an error, but not that of a refusal
    rw [(hsafe false).kept _ (attempt_eq swapped_lost).1 ?_, hwritten]
    rintro ⟨refusal, herror, hoccupied⟩
    cases herror
    cases hoccupied
  · refine (hsafe true).removed ?_
    rw [finished_refused, hwritten]
    exact (Option.some_ne_none _).symm

end Vault

end GitE2EE

import GitE2EE.Proof.Helper
import GitE2EE.Proof.Discreet

/-!
# Operations that only read

Listing, fetching, verifying and a dry run ask the storage for its head and for objects,
and for nothing else: no object is begun and no head is swapped. Whatever these reads leave
alone, the operations leave alone (`OnlyReads`), whatever the storage answers.

A session with Git writes to the storage in a batch of pushes outside a dry run only.
-/

namespace GitE2EE

open Wire Effect

variable {S G : Type} {P : Primitives} {storage : Storage S} {repo : GitRepository G}
variable {key : KeyFile} {same : S → S → Prop}

/-- Storage whose reads leave alone what `same` looks at. -/
structure OnlyReads (storage : Storage S) (same : S → S → Prop) : Prop where
  refl : ∀ s, same s s
  trans : ∀ ⦃a b c⦄, same a b → same b c → same a c
  openObject : ∀ kind id, Keeps same (storage.openObject kind id)
  readHead : Keeps same storage.readHead
  refresh : Keeps same storage.refresh

/-! ## Steps -/

section

variable (h : OnlyReads storage same)

include h

theorem OnlyReads.pure {α : Type} (a : α) :
    Keeps (SameStorage same) (pure a : Action Error (Machine S G) α) := fun m => h.refl m.storage

theorem OnlyReads.lift {α : Type} (r : Result α) :
    Keeps (SameStorage same) (Action.lift r : Action Error (Machine S G) α) :=
  fun m => h.refl m.storage

theorem OnlyReads.onGit {α : Type} (x : Action Error G α) :
    Keeps (SameStorage same) (onGit x : Action Error (Machine S G) α) := fun m => h.refl m.storage

theorem OnlyReads.onFloor {α : Type} (x : Action Error FloorFile α) :
    Keeps (SameStorage same) (onFloor x : Action Error (Machine S G) α) := fun m => h.refl m.storage

theorem OnlyReads.bind {α β : Type} {x : Action Error (Machine S G) α}
    {f : α → Action Error (Machine S G) β} (hx : Keeps (SameStorage same) x)
    (hf : ∀ a, Keeps (SameStorage same) (f a)) : Keeps (SameStorage same) (x >>= f) :=
  hx.bind (fun a b c => @h.trans a.storage b.storage c.storage) hf

omit h in
/-- A step on the storage alone keeps in the machine what it keeps there. -/
theorem keeps_onStorage {α : Type} {x : Action Error S α} (hx : Keeps same x) :
    Keeps (SameStorage same) (onStorage x : Action Error (Machine S G) α) := fun m => hx m.storage

/-- The chain is read object by object from the head. -/
theorem OnlyReads.currentChain :
    Keeps (SameStorage same)
      (onStorage (currentChain P storage key) : Action Error (Machine S G) _) :=
  keeps_onStorage (keeps_currentChain h.refl h.trans (h.openObject .manifest) h.readHead key)

/-- A chain that does not pass the floor is read once more, which is still a read. -/
theorem OnlyReads.pinnedState :
    Keeps (SameStorage same) (pinnedState P storage key : Action Error (Machine S G) _) := by
  refine h.bind (h.bind (h.onFloor _) fun floor => h.bind h.currentChain fun chain => ?_) fun _ =>
    h.bind (h.lift _) fun _ => h.pure _
  split
  · exact h.pure _
  · refine h.bind (keeps_onStorage h.refresh) fun refreshed => ?_
    split
    · exact fun m => h.refl m.storage
    · exact h.bind h.currentChain fun _ => h.bind (h.lift _) fun _ => h.pure _

/-! ### Packs -/

variable {write : Bytes → Action Error (Machine S G) Unit}

/-- Opening a pack writes what it opens, and reads nothing more of the storage. -/
theorem OnlyReads.openSegments (hwrite : ∀ bytes, Keeps (SameStorage same) (write bytes))
    (packKey : SecretKey) (nonce : StreamNonce) (aad : Bytes) (count segment remaining : Nat)
    (reader : Reader) (consumed : Bytes) : Keeps (SameStorage same)
      (openSegments P write packKey nonce aad count segment remaining reader consumed) := by
  induction count generalizing segment remaining reader consumed with
  | zero => exact h.pure _
  | succ count ih => exact h.bind (h.lift _) fun _ => h.bind (hwrite _) fun _ => ih _ _ _ _

/-- A pack of the chain is one object of the storage. -/
theorem OnlyReads.openChainPack (hwrite : ∀ bytes, Keeps (SameStorage same) (write bytes))
    (entry : OpenedState) (descriptor : PackDescriptor) :
    Keeps (SameStorage same) (openChainPack P storage write entry descriptor) := by
  refine h.bind (keeps_onStorage (h.openObject _ _)) fun _ => h.bind (h.lift _) fun _ =>
    h.bind ?_ fun _ => h.pure _
  refine h.bind (h.lift _) fun a => ?_
  obtain ⟨header, reader, nonce, expectedSize⟩ := a
  exact h.bind (h.openSegments hwrite _ _ _ _ _ _ _ _) fun _ => h.lift _

theorem OnlyReads.forEach {α : Type} {step : α → Action Error (Machine S G) Unit}
    (hstep : ∀ a, Keeps (SameStorage same) (step a)) (xs : List α) :
    Keeps (SameStorage same) (forEach step xs) := by
  induction xs with
  | nil => exact h.pure _
  | cons a rest ih => exact h.bind (hstep a) fun _ => ih

/-- The packs go to Git; the storage is only where they come from. -/
theorem OnlyReads.importChainPacks (chain : List OpenedState) (afterGeneration : Option Nat) :
    Keeps (SameStorage same) (importChainPacks P storage repo chain afterGeneration) := by
  refine h.forEach (fun entry => ?_) _
  split
  · exact h.pure _
  · refine h.forEach (fun descriptor => ?_) _
    exact h.bind (h.onGit _) fun _ => h.bind (h.openChainPack (fun _ => h.onGit _) _ _) fun _ =>
      h.onGit _

/-- The whole chain is imported once more when the newest packs do not connect. -/
theorem OnlyReads.ensureImported (current : OpenedState) (chain : List OpenedState)
    (progress : CheckoutProgress) :
    Keeps (SameStorage same) (ensureImported P storage repo current chain progress) := by
  refine h.bind (h.importChainPacks _ _) fun _ => h.bind (h.onGit _) fun connected => ?_
  split
  · exact h.pure _
  · exact h.bind (h.importChainPacks _ _) fun _ => h.onGit _

/-! ## The operations -/

/-- Listing. -/
theorem OnlyReads.observeManifest :
    Keeps (SameStorage same) (observeManifest P storage repo key) :=
  h.bind (h.onFloor _) fun _ => h.bind (h.onGit _) fun _ => h.bind h.pinnedState fun _ =>
    h.bind (h.lift _) fun _ => h.bind (h.onFloor _) fun _ => h.bind (h.onGit _) fun _ => h.pure _

/-- Fetching. -/
theorem OnlyReads.importPacks : Keeps (SameStorage same) (importPacks P storage repo key) :=
  h.bind (h.onFloor _) fun _ => h.bind (h.onGit _) fun _ => h.bind h.pinnedState fun _ =>
    h.bind (h.lift _) fun _ => h.bind (h.onGit _) fun _ => h.bind (h.ensureImported _ _ _) fun _ =>
    h.bind (h.onFloor _) fun _ => h.bind (h.onGit _) fun _ => h.pure _

/-- A dry run checks the batch and accepts the head, and that is all. -/
theorem OnlyReads.push_dryRun (pushes : List RefPush) (draws : Draws) :
    Keeps (SameStorage same) (push P storage repo key pushes .dryRun draws) := by
  refine h.bind (h.onFloor _) fun _ => h.bind h.pinnedState fun _ => h.bind (h.lift _) fun _ =>
    h.bind (h.lift _) fun _ => h.bind (h.onGit _) fun _ => h.bind ?_ fun _ => h.pure _
  rw [pushPublication, if_pos (.inl rfl)]
  exact h.bind (h.onFloor _) fun _ => h.pure _

end

/-! ## Sessions -/

/-- The dry-run option after a command. -/
def dryRunAfter (dryRun : Bool) (line : Text) : Bool :=
  if line = text "option dry-run true" then true
  else if line = text "option dry-run false" then false
  else dryRun

/-- Every batch of pushes comes while the dry-run option is on. -/
def Harmless : Bool → List Request → Prop
  | _, [] => True
  | dryRun, .command line :: rest => Harmless (dryRunAfter dryRun line) rest
  | dryRun, .fetch :: rest => Harmless dryRun rest
  | dryRun, .push _ :: rest => dryRun = true ∧ Harmless dryRun rest

instance decidableHarmless : (dryRun : Bool) → (asked : List Request) →
    Decidable (Harmless dryRun asked)
  | _, [] => isTrue trivial
  | dryRun, .command line :: rest => decidableHarmless (dryRunAfter dryRun line) rest
  | dryRun, .fetch :: rest => decidableHarmless dryRun rest
  | dryRun, .push _ :: rest => @instDecidableAnd _ _ _ (decidableHarmless dryRun rest)

section

variable (remote : Text) (draws : Session S G → Draws)

/-- What one request leaves behind: the storage as reads leave it, and the dry-run option
as the request leaves it. -/
def Leaves (same : S → S → Prop) (option : Bool → Bool) (session session' : Session S G) : Prop :=
  SameStorage same session.machine session'.machine ∧ session'.dryRun = option session.dryRun

/-- An operation on the repository does not touch the dry-run option. -/
theorem leaves_onRepository {α : Type} {x : Action Error (Machine S G) α}
    (hx : Keeps (SameStorage same) x) : Keeps (Leaves same id) (onRepository x) :=
  fun session => ⟨hx session.machine, rfl⟩

variable (h : OnlyReads storage same)

include h

theorem OnlyReads.leaves_refl (session : Session S G) : Leaves same id session session :=
  ⟨h.refl _, rfl⟩

theorem OnlyReads.leaves_trans ⦃a b c : Session S G⦄ (hab : Leaves same id a b)
    (hbc : Leaves same id b c) : Leaves same id a c :=
  ⟨h.trans hab.1 hbc.1, hbc.2.trans hab.2⟩

theorem OnlyReads.say (lines : List String) :
    Keeps (Leaves same id) (say lines : Action Error (Session S G) Unit) :=
  fun _ => ⟨h.refl _, rfl⟩

/-- A batch of fetches is one import. -/
theorem OnlyReads.finishFetch :
    Keeps (Leaves same id) (finishFetch P storage repo key : Action Error (Session S G) Unit) :=
  .bind h.leaves_trans (leaves_onRepository h.importPacks) fun _ => h.say _

/-- A batch of pushes with the option on is a dry run. -/
theorem OnlyReads.finishPush (commands : List Text) (session : Session S G)
    (hdry : session.dryRun = true) :
    Leaves same id session (finishPush P storage repo key remote draws commands session).2 := by
  -- a command that does not parse ends the batch before the repository is asked
  cases hparse : commands.mapM parsePush with
  | error e =>
    rw [GitE2EE.finishPush, Action.bind_of_error (x := Action.lift (commands.mapM parsePush))
      (e := e) (s := session) (by rw [hparse]; rfl)]
    exact h.leaves_refl session
  | ok pushes =>
    rw [GitE2EE.finishPush, Action.bind_of_ok (x := Action.lift (commands.mapM parsePush))
      (a := pushes) (s := session) (by rw [hparse]; rfl),
      Action.bind_of_ok (x := Action.get) (s := session) rfl, hdry, if_pos rfl]
    exact Keeps.bind h.leaves_trans
      (Keeps.attempt (leaves_onRepository (h.push_dryRun pushes (draws session))))
      (fun _ => h.say _) session

omit h in
theorem dryRunAfter_of_ne {dryRun : Bool} {line : Text} (ht : line ≠ text "option dry-run true")
    (hf : line ≠ text "option dry-run false") : dryRunAfter dryRun line = dryRun := by
  rw [dryRunAfter, if_neg ht, if_neg hf]

/-- Only the two dry-run options change the flag, to the value they name. -/
theorem OnlyReads.setOption (option : Text) :
    Keeps (Leaves same (dryRunAfter · (text "option " ++ option)))
      (setOption option : Action Error (Session S G) Unit) := by
  intro session
  -- the command is the word `option` and what is compared here, so both comparisons agree
  have htext : ∀ value, text "option " ++ option = text "option " ++ value ↔ option = value :=
    fun value => List.append_right_inj _
  have htrue : text "option dry-run true" = text "option " ++ text "dry-run true" := by
    decide
  have hfalse : text "option dry-run false" = text "option " ++ text "dry-run false" := by
    decide
  unfold GitE2EE.setOption
  split
  · rename_i hoption
    refine ⟨h.refl _, ?_⟩
    show true = dryRunAfter _ _
    rw [dryRunAfter, if_pos (by rw [htrue, htext, hoption])]
  rename_i hnot
  split
  · rename_i hoption
    refine ⟨h.refl _, ?_⟩
    show false = dryRunAfter _ _
    rw [dryRunAfter, if_neg (by rw [htrue, htext]; exact hnot),
      if_pos (by rw [hfalse, htext, hoption])]
  · rename_i hnot'
    have hsame : dryRunAfter session.dryRun (text "option " ++ option) = session.dryRun :=
      dryRunAfter_of_ne (by rw [htrue, Ne, htext]; exact hnot)
        (by rw [hfalse, Ne, htext]; exact hnot')
    split <;> exact ⟨h.refl _, hsame.symm⟩

/-- A command lists at most; the flag is after it what `dryRunAfter` says. -/
theorem OnlyReads.answer (line : Text) : Keeps (Leaves same (dryRunAfter · line))
    (answer P storage repo key remote line : Action Error (Session S G) Unit) := by
  intro session
  unfold GitE2EE.answer
  split
  · rename_i hline
    subst hline
    exact ⟨h.refl _, (dryRunAfter_of_ne (by decide) (by decide)).symm⟩
  split
  · rename_i hline
    have hsame : dryRunAfter session.dryRun line = session.dryRun := by
      -- a listing, for a fetch or for a push
      rcases hline with rfl | rfl <;>
        exact dryRunAfter_of_ne (by decide) (by decide)
    have hleaves : Leaves same id session ((onRepository
        (GitE2EE.observeManifest P storage repo key) >>= fun accepted =>
          GitE2EE.say (listing accepted.value.refs)) session).2 :=
      Keeps.bind h.leaves_trans (leaves_onRepository h.observeManifest) (fun _ => h.say _) session
    exact ⟨hleaves.1, hleaves.2.trans hsame.symm⟩
  split
  · rename_i hprefix
    obtain ⟨option, rfl⟩ := List.isPrefixOf_iff_prefix.mp hprefix
    rw [List.drop_left]
    exact h.setOption option session
  · rename_i hprefix
    -- an unknown command is no option, since those start with the word
    refine ⟨h.refl _, (dryRunAfter_of_ne ?_ ?_).symm⟩ <;>
      exact fun heq => hprefix (by rw [heq]; decide)

/-- One request, and then the others. -/
theorem OnlyReads.serveAll (asked : List Request) (session : Session S G)
    (hharmless : Harmless session.dryRun asked) : SameStorage same session.machine
      (serveAll P storage repo key remote draws asked session).2.machine := by
  induction asked generalizing session with
  | nil => exact h.refl _
  | cons request asked ih =>
    -- the option as this request leaves it decides over the others
    have hserve : ∃ option : Bool → Bool, Harmless (option session.dryRun) asked
        ∧ Leaves same option session (serve P storage repo key remote draws request session).2 := by
      cases request with
      | command line => exact ⟨(dryRunAfter · line), hharmless, h.answer remote line session⟩
      | fetch => exact ⟨id, hharmless, h.finishFetch session⟩
      | push commands =>
        exact ⟨id, hharmless.2, h.finishPush remote draws commands session hharmless.1⟩
    obtain ⟨option, hrest, hsame, hoption⟩ := hserve
    rw [GitE2EE.serveAll]
    rcases Action.bind_cases (serve P storage repo key remote draws request)
        (fun _ => GitE2EE.serveAll P storage repo key remote draws asked) session
      with ⟨_, session₁, hrun, heq⟩ | ⟨e, session₁, hrun, heq⟩
    · rw [hrun] at hsame hoption
      rw [heq]
      exact h.trans hsame (ih session₁ (by rw [hoption]; exact hrest))
    · rw [hrun] at hsame
      rw [heq]
      exact hsame

end

/-- **Only a push outside a dry run writes.** However the storage answers, a session in which
every batch of pushes comes with the dry-run option on leaves the storage as reads leave it:
no listing, no fetch and no dry run creates an object or swaps the head. -/
theorem harmless_session_only_reads (P : Primitives) (storage : Storage S)
    (repo : GitRepository G) (key : KeyFile) (remote : Text) (draws : Session S G → Draws)
    (same : S → S → Prop) (hreads : OnlyReads storage same) (mode : HelperMode)
    (input : List (Result Text)) (session : Session S G)
    (hharmless : Harmless session.dryRun (requests mode input)) :
    SameStorage same session.machine
      (runProtocol P storage repo key remote draws mode input session).2.machine := by
  have hserved : SameStorage same session.machine
      (serveAll P storage repo key remote draws (requests mode input) session).2.machine :=
    hreads.serveAll remote draws (requests mode input) session hharmless
  rw [runProtocol_eq]
  rcases Action.bind_cases (serveAll P storage repo key remote draws (requests mode input))
      (fun _ => Action.lift (ending mode input)) session
    with ⟨_, session₁, hrun, heq⟩ | ⟨e, session₁, hrun, heq⟩ <;>
  · rw [hrun] at hserved
    rw [heq]
    exact hserved

/-- The reads of a directory leave it as it is. -/
theorem Directory.onlyReads {location : String} :
    OnlyReads (Directory.storage P location) (fun d d' => d' = d) where
  refl _ := rfl
  trans _ _ _ hab hbc := hbc.trans hab
  openObject _ _ _ := rfl
  readHead _ := rfl
  refresh _ := rfl

namespace Reference

/-- The session at the stocked directory lists the tag, is told that deleting it would be
accepted, and fetches; the directory is the same after it. -/
theorem rehearsal_only_reads : ∃ objects p,
    ∃ session' : Session Directory (Option CheckoutProgress),
    Harmless false (requests .commands rehearsal)
    ∧ runProtocol primitives (Directory.storage primitives "shelf") checkout ownerKey
      (text "origin") (fun _ => draws 2) .commands rehearsal
      (sessionAt objects p none none [] false) = (.ok (), session')
    ∧ session'.output = ["0123456789abcdef0123456789abcdef01234567 refs/tags/v1", "", "ok",
      "ok refs/tags/v1", "", "ok", ""]
    ∧ session'.machine.storage = shelf objects p.id := by
  obtain ⟨objects, p, chain, h⟩ := stocked_exists
  have hrun := h.rehearsal
  have hharmless : Harmless false (requests .commands rehearsal) := by decide
  have hsame := harmless_session_only_reads primitives (Directory.storage primitives "shelf")
    checkout ownerKey (text "origin") (fun _ => draws 2) (fun d d' => d' = d) Directory.onlyReads
    .commands rehearsal (sessionAt objects p none none [] false) hharmless
  rw [hrun] at hsame
  refine ⟨objects, p, _, hharmless, hrun, ?_, hsame⟩
  show listing tagged ++ ["ok"] ++ ["ok refs/tags/v1", ""] ++ ["ok"] ++ [""] = _
  decide

end Reference

end GitE2EE

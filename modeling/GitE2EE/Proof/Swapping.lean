import GitE2EE.Lib.Register
import GitE2EE.Model.Filesystem
import GitE2EE.Proof.Directory

/-!
# The discipline of a head that many swap

The head of a directory is swapped by any number of processes at once. Each keeps to one
discipline: without the lock it touches neither HEAD nor FORMAT, and what the holder of the
lock has read stays as it is. This module states the discipline, and shows that everything a
process does before it has the lock keeps to it: creating the directories, and opening the
lock file.
-/

namespace GitE2EE

open Wire Effect Files FilesystemStorage

/-- One call of a swap. -/
inductive SwapCall where
  | plain (expected : Option Text) (next : Text)
  | observed (observation : HeadObservation) (next : Text)

namespace SwapCall

/-- The id that becomes the head. -/
def next : SwapCall → Text
  | plain _ next => next
  | observed _ next => next

/-- HEAD as this program writes it. -/
def written (id : Text) : StoredHead := .bytes (id ++ [10])

/-- Whether a call finds what it expects where HEAD has this value. -/
def Accepts : SwapCall → Option Text → Prop
  | plain expected _, value => value = expected
  | observed observation _, value => value.map written = observation.head

instance : ∀ call value, Decidable (Accepts call value)
  | plain _ _, _ => inferInstanceAs (Decidable (_ = _))
  | observed _ _, _ => inferInstanceAs (Decidable (_ = _))

/-- A call expects one value. -/
theorem Accepts.unique {call : SwapCall} {u v : Option Text} (hu : call.Accepts u)
    (hv : call.Accepts v) : u = v := by
  cases call with
  | plain expected next => exact hu.trans hv.symm
  | observed observation next =>
    have hinj : Function.Injective written := by
      intro a b hab
      exact List.append_cancel_right (StoredHead.bytes.inj hab)
    exact Option.map_injective hinj (hu.trans hv.symm)

/-- What the process runs. -/
def process (storage : FilesystemStorage) (random : Temporaries) : SwapCall → Process Unit
  | plain expected next => storage.compareAndSwapHead random expected next
  | observed observation next => storage.compareAndSwapObservedHead random observation next

end SwapCall

section

variable {ι : Type}

/-- The processes that renamed a file onto HEAD, in that order. -/
def Host.swaps (m : Host ι) : List ι := (m.renames.filter (·.2 = HEAD)).map Prod.fst

/-- The names in the storage root that a process touches without the lock. -/
def Unguarded (name : Text) : Prop := name = PACKS ∨ name = MANIFESTS ∨ name = HEAD_LOCK

theorem not_unguarded_head : ¬ Unguarded HEAD := by
  rintro (h | h | h) <;> exact absurd h (by decide)

theorem not_unguarded_format : ¬ Unguarded FORMAT := by
  rintro (h | h | h) <;> exact absurd h (by decide)

/-- The storage root holds this head: nothing, or `<id>` on a line of its own with the
current FORMAT beside it. -/
structure Standing (root : Path) (r : Nat) (files : FileSystem Text) (value : Option Text) :
    Prop where
  root : files.lookup root = some r
  directory : files.content r = none
  head : files.child r HEAD = value.map fun id => .file (id ++ [10])
  id : ∀ id, value = some id → isObjectId id = true
  format : ∀ id, value = some id → files.child r FORMAT = some (.file Directory.STORAGE_FORMAT)

/-- Under every name that is not touched the root holds what it held, and nobody swapped. -/
structure Untouched (r : Nat) (touched : Text → Prop) (m m' : Host ι) : Prop where
  child : ∀ name, ¬ touched name → m'.files.child r name = m.files.child r name
  swaps : m'.swaps = m.swaps

/-- What does not touch HEAD or FORMAT leaves the head standing. -/
theorem Standing.untouched {root : Path} {r : Nat} {touched : Text → Prop} {m m' : Host ι}
    {value : Option Text} (h : Standing root r m.files value) (hsame : Untouched r touched m m')
    (hhead : ¬ touched HEAD) (hformat : ¬ touched FORMAT)
    (hroot : m'.files.lookup root = some r) (hdir : m'.files.content r = none) :
    Standing root r m'.files value where
  root := hroot
  directory := hdir
  head := (hsame.child HEAD hhead).trans h.head
  id := h.id
  format id hid := (hsame.child FORMAT hformat).trans (h.format id hid)

end

/-! ## The discipline -/

section

variable {ι : Type} (storage : FilesystemStorage) (calls : ι → SwapCall) (start : Option Text)
  (r : Nat)

/-- HEAD after these calls, one after another. -/
def replayed (swaps : List ι) : Option (Option Text) :=
  Register.replay (fun i => (calls i).Accepts) (fun i => some (calls i).next) swaps start

/-- HEAD is what the swaps so far made of it, and no process swapped twice. -/
structure Swapped (m : Host ι) : Prop where
  standing : ∃ value, Standing storage.root r m.files value
    ∧ replayed calls start m.swaps = some value
  nodup : m.swaps.Nodup

/-- Other processes swap under their own names, and leave alone what the holder of the
lock has read. -/
structure LeavesTo (i : ι) (m m' : Host ι) : Prop where
  mine : i ∈ m'.swaps ↔ i ∈ m.swaps
  held : m.lock = some i →
    m'.lock = some i ∧ FileSystem.Frame r Unguarded m.files m'.files ∧ m'.swaps = m.swaps

/-- The discipline of everybody who uses the storage. -/
def swapping : Discipline ι (Host ι) where
  inv := Swapped storage calls start r
  rely := LeavesTo r

/-- The process has not swapped yet. -/
def Unswapped (i : ι) (m : Host ι) : Prop := i ∉ m.swaps

/-- A step that neither renames nor locks, and touches only what is not guarded. -/
structure Calm (m m' : Host ι) : Prop where
  frame : FileSystem.Frame r Unguarded m.files m'.files
  root : m'.files.lookup storage.root = some r
  lock : m'.lock = m.lock
  renames : m'.renames = m.renames

variable {storage calls start r} {m m' : Host ι}

theorem Swapped.root (h : Swapped storage calls start r m) :
    m.files.lookup storage.root = some r := by
  obtain ⟨value, hs, -⟩ := h.standing
  exact hs.root

theorem Swapped.rootDirectory (h : Swapped storage calls start r m) :
    m.files.content r = none := by
  obtain ⟨value, hs, -⟩ := h.standing
  exact hs.directory

/-- The storage root is a directory all along. -/
theorem Swapped.rootNode (h : Swapped storage calls start r m) :
    m.files.directory storage.root = some r :=
  FileSystem.directory_eq_some.mpr ⟨h.root, h.rootDirectory⟩

theorem Calm.same (h : Swapped storage calls start r m) (hfiles : m'.files = m.files)
    (hlock : m'.lock = m.lock) (hrenames : m'.renames = m.renames) : Calm storage r m m' where
  frame := by
    rw [hfiles]
    exact .refl
  root := by
    rw [hfiles]
    exact h.root
  lock := hlock
  renames := hrenames

theorem Calm.refl (h : Swapped storage calls start r m) : Calm storage r m m :=
  .same h rfl rfl rfl

theorem Calm.swaps (h : Calm storage r m m') : m'.swaps = m.swaps := by
  rw [Host.swaps, Host.swaps, h.renames]

/-- A calm step is none of another process's business. -/
theorem Calm.leaves (h : Calm storage r m m') (j : ι) : LeavesTo r j m m' where
  mine := by rw [h.swaps]
  held hj := ⟨h.lock.trans hj, h.frame, h.swaps⟩

/-- Only the process itself can swap under its name. -/
theorem stable_unswapped {i : ι} :
    (swapping storage calls start r).Stable i (Unswapped i) :=
  fun _ _ _ _ hrely h hmem => h (hrely.mine.mp hmem)

theorem stable_fact {i : ι} {p : Prop} {A : Host ι → Prop}
    (h : (swapping storage calls start r).Stable i A) :
    (swapping storage calls start r).Stable i fun m => A m ∧ p :=
  fun s s' hs hs' hrely ha => ⟨h s s' hs hs' hrely ha.1, ha.2⟩

/-- HEAD stays what the swaps made of it. -/
theorem Swapped.untouched (hm : Swapped storage calls start r m) {touched : Text → Prop}
    (h : Untouched r touched m m') (hhead : ¬ touched HEAD) (hformat : ¬ touched FORMAT)
    (hroot : m'.files.lookup storage.root = some r) (hdir : m'.files.content r = none) :
    Swapped storage calls start r m' := by
  obtain ⟨value, hs, hreplay⟩ := hm.standing
  refine ⟨⟨value, hs.untouched h hhead hformat hroot hdir, ?_⟩, ?_⟩
  · rw [h.swaps]
    exact hreplay
  · rw [h.swaps]
    exact hm.nodup

/-- So it does behind a calm step. -/
theorem Swapped.calm (hm : Swapped storage calls start r m) (h : Calm storage r m m') :
    Swapped storage calls start r m' :=
  hm.untouched ⟨fun _ => h.frame.child, h.swaps⟩ not_unguarded_head not_unguarded_format h.root
    ((h.frame.content r (FileSystem.lookup_lt hm.root)).trans hm.rootDirectory)

end

/-! ## Before the lock -/

section

variable {ι : Type} [DecidableEq ι] (storage : FilesystemStorage) (calls : ι → SwapCall)
  (start : Option Text) (r : Nat) (i : ι)

/-- A process that has not swapped yet, and does not in `x`. -/
def Idles {α : Type} (x : Process α) (post : α → Prop) : Prop :=
  Meets Host.platform (swapping storage calls start r) i
    (fun result m => Unswapped i m ∧ ∀ a, result = .ok a → post a) x (Unswapped i)

variable {storage calls start r i}

namespace Idles

variable {α β : Type} {p : α → Prop} {q : β → Prop}

theorem pure {a : α} (h : p a) : Idles storage calls start r i (pure a) p :=
  Meets.pure fun _ _ hm => ⟨hm, by rintro b ⟨⟩; exact h⟩

theorem lift {result : Except Error α} (h : ∀ a, result = .ok a → p a) :
    Idles storage calls start r i (Thread.lift result) p :=
  Meets.lift fun _ _ hm => ⟨hm, h⟩

theorem fail {e : Error} : Idles storage calls start r i (Thread.fail e) p :=
  Meets.fail fun _ _ hm => ⟨hm, by rintro b ⟨⟩⟩

theorem bind {x : Process α} {f : α → Process β} (hx : Idles storage calls start r i x p)
    (hf : ∀ a, p a → Idles storage calls start r i (f a) q) :
    Idles storage calls start r i (x >>= f) q := by
  refine Meets.bind (fun a m => p a ∧ Unswapped i m) (Meets.mono hx ?_) fun a =>
    Meets.fact (hf a)
  intro result m _ h
  -- a failure ends the sequence, still without a swap
  cases result with
  | ok a => exact ⟨h.2 a rfl, h.1⟩
  | error e => exact ⟨h.1, by rintro b ⟨⟩⟩

theorem attempt {x : Process α} (hx : Idles storage calls start r i x p) :
    Idles storage calls start r i x.attempt fun result => ∀ a, result = .ok a → p a :=
  Meets.attempt (Meets.mono hx fun _ _ _ h => ⟨h.1, by rintro result ⟨⟩; exact h.2⟩)

/-- One calm call. -/
theorem perform {call : FileCall} {p : call.Reply → Prop}
    (h : ∀ m outcome reply m', Swapped storage calls start r m →
      Host.perform i outcome call m = some (reply, m') → Calm storage r m m' ∧ p reply) :
    Idles storage calls start r i (Thread.perform call) p := by
  refine Meets.perform (fun m hm hi outcome reply m' hstep => ?_) fun reply => ?_
  · obtain ⟨hcalm, hp⟩ := h m outcome reply m' hm hstep
    refine ⟨hm.calm hcalm, fun j _ => hcalm.leaves j, ?_, ?_⟩
    · rw [Unswapped, hcalm.swaps]
      exact hi
    · rintro a ⟨⟩
      exact hp
  · exact stable_fact stable_unswapped

end Idles

/-! ### Creating the directories -/

theorem idles_exists (path : Path) :
    Idles storage calls start r i (Sys.exists path) fun _ => True :=
  Idles.perform fun m outcome reply m' hm h => by
    replace h : m.ask outcome (m.files.exists path) = some (reply, m') := h
    obtain ⟨rfl, -⟩ := Host.ask_cases h
    exact ⟨.refl hm, trivial⟩

theorem idles_isDir (path : Path) :
    Idles storage calls start r i (Sys.isDir path) fun _ => True :=
  Idles.perform fun m outcome reply m' hm h => by
    replace h : m.ask outcome (m.files.isDir path) = some (reply, m') := h
    obtain ⟨rfl, -⟩ := Host.ask_cases h
    exact ⟨.refl hm, trivial⟩

/-- Flushing a directory moves nothing. -/
theorem idles_syncDirectory (path : Path) :
    Idles storage calls start r i (Sys.syncDirectory path) fun _ => True :=
  Idles.perform fun m outcome reply m' hm h => by
    replace h : m.onFiles outcome (·.syncDir path) = some (reply, m') := h
    rcases Host.onFiles_cases h with ⟨-, rfl⟩ | ⟨hcall, hlock, hrenames⟩
    · exact ⟨.refl hm, trivial⟩
    · rcases FileSystem.syncDir_cases hcall with ⟨-, d, -, hfiles⟩ | ⟨-, hfiles⟩
      · refine ⟨⟨?_, ?_, hlock, hrenames⟩, trivial⟩
        · rw [hfiles]
          exact .flush d
        · rw [hfiles, FileSystem.lookup_flush]
          exact hm.root
      · exact ⟨.same hm hfiles hlock hrenames, trivial⟩

/-- A directory on the way to an unguarded one below the root, or that one. -/
def OnTheWay (root : Path) (name : Text) (step : Persist.Step) : Prop :=
  step = (root, name) ∨ step.1 ++ [step.2] <+: root

/-- Only the directory below the root is ever created: the others exist. -/
theorem idles_createDir {name : Text} (hname : Unguarded name) {step : Persist.Step}
    (hstep : OnTheWay storage.root name step) :
    Idles storage calls start r i (Sys.createDir step.1 step.2) fun reply =>
      reply = .ok () → step = (storage.root, name) :=
  Idles.perform fun m outcome reply m' hm h => by
    replace h : m.onFiles outcome (·.createDir step.1 step.2) = some (reply, m') := h
    rcases Host.onFiles_cases h with ⟨⟨fault, rfl⟩, rfl⟩ | ⟨hcall, hlock, hrenames⟩
    · exact ⟨.refl hm, fun h => by cases h⟩
    rcases FileSystem.createDir_cases hcall with ⟨-, d, hd, hfree, hfiles⟩ | ⟨⟨fault, rfl⟩, hfiles⟩
    · rcases hstep with rfl | ⟨rest, hrest⟩
      · -- the directory itself: a new name below the root
        rw [hm.rootNode] at hd
        cases hd
        refine ⟨⟨?_, ?_, hlock, hrenames⟩, fun _ => rfl⟩
        · rw [hfiles]
          exact .insertNew (FileSystem.lookup_lt hm.root) hm.rootDirectory hname
        · rw [hfiles]
          exact FileSystem.lookup_insertNew hm.rootDirectory (FileSystem.lookup_lt hm.root) hfree
            hm.root
      · -- every directory above the root is there, so its name is not free
        exfalso
        have hroot := hm.root
        rw [← hrest] at hroot
        obtain ⟨j, hj, -⟩ := FileSystem.lookup_of_append hroot
        rw [FileSystem.lookup_concat (FileSystem.directory_eq_some.mp hd).1, hfree] at hj
        cases hj
    · exact ⟨.same hm hfiles hlock hrenames, fun h => by cases h⟩

/-- The directory below the root may be removed again: its name is not guarded. -/
theorem idles_removeDir {name : Text} (hname : Unguarded name) :
    Idles storage calls start r i (Sys.removeDir storage.root name) fun _ => True :=
  Idles.perform fun m outcome reply m' hm h => by
    replace h : m.onFiles outcome (·.removeDir storage.root name) = some (reply, m') := h
    rcases Host.onFiles_cases h with ⟨-, rfl⟩ | ⟨hcall, hlock, hrenames⟩
    · exact ⟨.refl hm, trivial⟩
    rcases FileSystem.removeDir_cases hcall with ⟨-, d, k, hd, hk, hempty, hfiles⟩ | ⟨-, hfiles⟩
    · rw [hm.rootNode] at hd
      cases hd
      refine ⟨⟨?_, ?_, hlock, hrenames⟩, trivial⟩
      · rw [hfiles]
        exact .erase hname
      · rw [hfiles]
        exact FileSystem.lookup_erase hk hempty hm.root
    · exact ⟨.same hm hfiles hlock hrenames, trivial⟩

/-- The steps found missing all lie on the path. -/
theorem idles_climb (path : List Text) :
    Idles storage calls start r i (Persist.climb path) fun found =>
      ∀ step ∈ found.1, step.1 ++ [step.2] <+: path.reverse := by
  induction path with
  | nil =>
    refine (idles_exists []).bind fun present _ => ?_
    cases present with
    | true => exact .pure fun step hstep => by cases hstep
    | false => exact .fail
  | cons name up ih =>
    refine (idles_exists (name :: up).reverse).bind fun present _ => ?_
    cases present with
    | true => exact .pure fun step hstep => by cases hstep
    | false =>
      refine ih.bind fun found hfound => .pure fun step hstep => ?_
      rw [List.reverse_cons]
      rcases List.mem_cons.mp hstep with rfl | hstep
      · exact List.prefix_refl _
      · exact (hfound step hstep).trans (List.prefix_append _ _)

theorem idles_removeCreatedDirectories {name : Text} (hname : Unguarded name)
    {created : List Persist.Step} (hcreated : ∀ step ∈ created, step = (storage.root, name)) :
    Idles storage calls start r i (Persist.removeCreatedDirectories created) fun _ => True := by
  induction created with
  | nil => exact .pure trivial
  | cons step created ih =>
    obtain rfl := hcreated step List.mem_cons_self
    exact (idles_removeDir hname).bind fun _ _ =>
      ih fun other hother => hcreated other (List.mem_cons_of_mem _ hother)

/-- What was created is the one directory below the root. -/
theorem idles_createMissing {name : Text} (hname : Unguarded name)
    {created missing : List Persist.Step}
    (hcreated : ∀ step ∈ created, step = (storage.root, name))
    (hmissing : ∀ step ∈ missing, OnTheWay storage.root name step) :
    Idles storage calls start r i (Persist.createMissing created missing) fun created =>
      ∀ step ∈ created, step = (storage.root, name) := by
  induction missing generalizing created with
  | nil => exact .pure hcreated
  | cons step missing ih =>
    have hrest := fun other hother => hmissing other (List.mem_cons_of_mem _ hother)
    refine (idles_createDir hname (hmissing step List.mem_cons_self)).bind fun reply hreply => ?_
    cases reply with
    | ok _ =>
      refine ih (fun other hother => ?_) hrest
      rcases List.mem_cons.mp hother with rfl | hother
      · exact hreply rfl
      · exact hcreated other hother
    | error fault =>
      -- any other fault removes what was created and gives up
      have hfails : ∀ e : Error, Idles storage calls start r i
          (Persist.removeCreatedDirectories created >>= fun _ => Thread.fail e)
          fun created : List Persist.Step => ∀ step ∈ created, step = (storage.root, name) :=
        fun e => (idles_removeCreatedDirectories hname hcreated).bind fun _ _ => .fail
      cases fault with
      -- somebody else was faster
      | alreadyExists => exact ih hcreated hrest
      | notFound => exact hfails _
      | other => exact hfails _

/-- The directories are flushed one by one, and the one that was there last. -/
theorem idles_flushCreatedDirectories (preexisting : Path) (missing : List Persist.Step) :
    Idles storage calls start r i (Persist.flushCreatedDirectories preexisting missing)
      fun _ => True := by
  induction missing with
  | nil => exact idles_syncDirectory preexisting
  | cons step missing ih =>
    refine (idles_syncDirectory _).bind fun reply _ => ?_
    cases reply with
    | ok _ => exact ih
    | error fault => exact .pure trivial

/-- A prefix of a path to a directory below the root. -/
theorem onTheWay_of_prefix {root : Path} {name : Text} {step : Persist.Step}
    (h : step.1 ++ [step.2] <+: root ++ [name]) : OnTheWay root name step := by
  rcases List.prefix_concat_iff.mp h with h | h
  · left
    obtain ⟨hparent, hname⟩ := List.append_inj' h rfl
    cases hname
    rw [← hparent]
  · exact .inr h

/-- Creating a directory below the root touches nothing that is guarded. -/
theorem idles_createDirectory {name : Text} (hname : Unguarded name) :
    Idles storage calls start r i (createDirectory (storage.root ++ [name])) fun _ => True := by
  have hcreate : Idles storage calls start r i
      (Persist.createDirAllDurable (storage.root ++ [name])) fun _ => True := by
    refine (idles_climb _).bind fun found hfound => ?_
    rw [List.reverse_reverse] at hfound
    have hmissing : ∀ step ∈ found.1.reverse, OnTheWay storage.root name step :=
      fun step hstep => onTheWay_of_prefix (hfound step (List.mem_reverse.mp hstep))
    refine (idles_isDir _).bind fun present _ => ?_
    cases present with
    | false => exact .fail
    | true =>
      rw [if_pos rfl]
      split
      · exact .pure trivial
      · refine (idles_createMissing hname (by simp) hmissing).bind fun created hcreated => ?_
        refine (idles_flushCreatedDirectories _ _).bind fun reply _ => ?_
        cases reply with
        | ok _ => exact .pure trivial
        | error fault =>
          exact (idles_removeCreatedDirectories hname hcreated).bind fun _ _ => .fail
  refine hcreate.attempt.bind fun result _ => ?_
  cases result with
  | ok _ => exact .pure trivial
  | error e => exact .fail

/-- The lock file is created if it is not there, and opened. -/
theorem idles_openLock :
    Idles storage calls start r i (Sys.openLock storage.root HEAD_LOCK) fun _ => True :=
  Idles.perform fun m outcome reply m' hm h => by
    replace h : m.onFiles outcome (Host.createLock storage.root HEAD_LOCK) = some (reply, m') := h
    rcases Host.onFiles_cases h with ⟨-, rfl⟩ | ⟨hcall, hlock, hrenames⟩
    · exact ⟨.refl hm, trivial⟩
    refine ⟨?_, trivial⟩
    unfold Host.createLock at hcall
    rcases hnew : m.files.createNew storage.root HEAD_LOCK with ⟨answer, created⟩
    rw [hnew] at hcall
    -- created just now, or refused because there is one already
    rcases FileSystem.createNew_cases hnew with ⟨rfl, d, hd, hfree, hfiles⟩ | ⟨⟨fault, rfl⟩, -⟩
    · cases hcall
      rw [hm.rootNode] at hd
      cases hd
      refine ⟨?_, ?_, hlock, hrenames⟩
      · rw [hfiles]
        exact .insertNew (FileSystem.lookup_lt hm.root) hm.rootDirectory (.inr (.inr rfl))
      · rw [hfiles]
        exact FileSystem.lookup_insertNew hm.rootDirectory (FileSystem.lookup_lt hm.root) hfree
          hm.root
    · have hsame : m'.files = m.files := by
        cases fault with
        | alreadyExists =>
          dsimp only at hcall
          split at hcall <;> exact (Prod.mk.inj hcall).2.symm
        | notFound => exact (Prod.mk.inj hcall).2.symm
        | other => exact (Prod.mk.inj hcall).2.symm
      exact .same hm hsame hlock hrenames

/-- **Nothing guarded is touched before the lock is held.** -/
theorem idles_lockFile : Idles storage calls start r i storage.lockFile fun _ => True := by
  refine (Idles.bind (idles_createDirectory (.inl rfl)) fun _ _ =>
    idles_createDirectory (.inr (.inl rfl))).bind fun _ _ => ?_
  exact idles_openLock.bind fun reply _ => .lift fun _ _ => trivial

end

end GitE2EE

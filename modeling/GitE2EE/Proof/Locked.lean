import GitE2EE.Proof.Swapping

/-!
# What the holder of the lock may rely on

Two kinds of assertions survive what happens beside the holder. Those closed under frames
(`FrameClosed`) survive the other processes, which keep to their own names; those about
names of the root that are not touched (`Local`) survive the holder's own steps as well.
With them each call of the holder has a rule of its own (`Guarded`, `Answers`).
-/

namespace GitE2EE

open Wire Effect Files FilesystemStorage

section

variable {ι : Type} (r : Nat)

/-- An assertion about what other processes leave to the holder of the lock. -/
def FrameClosed (F : Host ι → Prop) : Prop :=
  ∀ m m', FileSystem.Frame r Unguarded m.files m'.files → m'.swaps = m.swaps → F m → F m'

/-- An assertion about names that are not touched. -/
def Local (touched : Text → Prop) (F : Host ι → Prop) : Prop :=
  ∀ m m', Untouched r touched m m' → F m → F m'

/-- What is touched while a temporary is made: what others touch, and the temporary. -/
def Staging (temporary name : Text) : Prop := Unguarded name ∨ name = temporary

/-- HEAD has this value. -/
def Value (value : Option Text) (m : Host ι) : Prop :=
  m.files.child r HEAD = value.map fun id => .file (id ++ [10])

/-- A temporary of this process: nothing else in the root leads to the file. -/
structure Staged (temporary : Text) (file : Nat) (content : Bytes) (m : Host ι) : Prop where
  entry : m.files.entry r temporary = some file
  content : m.files.content file = some content
  only : ∀ name, ¬ Staging temporary name → m.files.entry r name ≠ some file

variable {r} {touched : Text → Prop} {F G : Host ι → Prop}

/-- What does not look at the unguarded names survives the others. -/
theorem FrameClosed.of_local (hsub : ∀ name, Unguarded name → touched name)
    (h : Local r touched F) : FrameClosed r F :=
  fun m m' hframe hswaps hF =>
    h m m' ⟨fun name hname => hframe.child fun hu => hname (hsub name hu), hswaps⟩ hF

theorem FrameClosed.and (hF : FrameClosed r F) (hG : FrameClosed r G) :
    FrameClosed r fun m => F m ∧ G m :=
  fun m m' hframe hswaps h => ⟨hF m m' hframe hswaps h.1, hG m m' hframe hswaps h.2⟩

theorem FrameClosed.imp {p : Prop} (h : p → FrameClosed r F) : FrameClosed r fun m => p → F m :=
  fun m m' hframe hswaps hF hp => h hp m m' hframe hswaps (hF hp)

/-- **What the holder knows stays true while it holds the lock.** -/
theorem stable_held {storage : FilesystemStorage} {calls : ι → SwapCall} {start : Option Text}
    {i : ι} (hF : FrameClosed r F) :
    (swapping storage calls start r).Stable i fun m => m.lock = some i ∧ F m := by
  intro m m' _ _ hrely h
  obtain ⟨hlock, hframe, hswaps⟩ := hrely.held h.1
  exact ⟨hlock, hF m m' hframe hswaps h.2⟩

theorem Local.and (hF : Local r touched F) (hG : Local r touched G) :
    Local r touched fun m => F m ∧ G m :=
  fun m m' h hFG => ⟨hF m m' h hFG.1, hG m m' h hFG.2⟩

/-- A name that no other file of the root has. -/
structure IsTemporary (temporary : Text) : Prop where
  guarded : ¬ Unguarded temporary
  head : temporary ≠ HEAD
  format : temporary ≠ FORMAT
  readme : temporary ≠ README

/-- A temporary has a dot in front, and no other name of the root has. -/
theorem isTemporary_temporaryName (name random : Bytes) :
    IsTemporary (Persist.temporaryName name random) := by
  have hdot : (Persist.temporaryName name random).head? = some 46 := rfl
  have hne : ∀ other : Text, other.head? ≠ some 46 → Persist.temporaryName name random ≠ other := by
    rintro other hother rfl
    exact hother hdot
  refine ⟨?_, hne _ (by decide), hne _ (by decide), hne _ (by decide)⟩
  rintro (h | h | h)
  · exact hne _ (by decide) h
  · exact hne _ (by decide) h
  · exact hne _ (by decide) h

theorem frameClosed_of_staging {temporary : Text} (hF : Local r (Staging temporary) F) :
    FrameClosed r F :=
  .of_local (fun _ h => .inl h) hF

theorem swaps_of_renames {m m' : Host ι} (h : m'.renames = m.renames) : m'.swaps = m.swaps := by
  rw [Host.swaps, Host.swaps, h]

theorem not_staging {temporary name : Text} (hguarded : ¬ Unguarded name)
    (hne : temporary ≠ name) : ¬ Staging temporary name := by
  rintro (h | h)
  · exact hguarded h
  · exact hne h.symm

/-- A step of the holder that touches nothing but its temporary. -/
theorem Swapped.own_step {storage : FilesystemStorage} {calls : ι → SwapCall}
    {start : Option Text} {temporary : Text} {m m' : Host ι}
    (hm : Swapped storage calls start r m) (htemp : IsTemporary temporary)
    (hsame : Untouched r (Staging temporary) m m')
    (hroot : m'.files.lookup storage.root = some r) (hdir : m'.files.content r = none) :
    Swapped storage calls start r m' := by
  refine hm.untouched hsame ?_ ?_ hroot hdir
  · exact not_staging not_unguarded_head htemp.head
  · exact not_staging not_unguarded_format htemp.format

/-- A call of the holder on its own temporary: within its frame, and with no rename. -/
theorem Swapped.framed_step {storage : FilesystemStorage} {calls : ι → SwapCall}
    {start : Option Text} {temporary : Text} {i : ι} {F : Host ι → Prop} {m m' : Host ι}
    (hm : Swapped storage calls start r m) (hlock : m.lock = some i)
    (htemp : IsTemporary temporary) (hF : Local r (Staging temporary) F)
    (hframe : FileSystem.Frame r (Staging temporary) m.files m'.files)
    (hroot : m'.files.lookup storage.root = some r) (hlock' : m'.lock = m.lock)
    (hrenames : m'.renames = m.renames) (hFm : F m) :
    Swapped storage calls start r m' ∧ m'.lock = some i
      ∧ (∀ j, j ≠ i → (j ∈ m'.swaps ↔ j ∈ m.swaps)) ∧ F m' := by
  have hsame : Untouched r (Staging temporary) m m' :=
    ⟨fun _ => hframe.child, swaps_of_renames hrenames⟩
  have hdirectory : m'.files.content r = none :=
    (hframe.content r (FileSystem.lookup_lt hm.root)).trans hm.rootDirectory
  exact ⟨hm.own_step htemp hsame hroot hdirectory, hlock'.trans hlock,
    fun j _ => by rw [hsame.swaps], hF m m' hsame hFm⟩

theorem local_value {value : Option Text} (h : ¬ touched HEAD) :
    Local r touched (Value r value : Host ι → Prop) :=
  fun _ _ hsame hv => (hsame.child HEAD h).trans hv

theorem local_unswapped {i : ι} : Local r touched (Unswapped i) := by
  intro m m' hsame h
  rw [Unswapped, hsame.swaps]
  exact h

/-- Nobody else writes to a temporary. -/
theorem frameClosed_staged {temporary : Text} {file : Nat} {content : Bytes}
    (htemp : ¬ Unguarded temporary) :
    FrameClosed r (Staged r temporary file content : Host ι → Prop) := by
  intro m m' hframe _ h
  refine ⟨(hframe.entry temporary htemp).trans h.entry, ?_, fun name hname => ?_⟩
  · -- the file is older than what the others create
    exact (hframe.content file (m.files.entry_lt h.entry)).trans h.content
  · rw [hframe.entry name fun hu => hname (.inl hu)]
    exact h.only name hname

/-- What a rename of the temporary leaves: the target holds what the temporary held. -/
structure Renamed (root : Path) (r : Nat) (temporary target : Text) (content : Bytes)
    (before after : FileSystem Text) : Prop where
  root : after.lookup root = some r
  directory : after.content r = none
  replaced : after.child r target = some (.file content)
  others : ∀ name, name ≠ temporary → name ≠ target → after.child r name = before.child r name

/-- **The rename of a temporary** happens as a whole or not at all. -/
theorem Staged.renamed {storage : FilesystemStorage} {calls : ι → SwapCall}
    {start : Option Text} {temporary target : Text} {m : Host ι}
    (hm : Swapped storage calls start r m) {file : Nat} {content : Bytes}
    (hstaged : Staged r temporary file content m)
    (hne : temporary ≠ target) {reply : Except Files.Fault Unit} {files : FileSystem Text}
    (h : m.files.rename storage.root temporary target = (reply, files)) :
    (reply = .ok () ∧ Renamed storage.root r temporary target content m.files files)
    ∨ ((∃ fault, reply = .error fault) ∧ files = m.files) := by
  rcases FileSystem.rename_cases hne h with ⟨rfl, d, k, hk, hd, hentry, hleaf, rfl⟩ | h
  · rw [hm.rootNode] at hd
    cases hd
    rw [hstaged.entry] at hentry
    cases hentry
    have hdir := hm.rootDirectory
    -- the root after the rename, name by name
    have hentries : ∀ e other, ((m.files.insert r target file hk).erase r temporary).entry e other
        = if e = r ∧ other = temporary then none
          else if e = r ∧ other = target then some file else m.files.entry e other := by
      intro e other
      rw [FileSystem.entry_erase, FileSystem.entry_insert hdir]
    refine .inl ⟨rfl, ?_, hdir, ?_, fun name ht hn => ?_⟩
    · -- the temporary is a file, so no path to the root leads through it
      refine FileSystem.lookup_erase (k := file) ?_ (FileSystem.entry_of_content hstaged.content)
        (FileSystem.lookup_insert hdir hleaf hm.root)
      rw [FileSystem.entry_insert hdir, if_neg fun h => hne h.2]
      exact hstaged.entry
    · rw [FileSystem.child, hentries, if_neg fun h => hne h.2.symm, if_pos ⟨rfl, rfl⟩]
      show some (FileSystem.node _ file) = _
      have hcontent : ((m.files.insert r target file hk).erase r temporary).content file
          = some content := hstaged.content
      rw [FileSystem.node, hcontent]
    · rw [FileSystem.child, hentries, if_neg fun h => ht h.2, if_neg fun h => hn h.2]
      rfl
  · exact .inr h

/-- HEAD has one value. -/
theorem Value.unique {root : Path} {m : Host ι} {found value : Option Text}
    (hs : Standing root r m.files found) (h : Value r value m) : found = value := by
  have hsame := hs.head.symm.trans h
  have hinj : Function.Injective fun id : Text => Node.file (id ++ [10]) := by
    intro a b hab
    exact List.append_cancel_right (Node.file.inj hab)
  exact Option.map_injective hinj hsame

variable (r)

/-- HEAD has no value, and this process did not change that. -/
structure Unset (i : ι) (m : Host ι) : Prop where
  value : Value r none m
  unswapped : Unswapped i m

/-- HEAD has the value the process found, with the current FORMAT beside it. -/
structure Ready (i : ι) (value : Option Text) (m : Host ι) : Prop where
  value : Value r value m
  unswapped : Unswapped i m
  format : m.files.child r FORMAT = some (.file Directory.STORAGE_FORMAT)

/-- What a process knows when it has just taken the lock. -/
structure Found (i : ι) (value : Option Text) (m : Host ι) : Prop where
  head : Value r value m
  unswapped : Unswapped i m
  format : value ≠ none → m.files.child r FORMAT = some (.file Directory.STORAGE_FORMAT)

variable {r}

theorem frameClosed_found {i : ι} {value : Option Text} : FrameClosed r (Found r i value) := by
  intro m m' hframe hswaps h
  refine ⟨(hframe.child not_unguarded_head).trans h.head, ?_, fun hvalue => ?_⟩
  · rw [Unswapped, hswaps]
    exact h.unswapped
  · exact (hframe.child not_unguarded_format).trans (h.format hvalue)

theorem local_unset {i : ι} (hhead : ¬ touched HEAD) : Local r touched (Unset r i) :=
  fun m m' hsame h => ⟨local_value hhead m m' hsame h.value, local_unswapped m m' hsame h.unswapped⟩

theorem local_ready {i : ι} {value : Option Text} (hhead : ¬ touched HEAD)
    (hformat : ¬ touched FORMAT) : Local r touched (Ready r i value) :=
  fun m m' hsame h => ⟨local_value hhead m m' hsame h.value,
    local_unswapped m m' hsame h.unswapped, (hsame.child FORMAT hformat).trans h.format⟩

theorem local_swapped {i : ι} : Local r touched fun m => i ∈ m.swaps := by
  intro m m' hsame h
  rw [hsame.swaps]
  exact h

/-- A call that finds what it expects, and has an id to install. -/
structure Admitted (call : SwapCall) (value : Option Text) : Prop where
  accepts : call.Accepts value
  next : isObjectId call.next = true

/-- The errors that a call may return after it renamed its file onto HEAD: the flush of
the directory failed, or giving back the lock did. -/
def AfterRename (root : Path) (e : Error) : Prop :=
  (∃ fault, e = Persist.unacknowledged (root ++ [HEAD]) fault) ∨ ∃ fault, e = ioError fault

/-- What a call says of itself when it returns. -/
def Reports {α : Type} (root : Path) (i : ι) (result : Except Error α) (m : Host ι) : Prop :=
  match result with
  | .ok _ => i ∈ m.swaps
  | .error e => i ∈ m.swaps → AfterRename root e

end

section

variable {ι : Type} [DecidableEq ι] (storage : FilesystemStorage) (calls : ι → SwapCall)
  (start : Option Text) (r : Nat) (i : ι)

/-- A process that holds the lock before and after. -/
def Guarded {α : Type} (x : Process α) (F : Host ι → Prop)
    (G : Except Error α → Host ι → Prop) : Prop :=
  Meets Host.platform (swapping storage calls start r) i
    (fun result m => m.lock = some i ∧ G result m) x fun m => m.lock = some i ∧ F m

/-- A call of the holder: it is always answered, if only with a failure. -/
def Answers {α : Type} (x : Process α) (F : Host ι → Prop) (M : α → Host ι → Prop) : Prop :=
  Guarded storage calls start r i x F fun result m => ∃ a, result = .ok a ∧ M a m

variable {storage calls start r i}

namespace Guarded

variable {α β : Type} {F : Host ι → Prop} {G : Except Error α → Host ι → Prop}

theorem pure {a : α} (h : ∀ m, F m → G (.ok a) m) : Guarded storage calls start r i (pure a) F G :=
  Meets.pure fun m _ hm => ⟨hm.1, h m hm.2⟩

theorem fail {e : Error} (h : ∀ m, F m → G (.error e) m) :
    Guarded storage calls start r i (Thread.fail e) F G :=
  Meets.fail fun m _ hm => ⟨hm.1, h m hm.2⟩

theorem lift {result : Except Error α} (h : ∀ m, F m → G result m) :
    Guarded storage calls start r i (Thread.lift result) F G :=
  Meets.lift fun m _ hm => ⟨hm.1, h m hm.2⟩

theorem bind {x : Process α} {f : α → Process β} {G' : Except Error β → Host ι → Prop}
    (hx : Guarded storage calls start r i x F G)
    (hf : ∀ a, Guarded storage calls start r i (f a) (G (.ok a)) G')
    (herror : ∀ e m, G (.error e) m → G' (.error e) m) :
    Guarded storage calls start r i (x >>= f) F G' := by
  refine Meets.bind (fun a (m : Host ι) => m.lock = some i ∧ G (.ok a) m) (Meets.mono hx ?_) hf
  intro result m _ h
  cases result with
  | ok a => exact h
  | error e => exact ⟨h.1, herror e m h.2⟩

theorem weaken {x : Process α} {F' : Host ι → Prop} (hx : Guarded storage calls start r i x F G)
    (h : ∀ m, F' m → F m) : Guarded storage calls start r i x F' G :=
  Meets.weaken hx fun m _ hm => ⟨hm.1, h m hm.2⟩

theorem mono {x : Process α} {G' : Except Error α → Host ι → Prop}
    (hx : Guarded storage calls start r i x F G) (h : ∀ result m, G result m → G' result m) :
    Guarded storage calls start r i x F G' :=
  Meets.mono hx fun result m _ hm => ⟨hm.1, h result m hm.2⟩

end Guarded

namespace Answers

variable {α β : Type} {F : Host ι → Prop} {M : α → Host ι → Prop}

theorem bind {x : Process α} {f : α → Process β} {G : Except Error β → Host ι → Prop}
    (hx : Answers storage calls start r i x F M)
    (hf : ∀ a, Guarded storage calls start r i (f a) (M a) G) :
    Guarded storage calls start r i (x >>= f) F G := by
  refine Guarded.bind hx (fun a => (hf a).weaken ?_) ?_
  · rintro m ⟨b, ⟨⟩, h⟩
    exact h
  · rintro e m ⟨b, ⟨⟩, -⟩

theorem weaken {x : Process α} {F' : Host ι → Prop} (hx : Answers storage calls start r i x F M)
    (h : ∀ m, F' m → F m) : Answers storage calls start r i x F' M :=
  Guarded.weaken hx h

/-- One call of the holder. -/
theorem perform {call : FileCall} {G : call.Reply → Host ι → Prop}
    (hstep : ∀ m outcome reply m', Swapped storage calls start r m → m.lock = some i → F m →
      Host.perform i outcome call m = some (reply, m') →
        Swapped storage calls start r m' ∧ m'.lock = some i
          ∧ (∀ j, j ≠ i → (j ∈ m'.swaps ↔ j ∈ m.swaps)) ∧ G reply m')
    (hclosed : ∀ reply, FrameClosed r (G reply)) :
    Answers storage calls start r i (Thread.perform call) F G := by
  refine Meets.perform (fun m hm hF outcome reply m' h => ?_) fun reply => ?_
  · obtain ⟨hinv, hlock, hmine, hG⟩ := hstep m outcome reply m' hm hF.1 hF.2 h
    refine ⟨hinv, fun j hj => ⟨hmine j hj, fun hjlock => ?_⟩, hlock, ?_⟩
    · -- nobody else holds the lock
      rw [hF.1] at hjlock
      cases hjlock
      exact absurd rfl hj
    · exact ⟨reply, rfl, hG⟩
  · -- the others come between the answer and what is done with it
    rintro m m' hm hm' hrely ⟨hlock, answer, ⟨⟩, hG⟩
    obtain ⟨hlock', hG'⟩ := stable_held (hclosed reply) m m' hm hm' hrely ⟨hlock, hG⟩
    exact ⟨hlock', reply, rfl, hG'⟩

end Answers

end

end GitE2EE

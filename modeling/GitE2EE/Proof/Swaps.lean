import GitE2EE.Proof.Replacing

/-!
# HEAD of a directory is a compare-and-swap register

Any number of processes swap the head of one directory, each through either of the two
swaps, their system calls interleaved and failing as the platform likes, and any of them
stopped between two calls. The renames onto HEAD that took effect, in the order they did,
are calls of a compare-and-swap register: each found the value it expects and left its
own.
-/

namespace GitE2EE

open Wire Effect Files FilesystemStorage

section

variable {ι : Type} [DecidableEq ι] {storage : FilesystemStorage} {calls : ι → SwapCall}
  {start : Option Text} {r : Nat} {i : ι}

/-! ## Giving the lock back -/

theorem Host.release_files (m : Host ι) (i : ι) : (m.release i).files = m.files := by
  unfold Host.release
  split <;> rfl

theorem Host.release_swaps (m : Host ι) (i : ι) : (m.release i).swaps = m.swaps := by
  unfold Host.release
  split <;> rfl

/-- Giving back the lock, or losing it, changes nothing else and takes no lock from
anyone. -/
theorem Swapped.release {m : Host ι} (hm : Swapped storage calls start r m) (i : ι) :
    Swapped storage calls start r (m.release i) ∧ ∀ j, j ≠ i → LeavesTo r j m (m.release i) := by
  refine ⟨⟨?_, ?_⟩, fun j hj => ⟨?_, fun hlock => ⟨?_, ?_, ?_⟩⟩⟩
  · rw [Host.release_files, Host.release_swaps]
    exact hm.standing
  · rw [Host.release_swaps]
    exact hm.nodup
  · rw [Host.release_swaps]
  · unfold Host.release
    rw [hlock, if_neg fun h => hj (Option.some.inj h), hlock]
  · rw [Host.release_files]
    exact .refl
  · exact Host.release_swaps m i

/-- Neither giving back the lock nor failing to changes who has swapped. -/
theorem meets_release {call : FileCall} (A : Prop → Prop)
    (h : ∀ m outcome reply m', Host.perform i outcome call m = some (reply, m') →
      m' = m ∨ m' = m.release i) :
    Meets Host.platform (swapping storage calls start r) i
      (fun result m => (∃ reply, result = .ok reply) ∧ A (i ∈ m.swaps))
      (Thread.perform call : Process call.Reply) fun m => A (i ∈ m.swaps) := by
  refine Meets.perform (fun m hm hA outcome reply m' hstep => ?_) fun reply m m' _ _ hrely hA => ?_
  · rcases h m outcome reply m' hstep with rfl | rfl
    · exact ⟨hm, fun j _ => ⟨Iff.rfl, fun hlock => ⟨hlock, .refl, rfl⟩⟩, ⟨reply, rfl⟩, hA⟩
    · refine ⟨(hm.release i).1, (hm.release i).2, ⟨reply, rfl⟩, ?_⟩
      rw [Host.release_swaps]
      exact hA
  · rw [propext hrely.mine]
    exact hA

theorem unlock_releases (m : Host ι) (outcome : Outcome) (reply : FileCall.unlock.Reply)
    (m' : Host ι) (h : Host.perform i outcome .unlock m = some (reply, m')) :
    m' = m ∨ m' = m.release i := by
  cases outcome with
  | succeeds =>
    cases h
    exact .inr rfl
  | fails fault written =>
    cases h
    exact .inl rfl

theorem closeLock_releases (m : Host ι) (outcome : Outcome) (reply : FileCall.closeLock.Reply)
    (m' : Host ι) (h : Host.perform i outcome .closeLock m = some (reply, m')) :
    m' = m ∨ m' = m.release i := by
  cases h
  exact .inr rfl

/-- `unlock` at the end of a call that has swapped, or has not. -/
theorem meets_unlock (A : Prop → Prop) :
    Meets Host.platform (swapping storage calls start r) i
      (fun result m => (∀ e, result = .error e → ∃ fault, e = ioError fault) ∧ A (i ∈ m.swaps))
      unlock fun m => A (i ∈ m.swaps) := by
  refine Meets.bind (fun _ m => A (i ∈ m.swaps))
    (Meets.mono (meets_release A unlock_releases) ?_) ?_
  · rintro result m _ ⟨⟨reply, rfl⟩, hA⟩
    exact hA
  · intro reply
    refine Meets.lift fun m _ hA => ⟨fun e he => ?_, hA⟩
    cases reply with
    | ok _ => cases he
    | error fault =>
      cases he
      exact ⟨fault, rfl⟩

/-- A call that gives up after `unlock`. -/
theorem meets_giveUp {α : Type} (e : Error) :
    Meets Host.platform (swapping storage calls start r) i (Reports storage.root i)
      (do unlock; Thread.fail e : Process α) (Unswapped i) := by
  refine Meets.bind (fun _ => Unswapped i) (Meets.mono (meets_unlock (¬ ·)) ?_) ?_
  · rintro result m _ ⟨-, h⟩
    cases result with
    | ok _ => exact h
    | error e => exact fun hmem => absurd hmem h
  · intro _
    exact Meets.fail fun m _ h hmem => absurd hmem h

/-! ## The swaps -/

theorem meets_publishHead {value : Option Text} (hadmitted : Admitted (calls i) value)
    (random : Temporaries) :
    Meets Host.platform (swapping storage calls start r) i (Reports storage.root i)
      (storage.publishHead random value.isNone (calls i).next) fun m =>
        m.lock = some i ∧ Found r i value m := by
  have hreplace : Meets Host.platform (swapping storage calls start r) i (Reports storage.root i)
      (do
        Persist.replaceFileDurably storage.root HEAD ((calls i).next ++ [10]) random.head
        unlock) fun m => m.lock = some i ∧ Ready r i value m := by
    refine Meets.bind (fun _ m => i ∈ m.swaps)
      (Meets.mono (guarded_replaceHead hadmitted random.head) ?_) fun _ => ?_
    · rintro result m _ ⟨-, h⟩
      cases result with
      | ok _ => exact h
      | error e =>
        rcases h with ⟨h, -⟩ | ⟨-, fault, rfl⟩
        · exact fun hmem => absurd hmem h.unswapped
        · exact fun _ => .inl ⟨fault, rfl⟩
    · refine Meets.mono (meets_unlock fun p => p) fun result m _ h => ?_
      cases result with
      | ok _ => exact h.2
      | error e => exact fun _ => .inr (h.1 e rfl)
  unfold publishHead
  -- only a first head comes after the genesis files
  cases value with
  | some id =>
    exact hreplace.weaken fun m _ h =>
      ⟨h.1, h.2.head, h.2.unswapped, h.2.format (Option.some_ne_none id)⟩
  | none =>
    refine Meets.bind (fun result m => (result = .ok () → m.lock = some i ∧ Ready r i none m)
      ∧ Unswapped i m) (Meets.attempt (Meets.mono (Guarded.weaken
        (guarded_writeGenesisFiles random) fun m h => ⟨h.head, h.unswapped⟩) ?_)) fun result => ?_
    · rintro result m _ ⟨hlock, hunset, hready⟩
      exact ⟨fun h => ⟨hlock, hready h⟩, hunset.unswapped⟩
    cases result with
    | ok _ => exact hreplace.weaken fun m _ h => h.1 rfl
    | error e => exact (meets_giveUp e).weaken fun m _ h => h.2

theorem meets_lockExclusive :
    Meets Host.platform (swapping storage calls start r) i
      (fun result m => ∃ reply, result = .ok reply ∧ Unswapped i m ∧ (reply = .ok () →
        ∃ value, (∀ id, value = some id → isObjectId id = true)
          ∧ m.lock = some i ∧ Found r i value m))
      Sys.lockExclusive (Unswapped i) := by
  refine Meets.perform (fun m hm hi outcome reply m' h => ?_) fun reply => ?_
  · cases outcome with
    | fails fault written =>
      cases h
      exact ⟨hm, fun j _ => ⟨Iff.rfl, fun hlock => ⟨hlock, .refl, rfl⟩⟩, _, rfl, hi,
        fun h => by cases h⟩
    | succeeds =>
      -- the lock was free: what stands now is what the holder will find
      replace h : (if m.lock = none then
        some ((.ok () : Except Files.Fault Unit), { m with lock := some i }) else none)
          = some (reply, m') := h
      split at h
      · rename_i hfree
        cases h
        obtain ⟨value, hs, hreplay⟩ := hm.standing
        refine ⟨⟨⟨value, hs, hreplay⟩, hm.nodup⟩, fun j _ => ⟨Iff.rfl, fun hlock => ?_⟩, _, rfl, hi,
          fun _ => ⟨value, hs.id, rfl, hs.head, hi, fun hvalue => ?_⟩⟩
        · rw [hfree] at hlock
          cases hlock
        · obtain ⟨id, hid⟩ := Option.ne_none_iff_exists'.mp hvalue
          exact hs.format id hid
      · cases h
  · rintro m m' hm hm' hrely ⟨answer, hanswer, hi, hfound⟩
    refine ⟨answer, hanswer, stable_unswapped m m' hm hm' hrely hi, fun hok => ?_⟩
    obtain ⟨value, hid, hheld⟩ := hfound hok
    exact ⟨value, hid, stable_held frameClosed_found m m' hm hm' hrely hheld⟩

/-- A call that works under the lock, by what it does once it has it. -/
theorem meets_locked {body : Process Unit}
    (hbody : ∀ value, (∀ id, value = some id → isObjectId id = true) →
      Meets Host.platform (swapping storage calls start r) i (Reports storage.root i) body
        fun m => m.lock = some i ∧ Found r i value m) :
    Meets Host.platform (swapping storage calls start r) i (Reports storage.root i)
      (storage.locked body) (Unswapped i) := by
  have hunswapped : ∀ {α : Type} {e : Error} {m : Host ι}, Unswapped i m →
      Reports storage.root i (.error e : Except Error α) m := fun h hmem => absurd hmem h
  refine Meets.bind (fun _ => Unswapped i) (Meets.mono idles_lockFile ?_) fun _ => ?_
  · rintro result m _ ⟨h, -⟩
    cases result with
    | ok _ => exact h
    | error e => exact hunswapped h
  refine Meets.bind (fun reply m => Unswapped i m ∧ (reply = .ok () →
      ∃ value, (∀ id, value = some id → isObjectId id = true)
        ∧ m.lock = some i ∧ Found r i value m))
    (Meets.mono meets_lockExclusive ?_) fun reply => ?_
  · rintro result m _ ⟨reply, rfl, h⟩
    exact h
  cases reply with
  | error fault => exact Meets.done fun m _ h => hunswapped h.1
  | ok _ =>
    refine Meets.bind (fun result => Reports storage.root i result) (Meets.attempt ?_)
      fun result => ?_
    · refine (Meets.fix fun value => Meets.fact (hbody value)).weaken fun m _ h => h.2 rfl
    · -- closing releases the lock whatever the body came to, and keeps what it reports
      have hclose : Meets Host.platform (swapping storage calls start r) i
          (fun result' m => (∃ reply, result' = .ok reply) ∧ Reports storage.root i result m)
          Sys.closeLock (Reports storage.root i result) := by
        cases result with
        | ok _ => exact meets_release (fun p => p) closeLock_releases
        | error e =>
          exact meets_release (fun p => p → AfterRename storage.root e) closeLock_releases
      refine Meets.bind (fun _ => Reports storage.root i result) (Meets.mono hclose ?_)
        fun _ => Meets.lift fun _ _ h => h
      rintro result' m _ ⟨⟨reply, rfl⟩, h⟩
      exact h

/-- Both swaps check the id they are to install first. -/
theorem meets_validated {next : Text} {rest : Process Unit}
    (hrest : isObjectId next = true → Meets Host.platform (swapping storage calls start r) i
      (Reports storage.root i) rest (Unswapped i)) :
    Meets Host.platform (swapping storage calls start r) i (Reports storage.root i)
      (do Thread.lift (validateId next); rest) (Unswapped i) := by
  refine Meets.bind (fun _ m => isObjectId next = true ∧ Unswapped i m)
    (Meets.lift fun m _ h => ?_) fun _ => Meets.fact hrest
  cases hvalid : validateId next with
  | ok _ => exact ⟨by simpa [validateId] using hvalid, h⟩
  | error e => exact fun hmem => absurd hmem h

/-- `compare_and_swap_head`. -/
theorem meets_compareAndSwapHead {expected : Option Text} {next : Text}
    (hcall : calls i = .plain expected next) (random : Temporaries) :
    Meets Host.platform (swapping storage calls start r) i (Reports storage.root i)
      (storage.compareAndSwapHead random expected next) (Unswapped i) := by
  refine meets_validated fun hnext => meets_locked fun value hid => ?_
  refine Meets.bind (fun actual m => actual = value ∧ m.lock = some i ∧ Found r i value m)
    (Meets.mono (guarded_readHead frameClosed_found (fun m h => h.head) hid) ?_)
    fun actual => Meets.fact ?_
  · rintro result m _ ⟨hlock, hfound, hvalue⟩
    cases result with
    | ok actual => exact ⟨hvalue actual rfl, hlock, hfound⟩
    | error e => exact fun hmem => absurd hmem hfound.unswapped
  rintro rfl
  -- the comparison is made under the lock, so it still holds at the rename
  by_cases hexpected : actual = expected
  · rw [if_neg (not_not.mpr hexpected)]
    have hadmitted : Admitted (calls i) actual := by
      rw [hcall]
      exact ⟨hexpected, hnext⟩
    have hpublish : Meets Host.platform (swapping storage calls start r) i _ _ _ :=
      meets_publishHead hadmitted random
    rw [hcall] at hpublish
    exact hpublish
  · rw [if_pos hexpected]
    exact (meets_giveUp _).weaken fun m _ h => h.2.unswapped

/-- `compare_and_swap_observed_head`. -/
theorem meets_compareAndSwapObservedHead {observed : HeadObservation} {next : Text}
    (hcall : calls i = .observed observed next) (random : Temporaries) :
    Meets Host.platform (swapping storage calls start r) i (Reports storage.root i)
      (storage.compareAndSwapObservedHead random observed next) (Unswapped i) := by
  refine meets_validated fun hnext => meets_locked fun value hid => ?_
  refine Meets.bind (fun outcome m => (∀ actual, outcome = .ok actual →
      actual = value.map SwapCall.written) ∧ m.lock = some i ∧ Found r i value m)
    (Meets.attempt (Meets.mono (guarded_readStoredHead frameClosed_found (fun m h => h.head) hid)
      ?_)) fun outcome => Meets.fact fun hactual => ?_
  · rintro result m _ ⟨hlock, hfound, hvalue⟩
    exact ⟨hvalue, hlock, hfound⟩
  cases outcome with
  | error e => exact (meets_giveUp e).weaken fun m _ h => h.2.unswapped
  | ok actual =>
    obtain rfl := hactual actual rfl
    by_cases hexpected : value.map SwapCall.written = observed.head
    · have hadmitted : Admitted (calls i) value := by
        rw [hcall]
        exact ⟨hexpected, hnext⟩
      have hpublish : Meets Host.platform (swapping storage calls start r) i _ _ _ :=
        meets_publishHead hadmitted random
      rw [hcall] at hpublish
      dsimp only
      rw [if_neg (not_not.mpr hexpected), Option.isNone_map]
      exact hpublish
    · dsimp only
      rw [if_pos hexpected]
      exact (meets_giveUp _).weaken fun m _ h => h.2.unswapped

/-- Every swap reports what it did. -/
theorem meets_process (random : Temporaries) :
    Meets Host.platform (swapping storage calls start r) i (Reports storage.root i)
      ((calls i).process storage random) (Unswapped i) := by
  cases hcall : calls i with
  | plain expected next => exact meets_compareAndSwapHead hcall random
  | observed observation next => exact meets_compareAndSwapObservedHead hcall random

end

/-! ## Runs -/

section

variable {ι : Type} [DecidableEq ι]

/-- **What a call does to the renames**: nothing, or it appends one of the process that
makes it. -/
theorem Host.perform_renames {i : ι} {outcome : Outcome} {call : FileCall} {m m' : Host ι}
    {reply : call.Reply} (h : Host.perform i outcome call m = some (reply, m')) :
    m'.renames = m.renames ∨ ∃ target, m'.renames = m.renames ++ [(i, target)] := by
  have hfiles : ∀ {α : Type} (f : FileSystem Text → Except Files.Fault α × FileSystem Text)
      (answer : Except Files.Fault α), m.onFiles outcome f = some (answer, m') →
      m'.renames = m.renames := by
    intro α f answer h
    rcases Host.onFiles_cases h with ⟨-, rfl⟩ | ⟨-, -, h⟩
    · rfl
    · exact h
  have hrelease : (m.release i).renames = m.renames := by
    unfold Host.release
    split <;> rfl
  cases call with
  | «exists» path => exact .inl (by rw [(Host.ask_cases h).1])
  | isDir path => exact .inl (by rw [(Host.ask_cases h).1])
  | createDir parent name => exact .inl (hfiles (·.createDir parent name) reply h)
  | removeDir parent name => exact .inl (hfiles (·.removeDir parent name) reply h)
  | createNew parent name => exact .inl (hfiles (·.createNew parent name) reply h)
  | syncAll file => exact .inl (hfiles (fun files => (.ok (), files.syncFile file)) reply h)
  | hardLink directory source parent name =>
    exact .inl (hfiles (·.hardLink directory source parent name) reply h)
  | removeFile parent name => exact .inl (hfiles (·.removeFile parent name) reply h)
  | readFile path => exact .inl (hfiles (fun files => (.ok (files.read path), files)) reply h)
  | syncDirectory path => exact .inl (hfiles (·.syncDir path) reply h)
  | openLock root name => exact .inl (hfiles (Host.createLock root name) reply h)
  | writeAll file data =>
    cases outcome with
    | succeeds => cases h; exact .inl rfl
    | fails fault written => cases h; exact .inl rfl
  | rename directory source target =>
    rcases rename_answer h with ⟨-, rfl⟩ | ⟨files, -, rfl, -⟩
    · exact .inl rfl
    · exact .inr ⟨target, rfl⟩
  | lockExclusive =>
    cases outcome with
    | succeeds =>
      replace h : (if m.lock = none then
        some ((.ok () : Except Files.Fault Unit), { m with lock := some i }) else none)
          = some (reply, m') := h
      split at h
      · cases h; exact .inl rfl
      · cases h
    | fails fault written => cases h; exact .inl rfl
  | unlock =>
    rcases unlock_releases m outcome reply m' h with rfl | rfl
    · exact .inl rfl
    · exact .inl hrelease
  | closeLock => cases h; exact .inl hrelease

theorem Host.perform_swaps {i : ι} {outcome : Outcome} {call : FileCall} {m m' : Host ι}
    {reply : call.Reply} (h : Host.perform i outcome call m = some (reply, m')) :
    m'.swaps = m.swaps ∨ m'.swaps = m.swaps ++ [i] := by
  rcases Host.perform_renames h with h | ⟨target, h⟩
  · exact .inl (swaps_of_renames h)
  · by_cases htarget : target = HEAD
    · right
      simp [Host.swaps, h, htarget]
    · left
      simp [Host.swaps, h, htarget]

variable (storage : FilesystemStorage) (calls : ι → SwapCall) (random : ι → Temporaries)

/-- The processes, before any of them has made a call. -/
def swapPool (files : FileSystem Text) :
    Pool ι FileCall FileCall.Reply Error Unit (Host ι) where
  state := ⟨files, none, []⟩
  threads i := some ((calls i).process storage (random i))

/-- **HEAD as a register.** The swaps of a run, in the order they took effect, explain
every value HEAD had: `moves` led from the pool `first` to `last`. -/
structure AtomicSwaps (start : Option Text) (r : Nat)
    (first : Pool ι FileCall FileCall.Reply Error Unit (Host ι)) (moves : List (Move ι Outcome))
    (last : Pool ι FileCall FileCall.Reply Error Unit (Host ι)) : Prop where
  /-- HEAD is what the swaps made of it, one after another, each finding what it expects;
  it is absent, or one complete id with the current FORMAT beside it. -/
  explained : ∃ value, Standing storage.root r last.state.files value
    ∧ replayed calls start last.state.swaps = some value
  once : last.state.swaps.Nodup
  /-- The swaps only ever grow, by the process that makes a step; no other step changes
  HEAD. -/
  stepwise : ∀ before move mid, moves = before ++ [move] →
    first.run Host.platform before = some mid →
    (last.state.swaps = mid.state.swaps
      ∧ last.state.files.child r HEAD = mid.state.files.child r HEAD)
    ∨ ∃ i outcome, move = .step i outcome ∧ last.state.swaps = mid.state.swaps ++ [i]
  succeeded : ∀ i, last.threads i = some (.done (.ok ())) → i ∈ last.state.swaps
  conflict : ∀ i expected actual,
    last.threads i = some (.done (.error (.of (.casConflict expected actual)))) →
      i ∉ last.state.swaps
  /-- Only the flush and the unlock after the rename fail a call that has swapped. -/
  failed : ∀ i e, last.threads i = some (.done (.error e)) → i ∈ last.state.swaps →
    AfterRename storage.root e
  /-- Of calls that expect one value, which no swap puts back, one swaps. -/
  exclusive : ∀ value i j, i ∈ last.state.swaps → j ∈ last.state.swaps →
    (calls i).Accepts value → (calls j).Accepts value →
    (∀ k ∈ last.state.swaps, some (calls k).next ≠ value) → i = j

variable {storage calls random} {start : Option Text} {r : Nat} {files : FileSystem Text}

theorem swapPool_disciplined (h : Standing storage.root r files start) :
    Disciplined Host.platform (swapping storage calls start r) (Reports storage.root)
      (swapPool storage calls random files) := by
  refine ⟨⟨⟨start, h, rfl⟩, List.nodup_nil⟩, fun i x hx => ?_⟩
  cases hx
  exact ⟨Unswapped i, stable_unswapped, List.not_mem_nil, meets_process (random i)⟩

theorem swapPool_run (h : Standing storage.root r files start) {moves : List (Move ι Outcome)}
    {last : Pool ι FileCall FileCall.Reply Error Unit (Host ι)}
    (hrun : (swapPool storage calls random files).run Host.platform moves = some last) :
    Swapped storage calls start r last.state
      ∧ ∀ i result, last.threads i = some (.done result) →
        Reports storage.root i result last.state :=
  Meets.run (fun i _ hm => Swapped.release hm i) (swapPool_disciplined h) hrun

/-- A swap that expects a value finds it: another with the same expectation came after
someone put the value back. -/
theorem replayed_exclusive {swaps : List ι} {found value : Option Text}
    (h : replayed calls start swaps = some found) {i j : ι} (hi : i ∈ swaps) (hj : j ∈ swaps)
    (hacc : (calls i).Accepts value) (hacc' : (calls j).Accepts value)
    (hrestored : ∀ k ∈ swaps, some (calls k).next ≠ value) : i = j := by
  by_contra hne
  -- whichever of the two comes later finds what some call before it installed
  have hlater : ∀ {a b : ι}, (calls b).Accepts value → ∀ before between after,
      swaps ≠ before ++ a :: between ++ b :: after := by
    rintro a b hb before between after rfl
    obtain ⟨k, hk, hkv⟩ : ∃ k ∈ a :: between, some (calls k).next = value :=
      Register.replay_restored h fun v hv => SwapCall.Accepts.unique hv hb
    refine hrestored k ?_ hkv
    simp only [List.mem_append]
    rcases List.mem_cons.mp hk with rfl | hk
    · exact .inl (.inr List.mem_cons_self)
    · exact .inl (.inr (List.mem_cons_of_mem _ hk))
  obtain ⟨before, after, hsplit⟩ := List.append_of_mem hi
  rw [hsplit] at hj
  rcases List.mem_append.mp hj with hj | hj
  · obtain ⟨b, c, rfl⟩ := List.append_of_mem hj
    exact hlater hacc b c after hsplit
  · rcases List.mem_cons.mp hj with rfl | hj
    · exact hne rfl
    · obtain ⟨b, c, rfl⟩ := List.append_of_mem hj
      exact hlater hacc' before b c (by rw [hsplit, List.append_assoc, List.cons_append])

/-- One more move. -/
theorem swapPool_step (h : Standing storage.root r files start)
    {before : List (Move ι Outcome)} {move : Move ι Outcome}
    {mid last : Pool ι FileCall FileCall.Reply Error Unit (Host ι)}
    (hmid : (swapPool storage calls random files).run Host.platform before = some mid)
    (hstep : mid.step Host.platform move = some last) :
    (last.state.swaps = mid.state.swaps
      ∧ last.state.files.child r HEAD = mid.state.files.child r HEAD)
    ∨ ∃ i outcome, move = .step i outcome ∧ last.state.swaps = mid.state.swaps ++ [i] := by
  have hlast : (swapPool storage calls random files).run Host.platform (before ++ [move])
      = some last := by
    rw [Pool.run_concat, hmid]
    exact hstep
  -- equal swaps are equal values of HEAD
  have hhead : last.state.swaps = mid.state.swaps →
      last.state.files.child r HEAD = mid.state.files.child r HEAD := by
    intro hswaps
    obtain ⟨u, hu, hreplay⟩ := (swapPool_run h hmid).1.standing
    obtain ⟨v, hv, hreplay'⟩ := (swapPool_run h hlast).1.standing
    rw [hswaps, hreplay] at hreplay'
    cases hreplay'
    rw [hu.head, hv.head]
  rcases Pool.step_cases _ hstep with
    ⟨i, outcome, call, k, reply, hmove, -, hperform, -⟩ | ⟨i, -, hstate, -⟩
  · rcases Host.perform_swaps hperform with hswaps | hswaps
    · exact .inl ⟨hswaps, hhead hswaps⟩
    · exact .inr ⟨i, outcome, hmove, hswaps⟩
  · have hswaps : last.state.swaps = mid.state.swaps := by
      rw [hstate]
      exact Host.release_swaps mid.state i
    exact .inl ⟨hswaps, hhead hswaps⟩

/-- **HEAD of a directory is an atomic compare-and-swap register**, however the calls of
any number of swaps are interleaved, fail, or are cut off by the end of their process. -/
theorem directory_head_atomic (h : Standing storage.root r files start)
    {moves : List (Move ι Outcome)} {last : Pool ι FileCall FileCall.Reply Error Unit (Host ι)}
    (hrun : (swapPool storage calls random files).run Host.platform moves = some last) :
    AtomicSwaps storage calls start r (swapPool storage calls random files) moves last := by
  obtain ⟨hswapped, hreports⟩ := swapPool_run h hrun
  obtain ⟨value, hs, hreplay⟩ := hswapped.standing
  refine ⟨⟨value, hs, hreplay⟩, hswapped.nodup, ?_, ?_, ?_, ?_, ?_⟩
  · rintro before move mid rfl hmid
    rw [Pool.run_concat, hmid] at hrun
    exact swapPool_step h hmid hrun
  · exact fun i hi => hreports i _ hi
  · intro i expected actual hi hmem
    rcases hreports i _ hi hmem with ⟨fault, h⟩ | ⟨fault, h⟩
    · cases h
    · cases h
  · exact fun i e hi hmem => hreports i _ hi hmem
  · exact fun value i j hi hj => replayed_exclusive hreplay hi hj

end

/-- Two creators of one repository. -/
def creators (first : Bool) : SwapCall :=
  .plain none (List.replicate 64 (if first then 97 else 98))

/-- One creator runs to its end, then the other. -/
def oneAfterTheOther : List (Move Bool Outcome) :=
  List.replicate 35 (.step true .succeeds) ++ List.replicate 11 (.step false .succeeds)

theorem directory_head_atomic_creators :
    ∃ last, (swapPool ⟨[]⟩ creators (fun _ => ⟨[], [], []⟩) FileSystem.empty).run Host.platform
        oneAfterTheOther = some last
      ∧ last.state.swaps = [true]
      ∧ AtomicSwaps ⟨[]⟩ creators none 0
        (swapPool ⟨[]⟩ creators (fun _ => ⟨[], [], []⟩) FileSystem.empty)
          oneAfterTheOther last := by
  have hrun : ((swapPool ⟨[]⟩ creators (fun _ => ⟨[], [], []⟩) FileSystem.empty).run Host.platform
      oneAfterTheOther).map (·.state.swaps) = some [true] := by decide
  obtain ⟨last, hlast, hswaps⟩ := Option.map_eq_some_iff.mp hrun
  have hstart : Standing [] 0 FileSystem.empty none :=
    ⟨rfl, rfl, rfl, (fun _ h => by cases h), fun _ h => by cases h⟩
  exact ⟨last, hlast, hswaps, directory_head_atomic hstart hlast⟩

end GitE2EE

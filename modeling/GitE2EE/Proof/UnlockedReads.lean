import GitE2EE.Lib.Interference
import GitE2EE.Proof.Swaps

/-!
# Reading the head without the lock

`read_head` and `observe_head` take no lock. They read FORMAT, look for HEAD and read HEAD,
and the swaps of other processes run between these calls. A swap writes FORMAT before HEAD,
so a reader that looks for HEAD first would never find it without FORMAT; this one reads
FORMAT first, and takes a repository created in between for one of an older format.
-/

namespace GitE2EE

open Wire Effect Files FilesystemStorage

section

variable {ι : Type} {storage : FilesystemStorage} {calls : ι → SwapCall} {r : Nat}

/-- What a reader of a new repository should say of its head: that there is none, if no swap has
taken effect, or the id that the one swap installed. -/
def Won (calls : ι → SwapCall) (swaps : List ι) (head : Option Text) : Prop :=
  (swaps = [] ∧ head = none) ∨ ∃ winner, swaps = [winner] ∧ head = some (calls winner).next

/-- Of swaps that all expect no head, at most one takes effect, and HEAD is what it put there. -/
theorem replayed_genesis (hgenesis : ∀ i, (calls i).Accepts none) {swaps : List ι}
    {value : Option Text} (h : replayed calls none swaps = some value) : Won calls swaps value := by
  cases swaps with
  | nil =>
    cases h
    exact .inl ⟨rfl, rfl⟩
  | cons winner rest =>
    rw [replayed, Register.replay, if_pos (hgenesis winner)] at h
    cases rest with
    | nil =>
      cases h
      exact .inr ⟨winner, rfl, rfl⟩
    | cons other rest =>
      -- the second swap would have to find no head where the first has put one
      have hrefuses : ¬ (calls other).Accepts (some (calls winner).next) := fun haccepts => by
        cases haccepts.unique (hgenesis other)
      rw [Register.replay, if_neg hrefuses] at h
      cases h

theorem read_child {m : FileSystem Text} {name : Text} (hroot : m.lookup storage.root = some r) :
    m.read (storage.root ++ [name]) = m.child r name := by
  rw [FileSystem.read, FileSystem.lookup_concat hroot]
  rfl

theorem exists_child {m : FileSystem Text} {name : Text} (hroot : m.lookup storage.root = some r) :
    m.exists (storage.root ++ [name]) = (m.child r name).isSome := by
  rw [FileSystem.exists, FileSystem.lookup_concat hroot, FileSystem.child, Option.isSome_map]

/-- The reader takes what it saw for a repository of this format: FORMAT was the current one when
it read it, or there was none and still no HEAD when it looked for that. -/
def Recognised (r : Nat) (atFormat atHead : FileSystem Text) : Prop :=
  atFormat.child r FORMAT = some (.file Directory.STORAGE_FORMAT)
    ∨ (atFormat.child r FORMAT = none ∧ atHead.child r HEAD = none)

/-- What `check_format` concludes from the FORMAT it read and whether it then found HEAD. -/
def formatVerdict (storage : FilesystemStorage) (format : Option Node) (headPresent : Bool) :
    Result Unit := do
  let format ← Directory.readRootFile (displayPath (storage.root ++ [FORMAT]))
    Directory.MAX_STORAGE_FORMAT_BYTES (format.map entryOf)
  Directory.checkStorageFormat (displayPath storage.root) format headPresent

theorem formatVerdict_eq_ok (storage : FilesystemStorage) {atFormat atHead : FileSystem Text} :
    formatVerdict storage (atFormat.child r FORMAT) (atHead.child r HEAD).isSome = .ok ()
      ↔ Recognised r atFormat atHead := by
  rw [Recognised]
  cases atFormat.child r FORMAT with
  | none =>
    cases atHead.child r HEAD with
    | none => exact ⟨fun _ => .inr ⟨rfl, rfl⟩, fun _ => rfl⟩
    | some node =>
      constructor
      · intro h
        cases h
      · rintro (h | ⟨-, h⟩) <;> cases h
  | some node =>
    cases node with
    | directory =>
      constructor
      · intro h
        cases h
      · rintro (h | ⟨h, -⟩) <;> cases h
    | file content =>
      -- any other content is refused, for its length or for its text
      by_cases hcurrent : content = Directory.STORAGE_FORMAT
      · subst hcurrent
        refine ⟨fun _ => .inl rfl, fun _ => ?_⟩
        have hsize : ¬ Directory.MAX_STORAGE_FORMAT_BYTES < Directory.STORAGE_FORMAT.length := by
          decide
        simp [formatVerdict, Directory.readRootFile, readRegularBounded, entryOf, hsize,
          Directory.checkStorageFormat]
        rfl
      · constructor
        · intro h
          exfalso
          by_cases hsize : Directory.MAX_STORAGE_FORMAT_BYTES < content.length
          · simp [formatVerdict, Directory.readRootFile, readRegularBounded, entryOf, hsize] at h
            cases h
          · simp [formatVerdict, Directory.readRootFile, readRegularBounded, entryOf, hsize,
              Directory.checkStorageFormat, hcurrent] at h
            cases h
        · rintro (h | ⟨h, -⟩)
          · cases h
            exact absurd rfl hcurrent
          · cases h

end

section

variable {ι : Type} [DecidableEq ι] {storage : FilesystemStorage} {calls : ι → SwapCall}
  {random : ι → Temporaries} {r : Nat} {files : FileSystem Text} {α β : Type}
  {pool first second third : Pool ι FileCall FileCall.Reply Error β (Host ι)}
  {before between after : List (Move ι Outcome)} {rest : List (List (Move ι Outcome))} {reader : ι}

theorem readFile_answer {m : Host ι} {name : Text} (hroot : m.files.lookup storage.root = some r) :
    Host.platform.perform reader .succeeds (.readFile (storage.root ++ [name])) m
      = some (.ok (m.files.child r name), m) := by
  show some (Except.ok (m.files.read (storage.root ++ [name])), m) = _
  rw [read_child hroot]
  rfl

theorem exists_answer {m : Host ι} {name : Text} (hroot : m.files.lookup storage.root = some r) :
    Host.platform.perform reader .succeeds (.exists (storage.root ++ [name])) m
      = some ((m.files.child r name).isSome, m) := by
  show some (m.files.exists (storage.root ++ [name]), m) = _
  rw [exists_child hroot]

/-- `check_format` with others at work: it reads FORMAT in one state and looks for HEAD in a
later one. -/
theorem checkFormat_among {f : Unit → Process α}
    (hfirst : pool.run Host.platform before = some first)
    (hsecond : first.run Host.platform between = some second)
    (hroot : first.state.files.lookup storage.root = some r)
    (hroot' : second.state.files.lookup storage.root = some r) :
    (Recognised r first.state.files second.state.files →
      (storage.checkFormat >>= f).among Host.platform reader .succeeds
        (before :: between :: rest) pool
        = (f ()).among Host.platform reader .succeeds rest second)
    ∧ (¬ Recognised r first.state.files second.state.files →
      ∃ e stopped, (storage.checkFormat >>= f).among Host.platform reader .succeeds
        (before :: between :: rest) pool = some (.error e, stopped)) := by
  rw [← formatVerdict_eq_ok storage]
  rw [show (storage.checkFormat >>= f).among Host.platform reader .succeeds
      (before :: between :: rest) pool = _ from Thread.among_call hfirst (readFile_answer hroot),
    formatVerdict]
  -- FORMAT is read in the first state, and HEAD looked for in the second
  cases hformat : Directory.readRootFile (displayPath (storage.root ++ [FORMAT]))
      Directory.MAX_STORAGE_FORMAT_BYTES ((first.state.files.child r FORMAT).map entryOf) with
  | error e =>
    refine ⟨fun h => (by cases h), fun _ => ⟨e, first, ?_⟩⟩
    simp only [orRaiseWith, hformat, Except.mapError, Thread.lift, Thread.andThen, bind]
    rfl
  | ok format =>
    have hlook : (Thread.lift (Except.ok format) >>= fun format => (do
          let headPresent ← Sys.exists (storage.root ++ [HEAD])
          Thread.lift (Directory.checkStorageFormat (displayPath storage.root) format headPresent)
          : Process Unit) >>= f).among Host.platform reader .succeeds (between :: rest) first
        = (Thread.lift (Directory.checkStorageFormat (displayPath storage.root) format
            (second.state.files.child r HEAD).isSome) >>= f).among Host.platform reader .succeeds
              rest second := Thread.among_call hsecond (exists_answer hroot')
    simp only [orRaiseWith, hformat, Except.mapError, Thread.lift, Thread.andThen, bind]
      at hlook ⊢
    rw [hlook]
    cases hcheck : Directory.checkStorageFormat (displayPath storage.root) format
        (second.state.files.child r HEAD).isSome with
    | ok _ => exact ⟨fun _ => rfl, fun h => absurd hcheck h⟩
    | error e => exact ⟨fun h => (by cases hcheck.symm.trans h), fun _ => ⟨e, second, rfl⟩⟩

theorem readStoredHead_among {f : Option StoredHead → Process α} {value : Option Text}
    (hfirst : pool.run Host.platform before = some first)
    (hstanding : Standing storage.root r first.state.files value) :
    (storage.readStoredHead >>= f).among Host.platform reader .succeeds (before :: rest) pool
      = (f (value.map SwapCall.written)).among Host.platform reader .succeeds rest first := by
  rw [show (storage.readStoredHead >>= f).among Host.platform reader .succeeds (before :: rest) pool
    = _ from Thread.among_call hfirst (readFile_answer hstanding.root), hstanding.head,
    ← storedHead_of_value hstanding.id]
  rfl

/-- A reader that checks FORMAT, reads HEAD and is then done gets there if and only if it takes
what it saw for a repository of this format. -/
theorem checked_read_iff {x : Process α} {finish : Option StoredHead → Process α}
    (hx : x = storage.checkFormat >>= fun _ => storage.readStoredHead >>= finish)
    (hfirst : pool.run Host.platform before = some first)
    (hsecond : first.run Host.platform between = some second)
    (hthird : second.run Host.platform after = some third)
    (hroot : first.state.files.lookup storage.root = some r)
    (hroot' : second.state.files.lookup storage.root = some r) {value : Option Text}
    (hstanding : Standing storage.root r third.state.files value) {a : α}
    (hfinish : finish (value.map SwapCall.written) = .done (.ok a)) {good : α → Prop}
    (ha : good a) :
    (∃ result, x.among Host.platform reader .succeeds [before, between, after] pool
        = some (.ok result, third) ∧ good result)
      ↔ Recognised r first.state.files second.state.files := by
  subst hx
  obtain ⟨haccepts, hrefuses⟩ := @checkFormat_among _ _ _ _ _ _ _ _ _ _ _ [after] reader
    (fun _ => storage.readStoredHead >>= finish) hfirst hsecond hroot hroot'
  constructor
  · rintro ⟨result, hread, -⟩
    by_contra hnot
    obtain ⟨e, stopped, herror⟩ := hrefuses hnot
    cases hread.symm.trans herror
  · intro hrecognised
    refine ⟨a, (haccepts hrecognised).trans ?_, ha⟩
    rw [readStoredHead_among hthird hstanding, hfinish]
    rfl

/-- **A reader without the lock, while a repository is created.** The other processes create it, or
fail to, and move before each of the three calls of the reader. The reader returns the head, or
that there is none, if and only if no HEAD appeared after it had found no FORMAT. -/
theorem unlocked_reads_atomic_iff (h : Standing storage.root r files none)
    (hgenesis : ∀ i, (calls i).Accepts none) {before between after : List (Move ι Outcome)}
    {first second third : Pool ι FileCall FileCall.Reply Error Unit (Host ι)}
    (hfirst : (swapPool storage calls random files).run Host.platform before = some first)
    (hsecond : first.run Host.platform between = some second)
    (hthird : second.run Host.platform after = some third) (reader : ι) :
    ((∃ head, storage.readHead.among Host.platform reader .succeeds [before, between, after]
          (swapPool storage calls random files) = some (.ok head, third)
        ∧ Won calls third.state.swaps head)
      ↔ Recognised r first.state.files second.state.files)
    ∧ ((∃ observation, storage.observeHead.among Host.platform reader .succeeds
          [before, between, after] (swapPool storage calls random files)
            = some (.ok observation, third)
        ∧ Won calls third.state.swaps observation.headId)
      ↔ Recognised r first.state.files second.state.files) := by
  have hmid : (swapPool storage calls random files).run Host.platform (before ++ between)
      = some second := by
    rw [Pool.run_append, hfirst]
    exact hsecond
  have hlast : (swapPool storage calls random files).run Host.platform (before ++ between ++ after)
      = some third := by
    rw [Pool.run_append, hmid]
    exact hthird
  -- the last of the three states is the one whose HEAD is read
  obtain ⟨value, hstanding, hreplay⟩ := (swapPool_run h hlast).1.standing
  have hwon : Won calls third.state.swaps value := replayed_genesis hgenesis hreplay
  have hroot := (swapPool_run h hfirst).1.root
  have hroot' := (swapPool_run h hmid).1.root
  constructor
  · refine checked_read_iff rfl hfirst hsecond hthird hroot hroot' hstanding ?_ hwon
    cases value with
    | none => rfl
    | some id =>
      have hparse : (SwapCall.written id).parse = .ok id :=
        orBail_eq_ok.mpr (headId_written (hstanding.id id rfl))
      simp only [Option.map_some, hparse]
      rfl
  · refine checked_read_iff rfl hfirst hsecond hthird hroot hroot' hstanding rfl ?_
    cases value with
    | none => exact hwon
    | some id =>
      have hid : (SwapCall.written id).headId = some id := headId_written (hstanding.id id rfl)
      show Won calls third.state.swaps (SwapCall.written id).headId
      rw [hid]
      exact hwon

end

/-- A process creates a repository in an empty directory. -/
def createsAlone : List (Move Bool Outcome) := List.replicate 35 (.step true .succeeds)

/-- A reader that comes after the creation finds the head. -/
theorem unlocked_reads_after_creation :
    ∃ last head,
      (swapPool ⟨[]⟩ creators (fun _ => ⟨[], [], []⟩) FileSystem.empty).run
        Host.platform createsAlone
        = some last
      ∧ (FilesystemStorage.readHead ⟨[]⟩).among Host.platform false .succeeds [createsAlone, [], []]
        (swapPool ⟨[]⟩ creators (fun _ => ⟨[], [], []⟩) FileSystem.empty) = some (.ok head, last)
      ∧ Won creators last.state.swaps head := by
  have hrun : ((swapPool ⟨[]⟩ creators (fun _ => ⟨[], [], []⟩) FileSystem.empty).run Host.platform
      createsAlone).map (·.state.files.child 0 FORMAT)
        = some (some (.file Directory.STORAGE_FORMAT)) := by decide
  obtain ⟨last, hlast, hformat⟩ := Option.map_eq_some_iff.mp hrun
  have hstart : Standing [] 0 FileSystem.empty none :=
    ⟨rfl, rfl, rfl, (fun _ h => by cases h), fun _ h => by cases h⟩
  have hgenesis : ∀ i, (creators i).Accepts none := fun _ => rfl
  have hidle : last.run Host.platform [] = some last := rfl
  obtain ⟨head, hread, hwon⟩ :=
    (unlocked_reads_atomic_iff hstart hgenesis hlast hidle hidle false).1.mpr (.inl hformat)
  exact ⟨last, head, hlast, hread, hwon⟩

/-- The same creation, between the reader's first call and its second: both readers refuse the
new repository as one of an older format. -/
theorem creation_taken_for_older_format :
    ((FilesystemStorage.readHead ⟨[]⟩).among Host.platform false .succeeds [[], createsAlone, []]
        (swapPool ⟨[]⟩ creators (fun _ => ⟨[], [], []⟩) FileSystem.empty)).map
          (fun seen => (seen.1, seen.2.state.swaps))
      = some (.error (.msg
          "storage at / uses format 5 or earlier; this git-remote-e2ee reads format 6"), [true])
    ∧ ((FilesystemStorage.observeHead ⟨[]⟩).among Host.platform false .succeeds
      [[], createsAlone, []]
        (swapPool ⟨[]⟩ creators (fun _ => ⟨[], [], []⟩) FileSystem.empty)).map
          (fun seen => (seen.1.map HeadObservation.headId, seen.2.state.swaps))
      = some (.error (.msg
          "storage at / uses format 5 or earlier; this git-remote-e2ee reads format 6"),
            [true]) := by
  constructor
  · decide
  · decide

end GitE2EE

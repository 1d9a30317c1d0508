import GitE2EE.Proof.Locked

/-!
# The holder of the lock replaces a file

The holder reads HEAD, writes a temporary in the root and renames it onto a file of the
root. Only the rename touches a guarded name: onto another file it leaves HEAD alone, and
onto HEAD it is the swap. Whatever fails on the way, the holder knows which side of the
rename it is on.
-/

namespace GitE2EE

open Wire Effect Files FilesystemStorage

section

variable {ι : Type} [DecidableEq ι] {storage : FilesystemStorage} {calls : ι → SwapCall}
  {start : Option Text} {r : Nat} {i : ι}

/-! ## Reading -/

theorem answers_exists (path : Path) {F : Host ι → Prop} (hF : FrameClosed r F) :
    Answers storage calls start r i (Sys.exists path) F fun _ => F :=
  Answers.perform (fun m outcome reply m' hm hlock hm' h => by
    replace h : m.ask outcome (m.files.exists path) = some (reply, m') := h
    obtain ⟨rfl, -⟩ := Host.ask_cases h
    exact ⟨hm, hlock, fun _ _ => Iff.rfl, hm'⟩) fun _ => hF

/-- The holder reads what is there, or fails. -/
theorem answers_readFile {name : Text} (hname : ¬ Unguarded name) {F : Host ι → Prop}
    (hF : FrameClosed r F) :
    Answers storage calls start r i (Sys.readFile (storage.root ++ [name])) F fun reply m =>
      F m ∧ ∀ node, reply = .ok node → m.files.child r name = node := by
  refine Answers.perform (fun m outcome reply m' hm hlock hm' h => ?_) fun reply => ?_
  · replace h : m.onFiles outcome (fun files => (.ok (files.read (storage.root ++ [name])), files))
      = some (reply, m') := h
    rcases Host.onFiles_cases h with ⟨⟨fault, rfl⟩, rfl⟩ | ⟨hcall, hlock', hrenames⟩
    · exact ⟨hm, hlock, fun _ _ => Iff.rfl, hm', fun node h => by cases h⟩
    · obtain ⟨hreply, hfiles⟩ := Prod.mk.inj hcall
      obtain rfl : m' = m := Host.ext hfiles.symm hlock' hrenames
      refine ⟨hm, hlock, fun _ _ => Iff.rfl, hm', fun node hnode => ?_⟩
      rw [← hreply] at hnode
      cases hnode
      rw [FileSystem.read, FileSystem.lookup_concat hm.root]
      rfl
  · refine hF.and fun m m' hframe _ h node hnode => ?_
    exact (hframe.child hname).trans (h node hnode)

/-- HEAD as its readers see it. -/
theorem storedHead_of_value {value : Option Text}
    (hid : ∀ id, value = some id → isObjectId id = true) :
    StoredHead.fromBounded (readRegularBounded MAX_HEAD_BYTES
      ((value.map fun id => Node.file (id ++ [10])).map entryOf)) = value.map SwapCall.written := by
  cases value with
  | none => rfl
  | some id =>
    have hlength := (isObjectId_iff.mp (hid id rfl)).1
    have hbound : ¬ MAX_HEAD_BYTES < (id ++ [10]).length := by
      rw [List.length_append, hlength]
      decide
    show StoredHead.fromBounded (if MAX_HEAD_BYTES < (id ++ [10]).length then .oversized
      else .within (id ++ [10])) = _
    rw [if_neg hbound]
    rfl

theorem guarded_readStoredHead {F : Host ι → Prop} (hF : FrameClosed r F) {value : Option Text}
    (hvalue : ∀ m, F m → Value r value m)
    (hid : ∀ id, value = some id → isObjectId id = true) :
    Guarded storage calls start r i storage.readStoredHead F fun result m =>
      F m ∧ ∀ head, result = .ok head → head = value.map SwapCall.written := by
  refine (answers_readFile not_unguarded_head hF).bind fun reply => ?_
  cases reply with
  | error fault => exact Guarded.fail fun m h => ⟨h.1, fun head h => by cases h⟩
  | ok node =>
    refine Guarded.pure fun m h => ⟨h.1, fun head hhead => ?_⟩
    cases hhead
    rw [← h.2 node rfl, hvalue m h.1]
    exact storedHead_of_value hid

/-- With the lock, `read_head` returns the value of HEAD. -/
theorem guarded_readHead {F : Host ι → Prop} (hF : FrameClosed r F) {value : Option Text}
    (hvalue : ∀ m, F m → Value r value m)
    (hid : ∀ id, value = some id → isObjectId id = true) :
    Guarded storage calls start r i storage.readHead F fun result m =>
      F m ∧ ∀ head, result = .ok head → head = value := by
  -- the check of the format reads only
  have hformat : Guarded storage calls start r i storage.checkFormat F fun _ => F := by
    refine Guarded.bind (G := fun _ => F) ?_ (fun format => ?_) fun _ _ h => h
    · refine (answers_readFile not_unguarded_format hF).bind fun reply => ?_
      cases reply with
      | error fault => exact Guarded.fail fun m h => h.1
      | ok node => exact Guarded.lift fun m h => h.1
    · exact (answers_exists _ hF).bind fun present => Guarded.lift fun m h => h
  refine hformat.bind (fun _ => ?_) fun e m h => ⟨h, fun head h => by cases h⟩
  refine (guarded_readStoredHead hF hvalue hid).bind (fun head => ?_)
    fun e m h => ⟨h.1, fun head h => by cases h⟩
  cases head with
  | none =>
    refine Guarded.pure fun m h => ⟨h.1, fun head hhead => ?_⟩
    cases hhead
    exact (Option.map_eq_none_iff.mp (h.2 none rfl).symm).symm
  | some head =>
    refine Guarded.bind (G := fun result m => F m ∧ ∀ id, result = .ok id → value = some id) ?_
      (fun id => Guarded.pure fun m h => ⟨h.1, ?_⟩) fun e m h => ⟨h.1, fun head h => by cases h⟩
    · refine Guarded.lift fun m h => ⟨h.1, fun found hfound => ?_⟩
      obtain ⟨id, rfl, rfl⟩ := Option.map_eq_some_iff.mp (h.2 (some head) rfl).symm
      have hparse : (SwapCall.written id).parse = .ok id :=
        orBail_eq_ok.mpr (headId_written (hid id rfl))
      rw [hparse] at hfound
      cases hfound
      rfl
    · rintro head ⟨⟩
      exact (h.2 id rfl).symm

/-! ## Writing a temporary -/

variable {temporary : Text} {F : Host ι → Prop}

theorem answers_createNew (htemp : IsTemporary temporary) (hF : Local r (Staging temporary) F) :
    Answers storage calls start r i (Sys.createNew storage.root temporary) F fun reply m =>
      F m ∧ ∀ file, reply = .ok file → Staged r temporary file [] m := by
  refine Answers.perform (fun m outcome reply m' hm hlock hm' h => ?_) fun reply => ?_
  · replace h : m.onFiles outcome (·.createNew storage.root temporary) = some (reply, m') := h
    rcases Host.onFiles_cases h with ⟨⟨fault, rfl⟩, rfl⟩ | ⟨hcall, hlock', hrenames⟩
    · exact ⟨hm, hlock, fun _ _ => Iff.rfl, hm', fun file h => by cases h⟩
    -- the file is new, so no name but the temporary's leads to it
    rcases FileSystem.createNew_cases hcall with
      ⟨rfl, d, hd, hfree, hfiles⟩ | ⟨⟨fault, rfl⟩, hfiles⟩
    · rw [hm.rootNode] at hd
      cases hd
      have hlt := FileSystem.lookup_lt hm.root
      have hframe : FileSystem.Frame r (Staging temporary) m.files m'.files := by
        rw [hfiles]
        exact .insertNew hlt hm.rootDirectory (.inr rfl)
      have hroot : m'.files.lookup storage.root = some r := by
        rw [hfiles]
        exact FileSystem.lookup_insertNew hm.rootDirectory hlt hfree hm.root
      obtain ⟨hinv, hheld, hmine, hF'⟩ :=
        hm.framed_step hlock htemp hF hframe hroot hlock' hrenames hm'
      refine ⟨hinv, hheld, hmine, hF', ?_⟩
      rintro file ⟨⟩
      refine ⟨?_, ?_, fun name hname => ?_⟩
      · rw [hfiles, FileSystem.entry_insertNew hm.rootDirectory hlt (Nat.ne_of_lt hlt),
          if_pos ⟨rfl, rfl⟩]
      · rw [hfiles, FileSystem.content_insertNew, if_pos rfl]
      · rw [hframe.entry name hname]
        intro hentry
        exact Nat.lt_irrefl _ (m.files.entry_lt hentry)
    · obtain rfl : m' = m := Host.ext hfiles hlock' hrenames
      exact ⟨hm, hlock, fun _ _ => Iff.rfl, hm', fun file h => by cases h⟩
  · refine (frameClosed_of_staging hF).and fun m m' hframe hswaps h file hfile => ?_
    exact frameClosed_staged htemp.guarded m m' hframe hswaps (h file hfile)

/-- Writing to the temporary, as far as it gets. -/
theorem answers_writeAll (htemp : IsTemporary temporary) (hF : Local r (Staging temporary) F)
    {file : Nat} {content : Bytes} (data : Bytes) :
    Answers storage calls start r i (Sys.writeAll file data)
      (fun m => F m ∧ Staged r temporary file content m) fun reply m =>
        F m ∧ (reply = .ok () → Staged r temporary file (content ++ data) m) := by
  refine Answers.perform (fun m outcome reply m' hm hlock hm' h => ?_) fun reply => ?_
  · obtain ⟨hFm, hstaged⟩ := hm'
    -- whatever part is written, it is written to the temporary and to nothing else
    have hwrite : ∀ part, m' = { m with files := m.files.write file part } →
        Swapped storage calls start r m' ∧ m'.lock = some i
          ∧ (∀ j, j ≠ i → (j ∈ m'.swaps ↔ j ∈ m.swaps)) ∧ F m'
          ∧ Staged r temporary file (content ++ part) m' := by
      rintro part rfl
      have hsame : Untouched r (Staging temporary) m
        { m with files := m.files.write file part } := by
        refine ⟨fun name hname => ?_, rfl⟩
        show ((m.files.write file part).entry r name).map (m.files.write file part).node = _
        rw [FileSystem.entry_write, FileSystem.child]
        cases hentry : m.files.entry r name with
        | none => rfl
        | some j =>
          have hj : j ≠ file := fun h => hstaged.only name hname (h ▸ hentry)
          show some ((m.files.write file part).node j) = some (m.files.node j)
          rw [FileSystem.node, FileSystem.node, FileSystem.content_write, if_neg hj]
      have hr : r ≠ file := by
        rintro rfl
        exact absurd (hstaged.content.symm.trans hm.rootDirectory) (Option.some_ne_none _)
      refine ⟨hm.own_step htemp hsame ?_ ?_, hlock, fun j _ => by rw [hsame.swaps],
        hF m _ hsame hFm, ?_, ?_, fun name hname => ?_⟩
      · rw [← hm.root]
        exact FileSystem.lookupFrom_congr (fun _ _ => FileSystem.entry_write) 0 storage.root
      · show (m.files.write file part).content r = none
        rw [FileSystem.content_write, if_neg hr]
        exact hm.rootDirectory
      · exact FileSystem.entry_write.trans hstaged.entry
      · show (m.files.write file part).content file = _
        rw [FileSystem.content_write, if_pos rfl, hstaged.content]
        rfl
      · show (m.files.write file part).entry r name ≠ _
        rw [FileSystem.entry_write]
        exact hstaged.only name hname
    cases outcome with
    | succeeds =>
      cases h
      obtain ⟨hinv, hlock', hmine, hF', hstaged'⟩ := hwrite data rfl
      exact ⟨hinv, hlock', hmine, hF', fun _ => hstaged'⟩
    | fails fault written =>
      cases h
      obtain ⟨hinv, hlock', hmine, hF', -⟩ := hwrite (data.take written) rfl
      exact ⟨hinv, hlock', hmine, hF', fun h => by cases h⟩
  · refine (frameClosed_of_staging hF).and fun m m' hframe hswaps h hreply => ?_
    exact frameClosed_staged htemp.guarded m m' hframe hswaps (h hreply)

theorem answers_syncAll {file : Nat} (hF : FrameClosed r F)
    (hsync : ∀ m : Host ι, F m → F { m with files := m.files.syncFile file }) :
    Answers storage calls start r i (Sys.syncAll file) F fun _ => F := by
  refine Answers.perform (fun m outcome reply m' hm hlock hm' h => ?_) fun _ => hF
  replace h : m.onFiles outcome (fun files => (.ok (), files.syncFile file)) = some (reply, m') := h
  rcases Host.onFiles_cases h with ⟨-, rfl⟩ | ⟨hcall, hlock', hrenames⟩
  · exact ⟨hm, hlock, fun _ _ => Iff.rfl, hm'⟩
  · obtain rfl : m' = { m with files := m.files.syncFile file } :=
      Host.ext (Prod.mk.inj hcall).2.symm hlock' hrenames
    have hsame : Untouched r Unguarded m { m with files := m.files.syncFile file } :=
      ⟨fun _ _ => rfl, rfl⟩
    have hentry : ∀ d name, (m.files.syncFile file).entry d name = m.files.entry d name :=
      fun _ _ => rfl
    refine ⟨hm.untouched hsame not_unguarded_head not_unguarded_format ?_ hm.rootDirectory, hlock,
      fun _ _ => Iff.rfl, hsync m hm'⟩
    rw [← hm.root]
    exact FileSystem.lookupFrom_congr hentry 0 storage.root

theorem answers_syncDirectory (path : Path) (hF : Local r (Staging temporary) F)
    (htemp : IsTemporary temporary) :
    Answers storage calls start r i (Sys.syncDirectory path) F fun _ => F := by
  refine Answers.perform (fun m outcome reply m' hm hlock hm' h => ?_)
    fun _ => frameClosed_of_staging hF
  replace h : m.onFiles outcome (·.syncDir path) = some (reply, m') := h
  rcases Host.onFiles_cases h with ⟨-, rfl⟩ | ⟨hcall, hlock', hrenames⟩
  · exact ⟨hm, hlock, fun _ _ => Iff.rfl, hm'⟩
  rcases FileSystem.syncDir_cases hcall with ⟨-, d, -, hfiles⟩ | ⟨-, hfiles⟩
  · have hframe : FileSystem.Frame r (Staging temporary) m.files m'.files := by
      rw [hfiles]
      exact .flush d
    have hroot : m'.files.lookup storage.root = some r := by
      rw [hfiles, FileSystem.lookup_flush]
      exact hm.root
    exact hm.framed_step hlock htemp hF hframe hroot hlock' hrenames hm'
  · obtain rfl : m' = m := Host.ext hfiles hlock' hrenames
    exact ⟨hm, hlock, fun _ _ => Iff.rfl, hm'⟩

theorem answers_removeFile (htemp : IsTemporary temporary) (hF : Local r (Staging temporary) F) :
    Answers storage calls start r i (Sys.removeFile storage.root temporary) F fun _ => F := by
  refine Answers.perform (fun m outcome reply m' hm hlock hm' h => ?_)
    fun _ => frameClosed_of_staging hF
  replace h : m.onFiles outcome (·.removeFile storage.root temporary) = some (reply, m') := h
  rcases Host.onFiles_cases h with ⟨-, rfl⟩ | ⟨hcall, hlock', hrenames⟩
  · exact ⟨hm, hlock, fun _ _ => Iff.rfl, hm'⟩
  rcases FileSystem.removeFile_cases hcall with ⟨-, d, k, hd, hk, hfile, hfiles⟩ | ⟨-, hfiles⟩
  · rw [hm.rootNode] at hd
    cases hd
    obtain ⟨content, hcontent⟩ := Option.ne_none_iff_exists'.mp hfile
    have hframe : FileSystem.Frame r (Staging temporary) m.files m'.files := by
      rw [hfiles]
      exact .erase (.inr rfl)
    have hroot : m'.files.lookup storage.root = some r := by
      rw [hfiles]
      exact FileSystem.lookup_erase hk (FileSystem.entry_of_content hcontent) hm.root
    exact hm.framed_step hlock htemp hF hframe hroot hlock' hrenames hm'
  · obtain rfl : m' = m := Host.ext hfiles hlock' hrenames
    exact ⟨hm, hlock, fun _ _ => Iff.rfl, hm'⟩

/-! ## Renaming it -/

/-- A rename of the holder: it changes nothing, or appends to the renames. -/
theorem rename_answer {m m' : Host ι} {outcome : Outcome} {directory : Path}
    {source target : Text} {reply : Except Files.Fault Unit}
    (h : Host.perform i outcome (.rename directory source target) m = some (reply, m')) :
    ((∃ fault, reply = .error fault) ∧ m' = m)
    ∨ ∃ files, m.files.rename directory source target = (reply, files)
      ∧ m' = ⟨files, m.lock, m.renames ++ [(i, target)]⟩ ∧ reply = .ok () := by
  cases outcome with
  | fails fault written =>
    cases h
    exact .inl ⟨⟨fault, rfl⟩, rfl⟩
  | succeeds =>
    simp only [Host.perform] at h
    split at h
    · cases h
      exact .inl ⟨⟨_, rfl⟩, rfl⟩
    · rename_i files hrename
      cases h
      exact .inr ⟨files, hrename, rfl, rfl⟩

/-- Before there is a HEAD, any file beside it may be replaced. -/
theorem answers_renameBeside (htemp : IsTemporary temporary) {target : Text}
    (hhead : target ≠ HEAD) (hne : temporary ≠ target) (hguarded : ¬ Unguarded target)
    {file : Nat} {content : Bytes} :
    Answers storage calls start r i (Sys.rename storage.root temporary target)
      (fun m => Unset r i m ∧ Staged r temporary file content m) fun reply m =>
        Unset r i m
          ∧ (reply = .ok () → m.files.child r target = some (.file content)) := by
  refine Answers.perform (fun m outcome reply m' hm hlock hm' h => ?_) fun reply => ?_
  · obtain ⟨⟨hvalue, hmine⟩, hstaged⟩ := hm'
    rcases rename_answer h with ⟨⟨fault, rfl⟩, rfl⟩ | ⟨files, hrename, rfl, rfl⟩
    · exact ⟨hm, hlock, fun _ _ => Iff.rfl, ⟨hvalue, hmine⟩, fun h => by cases h⟩
    rcases hstaged.renamed hm hne hrename with ⟨-, hren⟩ | ⟨⟨fault, h⟩, -⟩
    · have hswaps : Host.swaps ⟨files, m.lock, m.renames ++ [(i, target)]⟩ = m.swaps := by
        simp [Host.swaps, hhead]
      have hvalue' : files.child r HEAD = none :=
        (hren.others HEAD htemp.head.symm hhead.symm).trans hvalue
      obtain ⟨value, hs, hreplay⟩ := hm.standing
      -- there is no HEAD yet, and this rename does not make one
      obtain rfl := Value.unique hs hvalue
      refine ⟨⟨⟨none, ⟨hren.root, hren.directory, hvalue', ?_, ?_⟩, ?_⟩, ?_⟩, hlock, fun j _ => ?_,
        ⟨hvalue', ?_⟩, fun _ => hren.replaced⟩
      · rintro id ⟨⟩
      · rintro id ⟨⟩
      · rw [hswaps]
        exact hreplay
      · rw [hswaps]
        exact hm.nodup
      · rw [hswaps]
      · rw [Unswapped, hswaps]
        exact hmine
    · cases h
  · refine FrameClosed.and ?_ fun m m' hframe _ h hreply => (hframe.child hguarded).trans (h hreply)
    exact .of_local (fun _ h => h) (local_unset not_unguarded_head)

/-- **The swap**: the rename onto HEAD is one call of the register. -/
theorem answers_renameHead (htemp : IsTemporary temporary) {value : Option Text}
    (hadmitted : Admitted (calls i) value) {file : Nat} :
    Answers storage calls start r i (Sys.rename storage.root temporary HEAD)
      (fun m => Ready r i value m
        ∧ Staged r temporary file ((calls i).next ++ [10]) m) fun reply m =>
        (∀ fault, reply = .error fault → Ready r i value m)
          ∧ (reply = .ok () → i ∈ m.swaps) := by
  refine Answers.perform (fun m outcome reply m' hm hlock hm' h => ?_) fun reply => ?_
  · obtain ⟨hready, hstaged⟩ := hm'
    rcases rename_answer h with ⟨⟨fault, rfl⟩, rfl⟩ | ⟨files, hrename, rfl, rfl⟩
    · exact ⟨hm, hlock, fun _ _ => Iff.rfl, fun _ _ => hready, fun h => by cases h⟩
    rcases hstaged.renamed hm htemp.head hrename with ⟨-, hren⟩ | ⟨⟨fault, h⟩, -⟩
    · have hswaps : Host.swaps ⟨files, m.lock, m.renames ++ [(i, HEAD)]⟩ = m.swaps ++ [i] := by
        simp [Host.swaps]
      obtain ⟨found, hs, hreplay⟩ := hm.standing
      -- what the process read is still there
      obtain rfl := Value.unique hs hready.value
      refine ⟨⟨⟨some (calls i).next, ⟨hren.root, hren.directory, hren.replaced, ?_, ?_⟩, ?_⟩, ?_⟩,
        hlock, fun j hj => ?_, (fun _ h => by cases h), fun _ => ?_⟩
      · rintro id ⟨⟩
        exact hadmitted.next
      · rintro id ⟨⟩
        exact (hren.others FORMAT htemp.format.symm (by decide)).trans hready.format
      · rw [hswaps]
        exact Register.replay_concat hreplay hadmitted.accepts
      · rw [hswaps]
        exact List.nodup_append.mpr ⟨hm.nodup, List.nodup_singleton i, by
          intro a ha b hb
          rw [List.mem_singleton.mp hb]
          rintro rfl
          exact hready.unswapped ha⟩
      · rw [hswaps, List.mem_append, List.mem_singleton]
        exact ⟨fun h => h.resolve_right hj, .inl⟩
      · rw [hswaps]
        exact List.mem_append_right _ (List.mem_singleton_self i)
    · cases h
  · refine FrameClosed.and (fun m m' hframe hswaps h fault hreply => ?_) (.imp fun _ => ?_)
    · exact FrameClosed.of_local (fun _ h => h)
        (local_ready not_unguarded_head not_unguarded_format) m m' hframe hswaps (h fault hreply)
    · exact .of_local (fun _ h => h) local_swapped

/-! ## Replacing a file -/

/-- Staging and renaming, by what the rename does. -/
theorem answers_stageAndRename (htemp : IsTemporary temporary)
    (hF : Local r (Staging temporary) F) {G : Host ι → Prop} {file : Nat} {name : Text}
    {contents : Bytes}
    (hrename : Answers storage calls start r i (Sys.rename storage.root temporary name)
      (fun m => F m ∧ Staged r temporary file contents m) fun reply m =>
        (∀ fault, reply = .error fault → F m) ∧ (reply = .ok () → G m)) :
    Answers storage calls start r i
      (Persist.stageAndRename storage.root file temporary name contents)
      (fun m => F m ∧ Staged r temporary file [] m) fun reply m =>
        (∀ fault, reply = .error fault → F m) ∧ (reply = .ok () → G m) := by
  have hfails : ∀ fault : Files.Fault, Answers storage calls start r i
      (pure (.error fault) : Process (Except Files.Fault Unit)) F fun reply m =>
        (∀ fault, reply = .error fault → F m) ∧ (reply = .ok () → G m) := by
    intro fault
    refine Guarded.pure fun m h => ⟨_, rfl, fun _ _ => h, fun h => by cases h⟩
  refine (answers_writeAll htemp hF contents).bind fun reply => ?_
  cases reply with
  | error fault => exact (hfails fault).weaken fun m h => h.1
  | ok _ =>
    have hstaged : FrameClosed r (Staged r temporary file contents : Host ι → Prop) :=
      frameClosed_staged htemp.guarded
    refine (answers_syncAll (F := fun m => F m ∧ Staged r temporary file contents m)
      ((frameClosed_of_staging hF).and hstaged) ?_).weaken ?_ |>.bind fun reply => ?_
    · rintro m ⟨hFm, hs⟩
      exact ⟨hF m _ ⟨fun _ _ => rfl, rfl⟩ hFm, ⟨hs.entry, hs.content, hs.only⟩⟩
    · exact fun m h => ⟨h.1, h.2 rfl⟩
    cases reply with
    | error fault => exact (hfails fault).weaken fun m h => h.1
    | ok _ => exact hrename

/-- What replacing a file leaves, by its outcome: the file is replaced unless the error
says that nothing was published. -/
def Replaced (destination : Path) (F G : Host ι → Prop) (result : Except Error Unit) (m : Host ι) :
    Prop :=
  match result with
  | .ok _ => G m
  | .error e => (F m ∧ ∃ fault, e = Persist.notPublished destination fault)
    ∨ (G m ∧ ∃ fault, e = Persist.unacknowledged destination fault)

theorem guarded_replaceFile {name : Text} {contents random : Bytes} {G : Host ι → Prop}
    (hF : Local r (Staging (Persist.temporaryName name random)) F)
    (hG : Local r (Staging (Persist.temporaryName name random)) G)
    (hrename : ∀ file, Answers storage calls start r i
      (Sys.rename storage.root (Persist.temporaryName name random) name)
      (fun m => F m ∧ Staged r (Persist.temporaryName name random) file contents m) fun reply m =>
        (∀ fault, reply = .error fault → F m) ∧ (reply = .ok () → G m)) :
    Guarded storage calls start r i
      (Persist.replaceFileDurably storage.root name contents random) F
      (Replaced (storage.root ++ [name]) F G) := by
  have htemp := isTemporary_temporaryName name random
  refine (answers_createNew htemp hF).bind fun reply => ?_
  cases reply with
  | error fault => exact Guarded.fail fun m h => .inl ⟨h.1, fault, rfl⟩
  | ok file =>
    refine (((answers_stageAndRename htemp hF (hrename file)).weaken
      ?_).bind fun reply => ?_)
    · exact fun m h => ⟨h.1, h.2 file rfl⟩
    cases reply with
    | error fault =>
      refine ((answers_removeFile htemp hF).weaken ?_).bind fun _ => ?_
      · exact fun m h => h.1 fault rfl
      · exact Guarded.fail fun m h => .inl ⟨h, fault, rfl⟩
    | ok _ =>
      refine ((answers_syncDirectory storage.root hG htemp).weaken ?_).bind fun reply => ?_
      · exact fun m h => h.2 rfl
      cases reply with
      | error fault => exact Guarded.fail fun m h => .inr ⟨h, fault, rfl⟩
      | ok _ => exact Guarded.pure fun m h => h

/-- Before there is a HEAD, a file beside it is replaced. -/
theorem guarded_replaceBeside {name : Text} (hhead : name ≠ HEAD) (hguarded : ¬ Unguarded name)
    (hdot : ∀ random, Persist.temporaryName name random ≠ name) (contents random : Bytes) :
    Guarded storage calls start r i
      (Persist.replaceFileDurably storage.root name contents random) (Unset r i)
      (Replaced (storage.root ++ [name]) (Unset r i) fun m =>
        Unset r i m ∧ m.files.child r name = some (.file contents)) := by
  have htemp := isTemporary_temporaryName name random
  have hunset : Local r (Staging (Persist.temporaryName name random)) (Unset (ι := ι) r i) :=
    local_unset (not_staging not_unguarded_head htemp.head)
  have hname : ¬ Staging (Persist.temporaryName name random) name :=
    not_staging hguarded (hdot random)
  refine guarded_replaceFile hunset (hunset.and fun m m' hsame h => ?_) fun file => ?_
  · exact (hsame.child name hname).trans h
  · refine Guarded.mono (answers_renameBeside htemp hhead (hdot random) hguarded) ?_
    rintro result m ⟨reply, rfl, hunset, hreply⟩
    exact ⟨reply, rfl, fun _ _ => hunset, fun h => ⟨hunset, hreply h⟩⟩

/-- HEAD is replaced. -/
theorem guarded_replaceHead {value : Option Text} (hadmitted : Admitted (calls i) value)
    (random : Bytes) :
    Guarded storage calls start r i
      (Persist.replaceFileDurably storage.root HEAD ((calls i).next ++ [10]) random)
      (Ready r i value)
      (Replaced (storage.root ++ [HEAD]) (Ready r i value) fun m => i ∈ m.swaps) := by
  have htemp := isTemporary_temporaryName HEAD random
  refine guarded_replaceFile (local_ready ?_ ?_) local_swapped fun file =>
    answers_renameHead htemp hadmitted
  · exact not_staging not_unguarded_head htemp.head
  · exact not_staging not_unguarded_format htemp.format

theorem temporaryName_ne {name : Text} (h : name.head? ≠ some 46) (random : Bytes) :
    Persist.temporaryName name random ≠ name := by
  intro heq
  rw [← heq] at h
  exact h rfl

/-- README and FORMAT, before there is a HEAD. -/
theorem guarded_writeGenesisFiles (random : Temporaries) :
    Guarded storage calls start r i (storage.writeGenesisFiles random) (Unset r i) fun result m =>
      Unset r i m ∧ (result = .ok () → Ready r i none m) := by
  have hunset : FrameClosed r (Unset (ι := ι) r i) :=
    .of_local (fun _ h => h) (local_unset not_unguarded_head)
  have hformat : Guarded storage calls start r i
      (Persist.replaceFileDurably storage.root FORMAT Directory.STORAGE_FORMAT random.format)
      (Unset r i) fun result m => Unset r i m ∧ (result = .ok () → Ready r i none m) := by
    refine Guarded.mono (guarded_replaceBeside (by decide) not_unguarded_format
      (temporaryName_ne (by decide)) _ _) fun result m h => ?_
    cases result with
    | ok _ => exact ⟨h.1, fun _ => ⟨h.1.value, h.1.unswapped, h.2⟩⟩
    | error e =>
      refine ⟨?_, fun h => by cases h⟩
      rcases h with ⟨h, -⟩ | ⟨h, -⟩
      · exact h
      · exact h.1
  refine (answers_exists _ hunset).bind fun present => ?_
  cases present with
  | true => exact hformat
  | false =>
    refine Guarded.bind (G := fun _ => Unset r i) (Guarded.mono (guarded_replaceBeside (by decide)
      (by rintro (h | h | h) <;> exact absurd h (by decide)) (temporaryName_ne (by decide)) _ _)
      fun result m h => ?_) (fun _ => hformat) fun e m h => ⟨h, fun h => by cases h⟩
    cases result with
    | ok _ => exact h.1
    | error e =>
      rcases h with ⟨h, -⟩ | ⟨h, -⟩
      · exact h
      · exact h.1

end

end GitE2EE

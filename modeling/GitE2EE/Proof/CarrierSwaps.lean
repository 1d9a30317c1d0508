import GitE2EE.Proof.Carrier
import GitE2EE.Proof.Directory

/-!
# The verdict of a carrier swap

A swap goes through four parts: the branch is fetched and must be where the checkout is
based, a commit is built on it, the commit is pushed, and a push that reported a failure
is judged by a second fetch. Each part says what it leaves on record.

The verdict of success is always right. The verdict of a lost race is right unless the
push had landed, its reply was lost, and another client built on it before the second
fetch: then the branch shows another tip and has this client's commit all the same.
-/

namespace GitE2EE

open Wire Effect

/-- `error.downcast_ref::<CasConflict>().is_some()`. -/
def Error.IsCasConflict (e : Error) : Prop :=
  ∃ expected actual, e.cause = .casConflict expected actual

theorem Error.not_isCasConflict_msg (text : String) : ¬ (Error.msg text).IsCasConflict := by
  rintro ⟨_, _, h⟩
  cases h

theorem not_isCasConflict_ioError (fault : Files.Fault) : ¬ (ioError fault).IsCasConflict := by
  rintro ⟨_, _, h⟩
  cases h

theorem CommandFailure.not_isCasConflict (action : String) (failure : CommandFailure) :
    ¬ (failure.error action).IsCasConflict := by
  cases failure with
  | spawn fault => exact not_isCasConflict_ioError fault
  | exit stderr => exact Error.not_isCasConflict_msg _

/-- A command that fails is no conflict. -/
theorem orFail_no_conflict {α : Type} (action : String) (reply : Except CommandFailure α) :
    (orFail action reply).FailsWith fun e => ¬ e.IsCasConflict := by
  cases reply with
  | ok a => trivial
  | error failure => exact failure.not_isCasConflict action

/-- The commit's tree names `next` as its head. -/
def Commit.NamesHead (next : Text) (commit : Commit) : Prop :=
  ∃ head, StoredHead.fromBounded (readRegularBounded MAX_HEAD_BYTES
    (commit.tree.get? FilesystemStorage.HEAD)) = some head ∧ head.headId = some next

namespace Carrier

variable {ι : Type} [DecidableEq ι] {i : ι}

/-! ## The commit -/

/-- Building `commit` is all the client did to leave a trace. -/
abbrev Built (i : ι) (commit : Commit) (events : List (CarrierEvent ι)) (w w' : Carrier ι) : Prop :=
  Traced i (fun e => e = .fetched i ∨ e = .committed i commit) events w w'

omit [DecidableEq ι] in
theorem Traced.built {commit : Commit} {events : List (CarrierEvent ι)} {w w' : Carrier ι}
    (h : Watched i events w w') : Built i commit events w w' := h.mono fun _ _ => .inl

theorem run_modify_ok {outcome : CarrierOutcome} {f : Checkout → Checkout} {w w' : Carrier ι}
    {u : Unit} (h : w.run outcome (modify i f) () = some (.ok u, w')) :
    w'.checkouts i = f (w.checkouts i) := by
  rcases run_cases h with ⟨-, rfl⟩ | ⟨⟨failure, hfailed⟩, -⟩
  · exact Function.update_self ..
  · cases hfailed

/-- A command that had to succeed, and what goes on with its value. -/
theorem command_bind_ok {α β : Type} {x : CarrierProcess (Except CommandFailure α)}
    {wrap : CommandFailure → Error} {f : α → CarrierProcess β} {w w' : Carrier ι} {b : β}
    (h : Runs platform (Others i) i
      (x >>= fun reply => Thread.lift (reply.mapError wrap) >>= f) w (.ok b) w') :
    ∃ a mid, Runs platform (Others i) i x w (.ok (.ok a)) mid
      ∧ Runs platform (Others i) i (f a) mid (.ok b) w' := by
  obtain ⟨reply, mid, hx, h⟩ := Runs.bind_ok h
  rcases Runs.lift_bind_cases h with ⟨a, hreply, h⟩ | ⟨e, -, hresult, -⟩
  · cases reply with
    | error failure => cases hreply
    | ok a' =>
      cases hreply
      exact ⟨a, mid, hx, h⟩
  · cases hresult

/-- The same where nothing follows. -/
theorem command_ok {α : Type} {x : CarrierProcess (Except CommandFailure α)}
    {wrap : CommandFailure → Error} {w w' : Carrier ι} {a : α}
    (h : Runs platform (Others i) i
      (x >>= fun reply => Thread.lift (reply.mapError wrap)) w (.ok a) w') :
    ∃ mid, Runs platform (Others i) i x w (.ok (.ok a)) mid
      ∧ Relation.ReflTransGen (Others i) mid w' := by
  obtain ⟨reply, mid, hx, h⟩ := Runs.bind_ok h
  obtain ⟨hresult, hend⟩ := Runs.done_cases h
  cases reply with
  | error failure => cases hresult
  | ok a' =>
    cases hresult
    exact ⟨mid, hx, hend⟩

/-- A file that was written is in the client's working tree, whatever the others do. -/
theorem checkout_writeWork {name : Text} {content : Bytes} {w w' : Carrier ι}
    (h : Runs platform (Others i) i (GitStorage.writeWork name content) w (.ok ()) w') :
    w'.checkouts i = { w.checkouts i with
      work := (w.checkouts i).work.insert name (.regular content) } := by
  obtain ⟨mid, h, hend⟩ := command_ok h
  obtain ⟨before, choice, reply, after, hothers, hperform, hreply, hend'⟩ := Runs.perform_cases h
  cases hreply
  rw [others_checkout hend, others_checkout hend', run_modify_ok hperform,
    others_checkout hothers]

theorem checkout_stageCheckout {u : Unit} {w w' : Carrier ι}
    (h : Runs platform (Others i) i Command.stageCheckout w (.ok (.ok u)) w') :
    w'.checkouts i = (w.checkouts i).stage := by
  obtain ⟨before, choice, reply, after, hothers, hperform, hreply, hend⟩ := Runs.perform_cases h
  cases hreply
  rw [others_checkout hend, run_modify_ok hperform, others_checkout hothers]

theorem checkout_updateRef {u : Unit} {commit : Option Commit} {w w' : Carrier ι}
    (h : Runs platform (Others i) i (Command.updateRef commit) w (.ok (.ok u)) w') :
    w'.checkouts i = { w.checkouts i with branch := commit } := by
  obtain ⟨before, choice, reply, after, hothers, hperform, hreply, hend⟩ := Runs.perform_cases h
  cases hreply
  rw [others_checkout hend, run_modify_ok hperform, others_checkout hothers]

theorem runs_writeTree {tree : CarrierTree} {w w' : Carrier ι}
    (h : Runs platform (Others i) i Command.writeTree w (.ok (.ok tree)) w') :
    tree = (w.checkouts i).index := by
  obtain ⟨before, choice, reply, after, hothers, hperform, hreply, -⟩ := Runs.perform_cases h
  cases hreply
  rw [(query_cases hperform).2 tree rfl, others_checkout hothers]

/-- The commit is on record from here on. -/
theorem runs_commitTree {base : Option Commit} {tree : CarrierTree} {commit : Commit}
    {w w' : Carrier ι}
    (h : Runs platform (Others i) i (Command.commitTree base tree) w (.ok (.ok commit)) w') :
    (∃ stamp, commit = Commit.onto base tree stamp) ∧ ∃ events, Built i commit events w w' := by
  obtain ⟨before, choice, reply, after, hothers, hperform, hreply, hend⟩ := Runs.perform_cases h
  cases hreply
  obtain ⟨events, hothers⟩ := others_watched hothers
  obtain ⟨events', hend⟩ := others_watched hend
  rcases run_cases hperform with ⟨hcommit, hafter⟩ | ⟨⟨failure, hfailed⟩, -⟩
  · have hcommit := Except.ok.inj hcommit
    have hrecord : Built i commit [.committed i commit] before after := by
      rw [hafter, ← hcommit]
      exact .still rfl rfl fun e he _ => .inr (List.mem_singleton.mp he)
    exact ⟨⟨choice.stamp, hcommit⟩, _, (hothers.built.trans hrecord).trans hend.built⟩
  · cases hfailed

/-- HEAD is in the working tree once it has been written. -/
theorem work_writeCheckoutHead {next : Text} {genesis : Bool} {w w' : Carrier ι}
    (h : Runs platform (Others i) i (GitStorage.writeCheckoutHead next genesis) w (.ok ()) w') :
    (w'.checkouts i).work.get? FilesystemStorage.HEAD = some (.regular (next ++ [10])) := by
  have hhead : ∀ {v v' : Carrier ι}, Runs platform (Others i) i
      (GitStorage.writeWork FilesystemStorage.HEAD (next ++ [10])) v (.ok ()) v' →
        (v'.checkouts i).work.get? FilesystemStorage.HEAD = some (.regular (next ++ [10])) := by
    intro v v' hrun
    rw [checkout_writeWork hrun, SortedMap.get?_insert, if_pos rfl]
  unfold GitStorage.writeCheckoutHead at h
  split at h
  · obtain ⟨_, _, -, h⟩ := Runs.bind_ok h
    obtain ⟨_, _, -, h⟩ := Runs.bind_ok h
    exact hhead h
  · exact hhead h

/-- What is staged is in the index. -/
theorem index_stage {checkout : Checkout} {name : Text} {entry : FileEntry}
    (hname : isCarrierPath name = true) (h : checkout.work.get? name = some entry) :
    checkout.stage.index.get? name = some entry := by
  refine SortedMap.get?_foldl_insert _ ?_ fun other hother => ?_
  · rw [List.mem_filter]
    exact ⟨(checkout.work.mem_entries_iff).mpr h, hname⟩
  · have hbound := (checkout.work.mem_entries_iff).mp (List.mem_filter.mp hother).1
    rw [h] at hbound
    exact (Option.some.inj hbound).symm

/-- What a commit of the checkout comes to. -/
structure CommitsHead (i : ι) (next : Text) (base : Option Commit) (commit : Commit)
    (w w' : Carrier ι) : Prop where
  built : ∃ events, Built i commit events w w'
  based : ∃ tree stamp, commit = Commit.onto base tree stamp
  head : commit.tree.get? FilesystemStorage.HEAD = some (.regular (next ++ [10]))
  branch : (w'.checkouts i).branch = some commit

theorem silent_writeCheckoutHead (next : Text) (genesis : Bool) :
    (GitStorage.writeCheckoutHead next genesis).Only Silent := by
  unfold GitStorage.writeCheckoutHead
  split
  · exact .bind (GitStorage.silent_writeWork _ _) fun _ =>
      .bind (GitStorage.silent_writeWork _ _) fun _ => GitStorage.silent_writeWork _ _
  · exact GitStorage.silent_writeWork _ _

/-- **The commit**: HEAD is written, staged and committed on the base. -/
theorem runs_commitHead {next : Text} {base : Option Commit} {commit : Commit} {w w' : Carrier ι}
    (h : Runs platform (Others i) i (GitStorage.commitHead next base) w (.ok commit) w') :
    CommitsHead i next base commit w w' := by
  -- HEAD goes into the index, and with it into the tree
  obtain ⟨_, w₁, hwrite, h⟩ := Runs.bind_ok h
  obtain ⟨_, w₂, hstage, h⟩ := command_bind_ok h
  obtain ⟨tree, w₃, htree, h⟩ := command_bind_ok h
  obtain ⟨commit', w₄, hcommit, h⟩ := command_bind_ok h
  obtain ⟨_, w₅, hupdate, h⟩ := command_bind_ok h
  obtain ⟨hresult, hend⟩ := Runs.done_cases h
  cases hresult
  obtain ⟨⟨stamp, hbased⟩, e₄, hbuilt⟩ := runs_commitTree hcommit
  obtain ⟨e₁, hwrite'⟩ := runs_silent (silent_writeCheckoutHead _ _) hwrite
  obtain ⟨e₂, hstage'⟩ := runs_silent (x := Command.stageCheckout) (.perform trivial) hstage
  obtain ⟨e₃, htree'⟩ := runs_silent (x := Command.writeTree) (.perform trivial) htree
  obtain ⟨e₅, hupdate'⟩ := runs_silent (x := Command.updateRef _) (.perform trivial) hupdate
  obtain ⟨e₆, hend'⟩ := others_watched hend
  have hbefore := (hwrite'.trans hstage').trans htree'
  refine ⟨⟨_, (hbefore.built.trans hbuilt).trans (hupdate'.trans hend').built⟩,
    ⟨tree, stamp, hbased⟩, ?_, ?_⟩
  · rw [hbased, Commit.tree_onto, runs_writeTree htree, checkout_stageCheckout hstage]
    exact index_stage (by decide) (work_writeCheckoutHead hwrite)
  · rw [others_checkout hend, checkout_updateRef hupdate]

/-! ## The push -/

omit [DecidableEq ι] in
/-- What a push can do: it lands, with or without the client being told, or it fails and
the branch stays. -/
theorem performPush_cases {outcome : CarrierOutcome} {commit : Commit} {w w' : Carrier ι}
    {reply : Except CommandFailure Unit} (hbranch : (w.checkouts i).branch = some commit)
    (h : w.performPush i outcome = (reply, w')) :
    (Commit.fastForwards w.remote commit = true ∧ reply = .ok () ∧ w' = w.land i commit true)
    ∨ (∃ failure, reply = .error failure)
      ∧ ((Commit.fastForwards w.remote commit = true ∧ w' = w.land i commit false) ∨ w' = w) := by
  unfold performPush at h
  rw [hbranch] at h
  dsimp only at h
  split at h
  · rename_i hforward
    split at h
    · cases h
      exact .inl ⟨hforward, rfl, rfl⟩
    · rename_i failure _
      cases h
      refine .inr ⟨⟨failure, rfl⟩, ?_⟩
      split
      · exact .inl ⟨hforward, rfl⟩
      · exact .inr rfl
  · cases h
    exact .inr ⟨⟨_, rfl⟩, .inr rfl⟩

/-- The trace of a push that was reported as failed: it landed unseen, or it left none. -/
def Unseen (i : ι) (commit : Commit) (w w' : Carrier ι) : Prop :=
  (w'.remote = some commit ∧ Traced i (fun e => e = .pushed i commit false)
    [.pushed i commit false] w w') ∨ w' = w

/-- How a push ends for the client: the branch has the commit, or a failed push was
followed by a fetch that showed another tip, or there is no verdict. -/
structure PushEnds (i : ι) (commit : Commit) (result : Except Error Unit) (w w' : Carrier ι) :
    Prop where
  landed : result = .ok () → commit ∈ w'.branch
  lost : ∀ e, result = .error e → e.IsCasConflict →
    ∃ before pushed latest e₀, Watched i e₀ w before ∧ Unseen i commit before pushed
      ∧ Observed i latest pushed w' ∧ latest ≠ some commit

omit [DecidableEq ι] in
/-- No verdict. -/
theorem PushEnds.of_other {commit : Commit} {result : Except Error Unit} {e : Error}
    {w w' : Carrier ι} (hresult : result = .error e) (h : ¬ e.IsCasConflict) :
    PushEnds i commit result w w' := by
  subst hresult
  refine ⟨(fun hok => by cases hok), fun e' he hconflict => ?_⟩
  cases he
  exact absurd hconflict h

omit [DecidableEq ι] in
/-- The branch had the commit at some point, and loses nothing. -/
theorem PushEnds.of_mem {commit : Commit} {result : Except Error Unit}
    {events : List (CarrierEvent ι)} {w mid w' : Carrier ι} (hresult : result = .ok ())
    (hmem : commit ∈ mid.branch) (h : Watched i events mid w') :
    PushEnds i commit result w w' :=
  ⟨fun _ => h.kept commit hmem, (fun e he => by rw [hresult] at he; cases he)⟩

/-- **The push**, and the fetch that judges it. -/
theorem runs_pushHead {expected : Option Text} {base : Option Commit} {commit : Commit}
    {w w' : Carrier ι} {result : Except Error Unit}
    (hbranch : (w.checkouts i).branch = some commit)
    (h : Runs platform (Others i) i (GitStorage.pushHead expected base commit) w result w') :
    PushEnds i commit result w w' := by
  obtain ⟨before, choice, reply, after, hothers, hperform, h⟩ := Runs.perform_bind_cases h
  have hlocal : (before.checkouts i).branch = some commit := by
    rw [others_checkout hothers, hbranch]
  obtain ⟨e₀, hothers⟩ := others_watched hothers
  have hpush := performPush_cases hlocal (show before.performPush i choice = (reply, after) from
    Option.some.inj hperform)
  -- the fetch that judges a failed push
  have hjudged : ∀ {latest : Option Commit} {mid : Carrier ι},
      Runs platform (Others i) i CarrierCache.refresh after (.ok latest) mid →
      ∀ {events}, Watched i events mid w' → latest ≠ some commit →
      (∃ failure, reply = .error failure) →
      ∃ before pushed latest e₀, Watched i e₀ w before ∧ Unseen i commit before pushed
        ∧ Observed i latest pushed w' ∧ latest ≠ some commit := by
    intro latest mid hrefresh events hrest hne hfailed
    refine ⟨before, after, latest, e₀, hothers, ?_, (runs_refresh hrefresh).snoc hrest, hne⟩
    rcases hpush with ⟨-, hok, -⟩ | ⟨-, ⟨hforward, rfl⟩ | hsame⟩
    · obtain ⟨failure, hfailed⟩ := hfailed
      rw [hok] at hfailed
      cases hfailed
    · exact .inl ⟨rfl, .landed hforward fun _ => rfl⟩
    · exact .inr hsame
  rcases reply with (fault | stderr) | _
  · exact .of_other (Runs.done_cases h).1 (not_isCasConflict_ioError fault)
  · obtain ⟨latest, mid, hrefresh, h⟩ := Runs.attempt_bind_cases h
    cases latest with
    | error error => exact .of_other (Runs.done_cases h).1 (Error.not_isCasConflict_msg _)
    | ok latest =>
      dsimp only at h
      by_cases hlanded : latest = some commit
      · -- the fetch shows the commit: the push had landed after all
        rw [if_pos hlanded] at h
        obtain ⟨hresult, hend⟩ := Runs.done_cases h
        obtain ⟨events, hend⟩ := others_watched hend
        obtain ⟨at_, _, _, -, hat, hafter, -⟩ := runs_refresh hrefresh
        refine .of_mem hresult (hafter.kept _ ?_) hend
        rw [branch, hat, hlanded]
        exact Commit.mem_history_self commit
      · rw [if_neg hlanded] at h
        by_cases hbase : latest = base
        · -- the branch has not moved, and the push is reported as it failed
          rw [if_pos hbase] at h
          exact .of_other (Runs.done_cases h).1 (Error.not_isCasConflict_msg _)
        · rw [if_neg hbase] at h
          obtain ⟨events, hrest⟩ := runs_silent
            (x := GitStorage.conflictingHead latest >>= fun actual =>
              Thread.fail (.of (.casConflict expected actual)))
            (.bind (GitStorage.silent_conflictingHead latest) fun _ => trivial) h
          refine ⟨fun hok => ?_, fun e _ _ => hjudged hrefresh hrest hlanded ⟨_, rfl⟩⟩
          subst hok
          obtain ⟨_, _, -, h⟩ := Runs.bind_ok h
          cases (Runs.done_cases h).1
  · obtain ⟨hresult, hend⟩ := Runs.done_cases h
    obtain ⟨events, hend⟩ := others_watched hend
    rcases hpush with ⟨-, -, hafter⟩ | ⟨⟨failure, hfailed⟩, -⟩
    · refine .of_mem hresult ?_ hend
      rw [hafter]
      exact Commit.mem_history_self commit
    · cases hfailed

/-- How a publication can end in a conflict: its commit was built and pushed, the push was
reported as failed, and a fetch then showed another tip. -/
structure LosesRace (i : ι) (next : Text) (base : Option Commit) (w w' : Carrier ι) : Prop where
  race : ∃ commit built before pushed latest events, CommitsHead i next base commit w built
    ∧ Watched i events built before ∧ Unseen i commit before pushed
    ∧ Observed i latest pushed w' ∧ latest ≠ some commit

/-- What a publication comes to. -/
structure Publishes (i : ι) (next : Text) (base : Option Commit) (result : Except Error Commit)
    (w w' : Carrier ι) : Prop where
  published : ∀ commit, result = .ok commit → commit ∈ w'.branch
    ∧ (∃ tree stamp, commit = Commit.onto base tree stamp)
    ∧ commit.tree.get? FilesystemStorage.HEAD = some (.regular (next ++ [10]))
  lost : ∀ e, result = .error e → e.IsCasConflict → LosesRace i next base w w'

theorem writeWork_no_conflict (name : Text) (content : Bytes) :
    (GitStorage.writeWork name content).FailsWith fun e => ¬ e.IsCasConflict := by
  refine .bind .perform fun reply => .lift fun e he => ?_
  cases reply with
  | ok u => cases he
  | error failure =>
    cases he
    exact not_isCasConflict_ioError _

theorem commitHead_no_conflict (next : Text) (base : Option Commit) :
    (GitStorage.commitHead next base).FailsWith fun e => ¬ e.IsCasConflict := by
  refine .bind ?_ fun _ => .bind .perform fun _ => .bind (orFail_no_conflict _ _) fun _ =>
    .bind .perform fun _ => .bind (orFail_no_conflict _ _) fun _ =>
    .bind .perform fun _ => .bind (orFail_no_conflict _ _) fun _ =>
    .bind .perform fun _ => .bind (orFail_no_conflict _ _) fun _ => trivial
  unfold GitStorage.writeCheckoutHead
  split
  · exact .bind (writeWork_no_conflict _ _) fun _ =>
      .bind (writeWork_no_conflict _ _) fun _ => writeWork_no_conflict _ _
  · exact writeWork_no_conflict _ _

/-- The commit, the push, and the cache behind it. -/
theorem runs_commitAndPushHead {next : Text} {expected : Option Text} {base : Option Commit}
    {result : Except Error Commit} {w w' : Carrier ι}
    (h : Runs platform (Others i) i (GitStorage.commitAndPushHead next expected base) w result w') :
    Publishes i next base result w w' := by
  rcases Runs.bind_cases h with ⟨commit, built, hcommit, h⟩ | ⟨e, mid, hresult, hcommit, -⟩
  -- there was nothing to push
  swap
  · subst hresult
    refine ⟨(fun _ h => by cases h), fun e' he hconflict => ?_⟩
    cases he
    have hno := Runs.failsWith (commitHead_no_conflict next base) hcommit
    exact absurd hconflict hno
  have hbuilt := runs_commitHead hcommit
  rcases Runs.bind_cases h with ⟨_, told, hpush, h⟩ | ⟨e, mid, hresult, hpush, hend⟩
  · -- the branch has the commit, whatever becomes of the cache
    have hmem := (runs_pushHead hbuilt.branch hpush).landed rfl
    refine ⟨fun commit' hok => ?_, fun e he hconflict => ?_⟩
    · subst hok
      obtain ⟨_, updated, hupdate, h⟩ := Runs.bind_ok h
      obtain ⟨hresult, hend⟩ := Runs.done_cases h
      cases hresult
      obtain ⟨e₁, hupdate⟩ := runs_silent (x := CarrierCache.updatePublishedTip _)
        (.bind (.perform trivial) fun _ => trivial) hupdate
      obtain ⟨e₂, hend⟩ := others_watched hend
      exact ⟨hend.kept _ (hupdate.kept _ hmem), hbuilt.based, hbuilt.head⟩
    · subst he
      have hfails : (CarrierCache.updatePublishedTip commit >>= fun _ =>
          (pure commit : CarrierProcess Commit)).FailsWith fun e => ¬ e.IsCasConflict :=
        .bind (.bind .perform fun _ => orFail_no_conflict _ _) fun _ => trivial
      have hno := Runs.failsWith hfails h
      exact absurd hconflict hno
  · subst hresult
    refine ⟨(fun _ h => by cases h), fun e' he hconflict => ?_⟩
    cases he
    obtain ⟨before, pushed, latest, e₀, hbefore, hunseen, hlatest, hne⟩ :=
      (runs_pushHead hbuilt.branch hpush).lost e rfl hconflict
    obtain ⟨e₁, hend⟩ := others_watched hend
    exact ⟨commit, built, before, pushed, latest, e₀, hbuilt, hbefore, hunseen,
      hlatest.snoc hend, hne⟩

/-- **The publication**: a failure restores the checkout and is returned as it was. -/
theorem runs_publishCheckoutHead {next : Text} {expected : Option Text} {base : Option Commit}
    {result : Except Error Commit} {w w' : Carrier ι}
    (h : Runs platform (Others i) i (GitStorage.publishCheckoutHead next expected base) w result
      w') : Publishes i next base result w w' := by
  obtain ⟨outcome, mid, hrun, h⟩ := Runs.attempt_bind_cases h
  have hpublishes := runs_commitAndPushHead hrun
  cases outcome with
  | ok commit =>
    obtain ⟨hresult, hend⟩ := Runs.done_cases h
    subst hresult
    obtain ⟨events, hend⟩ := others_watched hend
    refine ⟨fun commit' hok => ?_, (fun _ h => by cases h)⟩
    obtain ⟨hmem, hrest⟩ := hpublishes.published commit' hok
    exact ⟨hend.kept _ hmem, hrest⟩
  | error error =>
    obtain ⟨restored, mid', hrestore, h⟩ := Runs.attempt_bind_cases h
    obtain ⟨e₁, hrestore⟩ := runs_silent (GitStorage.silent_restoreCheckout base) hrestore
    -- the error keeps its cause, with or without a note on the checkout
    have hresult : ∃ e, result = .error e ∧ e.cause = error.cause := by
      cases restored with
      | ok u => exact ⟨error, (Runs.done_cases h).1, rfl⟩
      | error e => exact ⟨_, (Runs.done_cases h).1, rfl⟩
    have hend : ∃ events, Watched i events mid' w' := by
      cases restored with
      | ok u => exact others_watched (Runs.done_cases h).2
      | error e => exact others_watched (Runs.done_cases h).2
    obtain ⟨e₂, hend⟩ := hend
    obtain ⟨e', hresult, hcause⟩ := hresult
    subst hresult
    refine ⟨(fun _ h => by cases h), fun e he hconflict => ?_⟩
    cases he
    have hsource : error.IsCasConflict := by
      obtain ⟨expected, actual, hconflict⟩ := hconflict
      exact ⟨expected, actual, hcause ▸ hconflict⟩
    obtain ⟨commit, built, before, pushed, latest, events, hbuilt, hbefore, hunseen, hlatest,
      hne⟩ := (hpublishes.lost error rfl hsource).race
    exact ⟨commit, built, before, pushed, latest, events, hbuilt, hbefore, hunseen,
      hlatest.snoc (hrestore.trans hend), hne⟩

/-! ## The verdict -/

/-- What happened from `w` to `w'`. -/
def since (w w' : Carrier ι) : List (CarrierEvent ι) := w'.log.drop w.log.length

omit [DecidableEq ι] in
theorem Traced.since_eq {own : CarrierEvent ι → Prop} {events : List (CarrierEvent ι)}
    {w w' : Carrier ι} (h : Traced i own events w w') : since w w' = events := by
  rw [since, h.log, List.drop_left]

/-- The call published nothing: no push of its landed, and no commit it built is in the
branch. -/
structure PublishedNothing (i : ι) (w w' : Carrier ι) : Prop where
  pushed : ∀ commit acknowledged, .pushed i commit acknowledged ∉ since w w'
  absent : ∀ commit, .committed i commit ∈ since w w' → commit ∉ w'.branch

/-- Nobody comes between. After a push of client `i` that landed unreported, no other push
lands before the client's next fetch; and what the client commits, others push only after
it has. -/
structure Undisturbed (i : ι) (events : List (CarrierEvent ι)) : Prop where
  judged : ∀ a b c d commit j other acknowledged,
    events = a ++ .pushed i commit false :: (b ++ .pushed j other acknowledged
      :: (c ++ .fetched i :: d)) → j = i
  fromBranch : ∀ a b commit j other acknowledged,
    events = a ++ .pushed j other acknowledged :: b → .committed i commit ∈ events →
      commit ∈ other.history → j = i ∨ ∃ told, .pushed i commit told ∈ a

omit [DecidableEq ι] in
/-- A client that only fetched has published nothing. -/
theorem publishedNothing_of_watched {events : List (CarrierEvent ι)} {w w' : Carrier ι}
    (h : Watched i events w w') : PublishedNothing i w w' := by
  refine ⟨fun commit acknowledged hmem => ?_, fun commit hmem => ?_⟩
  · rw [h.since_eq] at hmem
    have := h.own _ hmem rfl
    cases this
  · rw [h.since_eq] at hmem
    have := h.own _ hmem rfl
    cases this

omit [DecidableEq ι] in
/-- A lost race without anybody coming between: the client's push did not land. -/
theorem publishedNothing_of_losesRace {next : Text} {base : Option Commit}
    {before after : List (CarrierEvent ι)} {w seen start w' : Carrier ι}
    (hbefore : Watched i before w seen) (hseen : seen.remote = base)
    (hafter : Watched i after seen start) (h : LosesRace i next base start w')
    (halone : Undisturbed i (since w w')) : PublishedNothing i w w' := by
  obtain ⟨commit, built, pushing, pushed, latest, waited, hcommit, hwaited, hunseen,
    ⟨at_, fetching, rest, hfetching, hat, hrest, hfetched⟩, hne⟩ := h.race
  obtain ⟨building, hbuilding⟩ := hcommit.built
  obtain ⟨tree, stamp, hbased⟩ := hcommit.based
  have hstart : Built i commit (before ++ after ++ building ++ waited) w pushing :=
    ((hbefore.trans hafter).built.trans hbuilding).trans hwaited.built
  rcases hunseen with ⟨hlanded, hpush⟩ | hsame
  · -- the push landed, so the fetch showed another tip because somebody else pushed
    exfalso
    have htotal : since w w' = (before ++ after ++ building ++ waited)
        ++ (.pushed i commit false :: (fetching ++ rest)) := by
      have hlog : w'.log = w.log ++ ((before ++ after ++ building ++ waited)
          ++ (.pushed i commit false :: (fetching ++ rest))) := by
        rw [hrest.log, hfetching.log, hpush.log, hstart.log]
        simp
      rw [since, hlog, List.drop_left]
    have hlatest : latest.isSome = true := by
      have hmem : commit ∈ at_.branch := by
        refine hfetching.kept commit ?_
        rw [branch, hlanded]
        exact Commit.mem_history_self commit
      rw [branch, hat] at hmem
      cases latest with
      | none => simp [Commit.reached] at hmem
      | some tip => rfl
    obtain ⟨rest', hrest'⟩ := hfetched hlatest
    rcases hfetching.moved with hstill | ⟨e, he, j, other, acknowledged, heq⟩
    · exact hne (hat.symm.trans (hstill.trans hlanded))
    · subst heq
      obtain ⟨b, c, hsplit⟩ := List.append_of_mem he
      have hj : j = i := by
        refine halone.judged (before ++ after ++ building ++ waited) b c rest' commit j other
          acknowledged ?_
        rw [htotal, hsplit, hrest']
        simp
      have := hfetching.own _ he hj
      cases this
  · -- the push did not land, so whoever brought the commit to the branch built it too
    subst hsame
    have htotal : Built i commit (before ++ after ++ building ++ waited ++ fetching ++ rest) w w' :=
      (hstart.trans hfetching.built).trans hrest.built
    have hnone : ∀ commit' acknowledged, .pushed i commit' acknowledged ∉ since w w' := by
      intro commit' acknowledged hmem
      rw [htotal.since_eq] at hmem
      rcases htotal.own _ hmem rfl with h | h
      · cases h
      · cases h
    refine ⟨hnone, fun commit' hmem hbranch => ?_⟩
    have hcommit' : commit' = commit := by
      rw [htotal.since_eq] at hmem
      rcases htotal.own _ hmem rfl with h | h
      · cases h
      · cases h
        rfl
    subst hcommit'
    have hgained : Built i commit' (after ++ building ++ waited ++ fetching ++ rest) seen w' :=
      (((hafter.built.trans hbuilding).trans hwaited.built).trans hfetching.built).trans hrest.built
    -- it was not there when the branch was at the base, so some push brought it
    rcases hgained.gained commit' hbranch with hold | ⟨e, he, j, other, acknowledged, heq, hin⟩
    · rw [branch, hseen, hbased] at hold
      exact Commit.onto_notMem_reached base tree stamp hold
    · subst heq
      obtain ⟨b, c, hsplit⟩ := List.append_of_mem he
      have hevents : since w w' = (before ++ b) ++ .pushed j other acknowledged :: c := by
        rw [htotal.since_eq, List.append_assoc before b, ← hsplit]
        simp
      rcases halone.fromBranch _ _ _ _ _ _ hevents hmem hin with hj | ⟨told, htold⟩
      · subst hj
        exact hnone other acknowledged (by rw [hevents]; simp)
      · exact hnone commit' told (by rw [hevents]; exact List.mem_append_left _ htold)

/-- A swap that may go on publishing, from where it saw the branch at `base`. -/
structure Guarded (i : ι) (next : Text) (base : Option Commit) (result : Except Error Commit)
    (w w' : Carrier ι) : Prop where
  published : ∀ commit, result = .ok commit → commit ∈ w'.branch
    ∧ (∃ tree stamp, commit = Commit.onto base tree stamp)
    ∧ commit.tree.get? FilesystemStorage.HEAD = some (.regular (next ++ [10]))
  lost : ∀ e, result = .error e → e.IsCasConflict → Undisturbed i (since w w') →
    PublishedNothing i w w'

omit [DecidableEq ι] in
/-- The call ended before it built anything. -/
theorem Guarded.of_watched {next : Text} {base : Option Commit} {result : Except Error Commit}
    {e : Error} {events : List (CarrierEvent ι)} {w w' : Carrier ι} (hresult : result = .error e)
    (h : Watched i events w w') : Guarded i next base result w w' :=
  ⟨(fun commit hok => by rw [hresult] at hok; cases hok),
    fun _ _ _ _ => publishedNothing_of_watched h⟩

/-- What both swaps do once the branch was fetched. -/
theorem guarded_of_refresh {α : Type} {next : Text} {expected : Option Text}
    {base tip : Option Commit}
    {local_ : CarrierProcess α} (agrees : α → Prop) [DecidablePred agrees]
    {conflict : α → CarrierProcess Commit} {refuse : α → Result Unit}
    {result : Except Error Commit} {events : List (CarrierEvent ι)}
    {w fetching fetched w' : Carrier ι}
    (hlocal : local_.Only Silent) (hconflict : ∀ a, ∃ e, conflict a = Thread.fail e)
    (hbefore : Watched i events w fetching) (htip : Observed i tip fetching fetched)
    (h : Runs platform (Others i) i
      (if tip ≠ base then GitStorage.moved expected tip
        else local_ >>= fun actual => if ¬ agrees actual then conflict actual
          else Thread.lift (refuse actual) >>= fun _ =>
            GitStorage.publishCheckoutHead next expected base) fetched result w') :
    Guarded i next base result w w' := by
  obtain ⟨watched, hwatched⟩ := htip.watched
  by_cases hmoved : tip ≠ base
  · rw [if_pos hmoved] at h
    -- the branch is not where the checkout is based
    obtain ⟨events', hrest⟩ := runs_silent (GitStorage.silent_moved expected tip) h
    refine ⟨fun commit hok => ?_, fun e he _ _ =>
      publishedNothing_of_watched ((hbefore.trans hwatched).trans hrest)⟩
    subst hok
    obtain ⟨_, _, -, h⟩ := Runs.bind_ok h
    cases (Runs.done_cases h).1
  · rw [if_neg hmoved] at h
    have hbase : tip = base := not_not.mp hmoved
    rcases Runs.bind_cases h with ⟨actual, read, hread, h⟩ | ⟨e, mid, hresult, hread, hend⟩
    · obtain ⟨e₁, hread⟩ := runs_silent hlocal hread
      by_cases hagrees : agrees actual
      · rw [if_neg (not_not.mpr hagrees)] at h
        rcases Runs.lift_bind_cases h with ⟨_, -, h⟩ | ⟨e, hrefused, hresult, hend⟩
        · -- from here on the swap publishes
          obtain ⟨at_, e₂, e₃, hat₁, hat, hat₂, -⟩ := htip
          have hpublishes := runs_publishCheckoutHead h
          refine ⟨hpublishes.published, fun e he hconflict' halone => ?_⟩
          exact publishedNothing_of_losesRace (hbefore.trans hat₁) (hat.trans hbase)
            (hat₂.trans hread) (hpublishes.lost e he hconflict') halone
        · obtain ⟨e₂, hend⟩ := others_watched hend
          exact .of_watched hresult (((hbefore.trans hwatched).trans hread).trans hend)
      · rw [if_pos hagrees] at h
        obtain ⟨e, he⟩ := hconflict actual
        rw [he] at h
        obtain ⟨hresult, hend⟩ := Runs.done_cases h
        obtain ⟨e₂, hend⟩ := others_watched hend
        exact .of_watched hresult (((hbefore.trans hwatched).trans hread).trans hend)
    · obtain ⟨e₁, hread⟩ := runs_silent hlocal hread
      obtain ⟨e₂, hend⟩ := others_watched hend
      exact .of_watched hresult (((hbefore.trans hwatched).trans hread).trans hend)

/-- Either swap, up to the fetch and from there on. -/
theorem guarded_swap (storage : GitStorage) {token : Option Commit → Bytes} {base : Option Commit}
    {next : Text} {expectation : GitStorage.Expectation} {result : Except Error Commit}
    {w w' : Carrier ι}
    (h : Runs platform (Others i) i (storage.swap token base next expectation) w result w') :
    Guarded i next base result w w' ∧ (∀ commit, result = .ok commit → isObjectId next = true) := by
  -- up to the fetch nothing is on record, and a swap that fails there is no conflict
  have hearly : ∀ {e : Error} {mid : Carrier ι} {events}, result = .error e →
      Watched i events w mid → Relation.ReflTransGen (Others i) mid w' →
      Guarded i next base result w w' ∧ ∀ commit, result = .ok commit → isObjectId next = true := by
    intro e mid events hresult hmid hend
    obtain ⟨e₁, hend⟩ := others_watched hend
    exact ⟨.of_watched hresult (hmid.trans hend), (fun _ hok => by rw [hresult] at hok; cases hok)⟩
  -- from the lock on, both swaps are of one form
  have hlocked : ∀ {f : Option Commit → CarrierProcess Commit}, isObjectId next = true →
      (∀ {tip fetching fetched events}, Watched i events w fetching →
        Observed i tip fetching fetched → Runs platform (Others i) i (f tip) fetched result w' →
        Guarded i next base result w w') →
      Runs platform (Others i) i
        (CarrierCache.lock >>= fun _ => CarrierCache.refresh >>= f) w result w' →
      Guarded i next base result w w' ∧ ∀ commit, result = .ok commit → isObjectId next = true := by
    intro f hid hf h
    rcases Runs.bind_cases h with ⟨_, locked, hlock, h⟩ | ⟨e, mid, hresult, hlock, hend⟩
    · obtain ⟨e₁, hlock⟩ := runs_silent CarrierCache.silent_lock hlock
      rcases Runs.bind_cases h with ⟨tip, fetched, hfetch, h⟩ | ⟨e, mid, hresult, hfetch, hend⟩
      · exact ⟨hf hlock (runs_refresh hfetch) h, fun _ _ => hid⟩
      · obtain ⟨e₂, hfetch⟩ := runs_silent CarrierCache.silent_refresh hfetch
        exact hearly hresult (hlock.trans hfetch) hend
    · obtain ⟨e₁, hlock⟩ := runs_silent CarrierCache.silent_lock hlock
      exact hearly hresult hlock hend
  cases expectation with
  | head expected =>
    rcases Runs.lift_bind_cases h with ⟨_, hvalid, h⟩ | ⟨e, -, hresult, hend⟩
    · refine hlocked (by simpa [validateId] using hvalid) ?_ h
      intro tip fetching fetched events hbefore htip h
      exact guarded_of_refresh (fun actual => actual = expected)
        storage.silent_localHead (fun actual => ⟨_, rfl⟩) hbefore htip h
    · exact hearly hresult (.refl w) hend
  | observation observed =>
    rcases Runs.lift_bind_cases h with ⟨_, hvalid, h⟩ | ⟨e, -, hresult, hend⟩
    · rcases Runs.lift_bind_cases h with ⟨_, -, h⟩ | ⟨e, -, hresult, hend⟩
      · refine hlocked (by simpa [validateId] using hvalid) ?_ h
        intro tip fetching fetched events hbefore htip h
        exact guarded_of_refresh (fun actual => actual = observed.head)
          storage.silent_localStoredHead (fun actual => ⟨_, rfl⟩) hbefore htip h
      · exact hearly hresult (.refl w) hend
    · exact hearly hresult (.refl w) hend

/-- A tree with HEAD as a swap writes it names the manifest. -/
theorem namesHead_of_written {next : Text} {commit : Commit} (hid : isObjectId next = true)
    (h : commit.tree.get? FilesystemStorage.HEAD = some (.regular (next ++ [10]))) :
    commit.NamesHead next := by
  have hlength : ¬ MAX_HEAD_BYTES < (next ++ [10]).length := by
    have := (isObjectId_iff.mp hid).1
    simp only [List.length_append, List.length_singleton, this, MAX_HEAD_BYTES]
    omega
  refine ⟨.bytes (next ++ [10]), ?_, headId_written hid⟩
  rw [h, readRegularBounded, if_neg hlength]
  rfl

/-- **The verdict of a swap**, among clients that push and fetch as they like. A swap that
returns has its commit, built on the base and naming `next`, in the branch. A swap that
reports a conflict has published nothing, if nobody came between its push and the fetch
that judged it. -/
theorem carrier_swap_verdict (storage : GitStorage) (token : Option Commit → Bytes)
    (base : Option Commit) (next : Text) (expectation : GitStorage.Expectation) {w w' : Carrier ι}
    {result : Except Error Commit}
    (h : Runs platform (Others i) i (storage.swap token base next expectation) w result w') :
    (∀ commit, result = .ok commit → commit ∈ w'.branch
      ∧ (∃ tree stamp, commit = Commit.onto base tree stamp) ∧ commit.NamesHead next)
    ∧ ∀ e, result = .error e → e.IsCasConflict → Undisturbed i (since w w') →
      PublishedNothing i w w' := by
  obtain ⟨hguarded, hid⟩ := guarded_swap storage h
  refine ⟨fun commit hok => ?_, hguarded.lost⟩
  obtain ⟨hmem, hbased, hhead⟩ := hguarded.published commit hok
  exact ⟨hmem, hbased, namesHead_of_written (hid commit hok) hhead⟩

/-! ## Two races -/

namespace Race

def answers : (call : ObjectCall) → call.Reply
  | .begin _ | .finish _ _ _ | .retain _ _ => (bail "no answer" : Result Unit)
  | .open _ _ => (bail "no answer" : Result Reader)
  | .recoveryHistory _ _ => (bail "no answer" : Result (Option RecoveryHistory))
  | .restore _ _ _ => (bail "no answer" : Result Bool)

/-- A command that works. -/
def works : CarrierOutcome := ⟨none, false, 0, answers, .empty, .empty⟩

/-- A command that works and whose reply is lost. -/
def unanswered : CarrierOutcome :=
  ⟨some (.exit "connection reset"), true, 0, answers, .empty, .empty⟩

def storage : GitStorage := ⟨text "host:vault.git", text "host:vault.git", text "main", false⟩

def next : Text := List.replicate 64 97

/-- Two clients and an empty remote. -/
def start : Carrier Bool := ⟨none, false, fun _ => .empty, []⟩

def initializing : CarrierProcess Commit :=
  storage.swap (fun _ => []) none next (.head none)

/-- Client `false` gets as far as `before` says, client `true` pushes `theirs` of what the
branch has, and client `false` goes on to its end. -/
def ends (before after : List CarrierOutcome) (theirs : Option Commit → Commit)
    (good : Except Error Commit → Carrier Bool → Bool) : Bool :=
  match Thread.play platform false before (initializing, start) with
  | none => false
  | some p =>
    Commit.fastForwards p.2.remote (theirs p.2.remote)
      && match Thread.play platform false after
          (p.1, p.2.land true (theirs p.2.remote) true) with
        | none => false
        | some q => match q.1.result? with
          | none => false
          | some result => good result q.2

/-- A schedule that ends is a run. -/
theorem runs_of_ends {before after : List CarrierOutcome} {theirs : Option Commit → Commit}
    {good : Except Error Commit → Carrier Bool → Bool} (h : ends before after theirs good = true) :
    ∃ result last, Runs platform (Others false) false initializing start result last
      ∧ good result last = true := by
  unfold ends at h
  split at h
  · cases h
  rename_i p hp
  rw [Bool.and_eq_true] at h
  obtain ⟨hforward, h⟩ := h
  split at h
  · cases h
  rename_i q hq
  split at h
  · cases h
  rename_i result hresult
  exact ⟨result, q.2, .of_play hp (.others (.pushed (by decide) hforward)
    (.of_play hq (.of_result q.2 hresult))), h⟩

/-- No push of the client landed, and nobody else pushed what it committed. -/
def apart (events : List (CarrierEvent Bool)) : Bool := events.all fun
  | .pushed client other _ => client && events.all fun
    | .committed false commit => !other.history.contains commit
    | _ => true
  | _ => true

/-- Then nobody came between. -/
theorem undisturbed_of_apart {events : List (CarrierEvent Bool)} (h : apart events = true) :
    Undisturbed false events := by
  rw [apart, List.all_eq_true] at h
  refine ⟨?_, ?_⟩
  · intro a b c d commit j other acknowledged hevents
    have := h (.pushed false commit false) (by rw [hevents]; simp)
    simp at this
  · intro a b commit j other acknowledged hevents hmem hin
    have hpushed := h (.pushed j other acknowledged) (by rw [hevents]; simp)
    rw [Bool.and_eq_true, List.all_eq_true] at hpushed
    have := hpushed.2 _ hmem
    simp [hin] at this

/-- The other client pushes first. -/
def overtaken : Except Error Commit → Carrier Bool → Bool := fun result last =>
  decide (result = .error (.of (.casConflict none none))) && apart (since start last)

theorem ends_overtaken : ends (List.replicate 20 works) (List.replicate 12 works)
    (fun tip => Commit.onto tip .empty 1) overtaken = true := by decide +kernel

/-- The push lands, its reply is lost, and the other client builds on it. -/
def builtUpon : Except Error Commit → Carrier Bool → Bool := fun result last =>
  decide (result = .error (.of (.casConflict none none)))
    && (since start last).any fun
      | .committed false commit => last.branch.contains commit
      | _ => false

theorem ends_builtUpon : ends (List.replicate 20 works ++ [unanswered]) (List.replicate 11 works)
    (fun tip => Commit.onto tip .empty 1) builtUpon = true := by decide +kernel

end Race

/-- A race lost to a client that pushed first. -/
theorem carrier_swap_verdict_overtaken : ∃ (e : Error) (last : Carrier Bool),
    Runs platform (Others false) false
      (Race.storage.swap (fun _ => []) none Race.next (.head none)) Race.start (.error e) last
    ∧ e.IsCasConflict ∧ Undisturbed false (since Race.start last)
    ∧ PublishedNothing false Race.start last := by
  obtain ⟨result, last, hrun, hgood⟩ := Race.runs_of_ends Race.ends_overtaken
  rw [Race.overtaken, Bool.and_eq_true, decide_eq_true_eq] at hgood
  obtain ⟨rfl, hapart⟩ := hgood
  have hconflict : (Error.of (.casConflict none none)).IsCasConflict := ⟨_, _, rfl⟩
  have halone := Race.undisturbed_of_apart hapart
  exact ⟨_, last, hrun, hconflict, halone,
    (carrier_swap_verdict Race.storage (fun _ => []) none Race.next (.head none) hrun).2 _ rfl
      hconflict halone⟩

/-- A swap reports a lost race, and its commit is in the branch. -/
theorem carrier_conflict_after_landing : ∃ (e : Error) (last : Carrier Bool) (commit : Commit),
    Runs platform (Others false) false
      (Race.storage.swap (fun _ => []) none Race.next (.head none)) Race.start (.error e) last
    ∧ e.IsCasConflict ∧ .committed false commit ∈ since Race.start last
    ∧ commit ∈ last.branch := by
  obtain ⟨result, last, hrun, hgood⟩ := Race.runs_of_ends Race.ends_builtUpon
  rw [Race.builtUpon, Bool.and_eq_true, decide_eq_true_eq, List.any_eq_true] at hgood
  obtain ⟨rfl, event, hmem, hevent⟩ := hgood
  split at hevent
  · rename_i commit
    exact ⟨_, last, commit, hrun, ⟨_, _, rfl⟩, hmem, List.contains_iff_mem.mp hevent⟩
  · cases hevent

end Carrier

end GitE2EE

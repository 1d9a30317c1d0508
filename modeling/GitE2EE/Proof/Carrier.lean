import GitE2EE.Lib.Interference
import GitE2EE.Model.GitStorage

/-!
# What a swap of a carrier's head comes to

The branch only moves forward, so what was once in its history stays there. Where its
current history came from is told by the pushes that landed: `Traced` follows a client
and everybody else from one state to a later one, and finds a push event for every commit
the branch has gained.

A swap that returns has its commit in the branch for good. A swap that reports a conflict
after a failed push says so because the second fetch showed another tip. That is no proof
that its own push was lost: it may have landed and been built upon before the fetch.
-/

namespace GitE2EE

open Wire Effect

/-! ## Histories -/

namespace Commit

theorem mem_history_self (c : Commit) : c ∈ c.history := by
  cases c <;> simp [history]

/-- What is behind something behind a commit is behind it. -/
theorem mem_history_trans {a b c : Commit} (hab : a ∈ b.history) (hbc : b ∈ c.history) :
    a ∈ c.history := by
  induction c with
  | root tree stamp =>
    simp only [history, List.mem_singleton] at hbc
    subst hbc
    exact hab
  | child parent tree stamp ih =>
    simp only [history, List.mem_cons] at hbc ⊢
    rcases hbc with hbc | hbc
    · subst hbc
      simpa only [history, List.mem_cons] using hab
    · exact .inr (ih hbc)
  | merge parent other tree stamp ihp iho =>
    simp only [history, List.mem_cons, List.mem_append] at hbc ⊢
    rcases hbc with hbc | hbc | hbc
    · subst hbc
      simpa only [history, List.mem_cons, List.mem_append] using hab
    · exact .inr (.inl (ihp hbc))
    · exact .inr (.inr (iho hbc))

/-- What is behind a commit is no larger, so no commit is behind one it was made from. -/
theorem sizeOf_le_of_mem_history {a c : Commit} (h : a ∈ c.history) : sizeOf a ≤ sizeOf c := by
  induction c with
  | root tree stamp =>
    simp only [history, List.mem_singleton] at h
    rw [h]
  | child parent tree stamp ih =>
    simp only [history, List.mem_cons] at h
    rcases h with h | h
    · rw [h]
    · have := ih h
      simp only [child.sizeOf_spec]
      omega
  | merge parent other tree stamp ihp iho =>
    simp only [history, List.mem_cons, List.mem_append] at h
    rcases h with h | h | h
    · rw [h]
    · have := ihp h
      simp only [merge.sizeOf_spec]
      omega
    · have := iho h
      simp only [merge.sizeOf_spec]
      omega

/-- A commit is not behind what it was built on. -/
theorem onto_notMem_reached (base : Option Commit) (tree : CarrierTree) (stamp : Nat) :
    onto base tree stamp ∉ reached base := by
  intro h
  cases base with
  | none => simp [reached] at h
  | some base =>
    -- it would have to be smaller than itself
    have hle := sizeOf_le_of_mem_history (show onto (some base) tree stamp ∈ base.history from h)
    simp only [onto, child.sizeOf_spec] at hle
    omega

theorem tree_onto (base : Option Commit) (tree : CarrierTree) (stamp : Nat) :
    (onto base tree stamp).tree = tree := by
  cases base <;> rfl

/-- A fast-forward loses nothing. -/
theorem mem_history_of_fastForwards {tip : Option Commit} {next c : Commit}
    (h : fastForwards tip next = true) (hc : c ∈ reached tip) : c ∈ next.history := by
  cases tip with
  | none => simp [reached] at hc
  | some tip =>
    have htip : tip ∈ next.history := by
      simpa only [fastForwards, List.contains_iff_mem] using h
    exact mem_history_trans hc htip

end Commit

/-! ## Events -/

namespace CarrierEvent

variable {ι : Type}

/-- Who did it. -/
def client : CarrierEvent ι → ι
  | committed client _ | pushed client _ _ | fetched client => client

/-- The event is a push that landed. -/
def IsPush (e : CarrierEvent ι) : Prop := ∃ client commit acknowledged,
  e = pushed client commit acknowledged

/-- The event is a push that brought the commit to the branch. -/
def Carries (c : Commit) (e : CarrierEvent ι) : Prop := ∃ client commit acknowledged,
  e = pushed client commit acknowledged ∧ c ∈ commit.history

end CarrierEvent

namespace Carrier

variable {ι : Type} {i : ι}

/-- The commits of the branch. -/
def branch (w : Carrier ι) : List Commit := Commit.reached w.remote

/-- From `w` to `w'`, where client `i` did what `own` allows: the branch lost nothing, and
each commit it gained came with a push that is on record. -/
structure Traced (i : ι) (own : CarrierEvent ι → Prop) (events : List (CarrierEvent ι))
    (w w' : Carrier ι) : Prop where
  log : w'.log = w.log ++ events
  own : ∀ e ∈ events, e.client = i → own e
  kept : ∀ c ∈ w.branch, c ∈ w'.branch
  gained : ∀ c ∈ w'.branch, c ∈ w.branch ∨ ∃ e ∈ events, e.Carries c
  moved : w'.remote = w.remote ∨ ∃ e ∈ events, e.IsPush

namespace Traced

variable {own : CarrierEvent ι → Prop} {events events' : List (CarrierEvent ι)}
  {w w' w'' : Carrier ι}

theorem refl (w : Carrier ι) : Traced i own [] w w :=
  ⟨by simp, by simp, fun _ h => h, fun _ h => .inl h, .inl rfl⟩

/-- Two stretches, one after the other. -/
theorem trans (h : Traced i own events w w') (h' : Traced i own events' w' w'') :
    Traced i own (events ++ events') w w'' where
  log := by rw [h'.log, h.log, List.append_assoc]
  own e he := (List.mem_append.mp he).elim (h.own e) (h'.own e)
  kept c hc := h'.kept c (h.kept c hc)
  gained c hc := by
    -- gained in the second part, or there already and then gained in the first
    rcases h'.gained c hc with hc | ⟨e, he, hcarries⟩
    · rcases h.gained c hc with hc | ⟨e, he, hcarries⟩
      · exact .inl hc
      · exact .inr ⟨e, List.mem_append_left _ he, hcarries⟩
    · exact .inr ⟨e, List.mem_append_right _ he, hcarries⟩
  moved := by
    rcases h'.moved with heq' | ⟨e, he, hpush⟩
    · rcases h.moved with heq | ⟨e, he, hpush⟩
      · exact .inl (heq'.trans heq)
      · exact .inr ⟨e, List.mem_append_left _ he, hpush⟩
    · exact .inr ⟨e, List.mem_append_right _ he, hpush⟩

theorem mono {own' : CarrierEvent ι → Prop} (h : Traced i own events w w')
    (himp : ∀ e ∈ events, own e → own' e) : Traced i own' events w w' :=
  { h with own := fun e he hi => himp e he (h.own e he hi) }

/-- The branch did not move. -/
theorem still (hremote : w'.remote = w.remote) (hlog : w'.log = w.log ++ events)
    (hown : ∀ e ∈ events, e.client = i → own e) : Traced i own events w w' where
  log := hlog
  own := hown
  kept c hc := by rwa [branch, hremote]
  gained c hc := by
    rw [branch, hremote] at hc
    exact .inl hc
  moved := .inl hremote

/-- A push landed. -/
theorem landed {j : ι} {commit : Commit} {acknowledged : Bool}
    (hforward : Commit.fastForwards w.remote commit = true)
    (hown : j = i → own (.pushed j commit acknowledged)) :
    Traced i own [.pushed j commit acknowledged] w (w.land j commit acknowledged) where
  log := rfl
  own e he hi := by
    simp only [List.mem_singleton] at he
    subst he
    exact hown hi
  kept c hc := Commit.mem_history_of_fastForwards hforward hc
  gained c hc := .inr ⟨_, List.mem_singleton_self _, _, _, _, rfl, hc⟩
  moved := .inr ⟨_, List.mem_singleton_self _, _, _, _, rfl⟩

end Traced

/-- The client left no trace of its own but fetches. -/
abbrev Watched (i : ι) (events : List (CarrierEvent ι)) (w w' : Carrier ι) : Prop :=
  Traced i (fun e => e = .fetched i) events w w'

/-- A command that answered had its effect; one that failed had it or not. -/
theorem run_cases {α : Type} {outcome : CarrierOutcome} {effect : Carrier ι → Carrier ι}
    {value : α} {w w' : Carrier ι} {reply : Except CommandFailure α}
    (h : w.run outcome effect value = some (reply, w')) :
    (reply = .ok value ∧ w' = effect w)
    ∨ ((∃ failure, reply = .error failure) ∧ (w' = effect w ∨ w' = w)) := by
  unfold run at h
  split at h
  · cases h
    exact .inl ⟨rfl, rfl⟩
  · rename_i failure _
    cases h
    refine .inr ⟨⟨failure, rfl⟩, ?_⟩
    split
    · exact .inl rfl
    · exact .inr rfl

/-- A query changes nothing, and an answer to it is the truth at that moment. -/
theorem query_cases {α : Type} {outcome : CarrierOutcome} {value : α} {w w' : Carrier ι}
    {reply : Except CommandFailure α} (h : w.query outcome value = some (reply, w')) :
    w' = w ∧ (∀ a, reply = .ok a → a = value) := by
  rcases run_cases h with ⟨hreply, hw⟩ | ⟨⟨failure, hreply⟩, hw⟩
  · refine ⟨hw, fun a ha => ?_⟩
    rw [hreply] at ha
    cases ha
    rfl
  · refine ⟨hw.elim id id, fun a ha => ?_⟩
    rw [hreply] at ha
    cases ha

variable [DecidableEq ι]

/-- What the others do. -/
theorem Others.traced {own : CarrierEvent ι → Prop} {w w' : Carrier ι} (h : Others i w w') :
    ∃ events, Traced i own events w w' := by
  cases h with
  | pushed hne hforward => exact ⟨_, .landed hforward fun h => absurd h hne⟩
  | @fetched j _ hne =>
    refine ⟨[.fetched j], .still rfl rfl fun e he hi => ?_⟩
    simp only [List.mem_singleton] at he
    subst he
    exact absurd hi hne
  | @committed j commit _ hne =>
    refine ⟨[.committed j commit], .still rfl rfl fun e he hi => ?_⟩
    simp only [List.mem_singleton] at he
    subst he
    exact absurd hi hne
  | worked _ => exact ⟨[], .still rfl (by simp [modify]) (by simp)⟩

/-- The others leave the client's checkout alone. -/
theorem Others.checkout {w w' : Carrier ι} (h : Others i w w') :
    w'.checkouts i = w.checkouts i := by
  cases h with
  | pushed _ _ => rfl
  | fetched _ => rfl
  | committed _ => rfl
  | worked hne => exact Function.update_of_ne (Ne.symm hne) _ _

/-- Any number of steps of the others. -/
theorem others_traced {own : CarrierEvent ι → Prop} {w w' : Carrier ι}
    (h : Relation.ReflTransGen (Others i) w w') : ∃ events, Traced i own events w w' := by
  induction h with
  | refl => exact ⟨[], .refl w⟩
  | tail _ hstep ih =>
    obtain ⟨events, hevents⟩ := ih
    obtain ⟨events', hevents'⟩ := hstep.traced
    exact ⟨_, hevents.trans hevents'⟩

theorem others_watched {w w' : Carrier ι} (h : Relation.ReflTransGen (Others i) w w') :
    ∃ events, Watched i events w w' := others_traced h

theorem others_checkout {w w' : Carrier ι} (h : Relation.ReflTransGen (Others i) w w') :
    w'.checkouts i = w.checkouts i := by
  induction h with
  | refl => rfl
  | tail _ hstep ih => rw [hstep.checkout, ih]

/-! ## Commands -/

/-- Commands that neither commit nor push. -/
def Silent : CarrierCall → Prop
  | .push | .commitTree _ _ => False
  | _ => True

/-- A silent command moves nothing on the remote. -/
theorem perform_silent {call : CarrierCall} {outcome : CarrierOutcome} {reply : call.Reply}
    {w w' : Carrier ι} (hcall : Silent call)
    (h : w.perform i outcome call = some (reply, w')) :
    w'.remote = w.remote ∧ (w'.log = w.log ∨ w'.log = w.log ++ [.fetched i]) := by
  -- the effects that are not logged change the client's checkout only
  have hrun : ∀ {α : Type} {f : Checkout → Checkout} {value : α} {reply : Except CommandFailure α},
      w.run outcome (modify i f) value = some (reply, w') →
        w'.remote = w.remote ∧ (w'.log = w.log ∨ w'.log = w.log ++ [.fetched i]) := by
    intro α f value reply h
    rcases run_cases h with ⟨-, rfl⟩ | ⟨-, rfl | rfl⟩
    · exact ⟨rfl, .inl rfl⟩
    · exact ⟨rfl, .inl rfl⟩
    · exact ⟨rfl, .inl rfl⟩
  have hquery : ∀ {α : Type} {value : α} {reply : Except CommandFailure α},
      w.query outcome value = some (reply, w') →
        w'.remote = w.remote ∧ (w'.log = w.log ∨ w'.log = w.log ++ [.fetched i]) := by
    intro α value reply h
    rw [(query_cases h).1]
    exact ⟨rfl, .inl rfl⟩
  cases call with
  | push => exact hcall.elim
  | commitTree _ _ => exact hcall.elim
  | lockCache => exact hquery h
  | initializeCache => exact hquery h
  | rebuildCache => exact hrun h
  | cacheCorrupt => exact hquery h
  | fetch =>
    have hw : (w.performFetch i outcome).2 = w' := congrArg Prod.snd (Option.some.inj h)
    subst hw
    unfold performFetch
    dsimp only
    split
    · exact ⟨rfl, .inr rfl⟩
    · exact ⟨rfl, .inr rfl⟩
    · split
      · exact ⟨rfl, .inr rfl⟩
      · exact ⟨rfl, .inr rfl⟩
  | cachedTip => exact hquery h
  | lsRemote => exact hquery h
  | lsFormat4 => exact hquery h
  | setCachedTip _ => exact hrun h
  | createCheckout _ => exact hrun h
  | readWork _ => exact hquery h
  | revParseHead => exact hquery h
  | blob _ _ => exact hquery h
  | writeWork _ _ => exact hrun h
  | removeWork name =>
    have hw : (w.performRemove i outcome name).2 = w' := congrArg Prod.snd (Option.some.inj h)
    subst hw
    unfold performRemove
    dsimp only
    split
    · split
      · exact ⟨rfl, .inl rfl⟩
      · exact ⟨rfl, .inl rfl⟩
    · split
      · exact ⟨rfl, .inl rfl⟩
      · exact ⟨rfl, .inl rfl⟩
  | stageCheckout => exact hrun h
  | writeTree => exact hquery h
  | updateRef _ => exact hrun h
  | readTree _ => exact hrun h
  | listUntracked => exact hquery h
  | object _ =>
    have hw := congrArg Prod.snd (Option.some.inj h)
    rw [← show _ = w' from hw]
    exact ⟨rfl, .inl rfl⟩

/-- So at most a fetch goes on record. -/
theorem perform_watched {call : CarrierCall} {outcome : CarrierOutcome} {reply : call.Reply}
    {w w' : Carrier ι} (hcall : Silent call)
    (h : w.perform i outcome call = some (reply, w')) : ∃ events, Watched i events w w' := by
  obtain ⟨hremote, hlog | hlog⟩ := perform_silent hcall h
  · exact ⟨[], .still hremote (by simpa using hlog) (by simp)⟩
  · exact ⟨[.fetched i], .still hremote hlog (by simp)⟩

/-- **A run of silent commands only watches.** -/
theorem runs_silent {α : Type} {x : CarrierProcess α} {w w' : Carrier ι} {result : Except Error α}
    (hx : x.Only Silent) (h : Runs platform (Others i) i x w result w') :
    ∃ events, Watched i events w w' :=
  Runs.only (R := fun w w' => ∃ events, Watched i events w w') (fun w => ⟨[], .refl w⟩)
    (fun _ _ _ ⟨e, h⟩ ⟨e', h'⟩ => ⟨e ++ e', h.trans h'⟩) (fun _ _ => Others.traced)
    (fun _ _ _ _ _ hop hperform => perform_watched hop hperform) hx h

end Carrier

/-! ## What the parts of a swap run -/

section

open Carrier (Silent)

theorem silent_orFail {α : Type} (action : String) (reply : Except CommandFailure α) :
    (orFail action reply).Only Silent := trivial

theorem CarrierCache.silent_lock : CarrierCache.lock.Only Silent :=
  .bind (.perform trivial) fun _ => trivial

theorem CarrierCache.silent_isCorrupt : CarrierCache.isCorrupt.Only Silent :=
  .bind (.perform trivial) fun _ => trivial

theorem CarrierCache.silent_rebuild : CarrierCache.rebuild.Only Silent :=
  .bind (.perform trivial) fun _ => trivial

/-- A fetch, and what is asked when it fails. -/
theorem CarrierCache.silent_fetchCarrierBranch :
    CarrierCache.fetchCarrierBranch.Only Silent := by
  refine .bind (.perform trivial) fun reply => ?_
  rcases reply with (fault | stderr) | _
  · trivial
  · refine .bind (.perform trivial) fun present => ?_
    rcases present with failure | (_ | _)
    · trivial
    · refine .bind (.perform trivial) fun forgotten => ?_
      cases forgotten <;> trivial
    · trivial
  · refine .bind (.perform trivial) fun tip => ?_
    cases tip <;> trivial

/-- A refresh may rebuild the cache, which is the client's own. -/
theorem CarrierCache.silent_refresh : CarrierCache.refresh.Only Silent := by
  refine .bind (.perform trivial) fun ready => .bind trivial fun _ =>
    .bind silent_fetchCarrierBranch fun fetched => ?_
  rcases fetched with (error | error) | tip
  · trivial
  · refine .bind silent_isCorrupt fun corrupt => ?_
    cases corrupt with
    | false => trivial
    | true =>
      refine .bind silent_rebuild fun _ => .bind silent_fetchCarrierBranch fun again => ?_
      cases again <;> trivial
  · trivial

namespace GitStorage

variable (storage : GitStorage)

theorem silent_carrierBlob (commit : Commit) (name : Text) (limit : Nat) :
    (carrierBlob commit name limit).Only Silent :=
  .bind (.perform trivial) fun _ => .bind trivial fun _ => trivial

/-- The checkout is read, and Git is asked for a file it does not have. -/
theorem silent_localRootFile (name : Text) (limit : Nat) :
    (localRootFile name limit).Only Silent := by
  refine .bind (.perform trivial) fun _ => .bind trivial fun entry => ?_
  split
  · refine .bind (.perform trivial) fun _ => .bind trivial fun commit => ?_
    cases commit with
    | none => trivial
    | some commit => exact silent_carrierBlob commit name limit
  · trivial

theorem silent_checkFormat : storage.checkFormat.Only Silent := by
  refine .bind (silent_localRootFile _ _) fun _ => .bind trivial fun format =>
    .bind (silent_localRootFile _ _) fun head => ?_
  dsimp only
  split
  · exact .bind (.bind (silent_localRootFile _ _) fun _ => trivial) fun _ => trivial
  · trivial

theorem silent_localStoredHead : storage.localStoredHead.Only Silent :=
  .bind storage.silent_checkFormat fun _ => .bind (silent_localRootFile _ _) fun _ => trivial

theorem silent_localHead : storage.localHead.Only Silent := by
  refine .bind storage.silent_localStoredHead fun head => ?_
  cases head with
  | none => trivial
  | some head => exact .bind trivial fun _ => trivial

theorem silent_conflictingHead (tip : Option Commit) : (conflictingHead tip).Only Silent := by
  cases tip with
  | none => trivial
  | some commit =>
    refine .bind (Thread.Only.attempt
      (.bind (silent_carrierBlob _ _ _) fun _ => trivial)) fun head => ?_
    rcases head with e | (_ | head) <;> trivial

theorem silent_moved (expected : Option Text) (tip : Option Commit) :
    (moved expected tip).Only Silent :=
  .bind (silent_conflictingHead tip) fun _ => trivial

theorem silent_writeWork (name : Text) (content : Bytes) :
    (writeWork name content).Only Silent := .bind (.perform trivial) fun _ => trivial

theorem silent_removeFiles (names : List Text) : (removeFiles names).Only Silent := by
  induction names with
  | nil => trivial
  | cons name names ih => exact .bind (.perform trivial) fun _ => .bind trivial fun _ => ih

theorem silent_resetBranch (base : Option Commit) : (resetBranch base).Only Silent := by
  cases base with
  | some commit => exact .bind (.perform trivial) fun _ => trivial
  | none =>
    refine .bind (.perform trivial) fun _ => .bind trivial fun head => ?_
    split
    · exact .bind (.perform trivial) fun _ => trivial
    · trivial

theorem silent_removeHead : removeHead.Only Silent := by
  refine .bind (.perform trivial) fun removed => ?_
  rcases removed with (_ | _ | _) | _ <;> trivial

/-- Undoing a commit happens in the checkout alone. -/
theorem silent_restoreCheckout (base : Option Commit) : (restoreCheckout base).Only Silent :=
  .bind (silent_resetBranch base) fun _ => .bind (.perform trivial) fun _ =>
    .bind trivial fun _ => .bind silent_removeHead fun _ => .bind (.perform trivial) fun _ =>
      .bind trivial silent_removeFiles

end GitStorage

end

/-! ## What a fetch shows -/

namespace Carrier

variable {ι : Type} {i : ι}

/-- Somewhere between `w` and `w'` the branch was at `tip`, and a tip that is there was
fetched at that point. -/
def Observed (i : ι) (tip : Option Commit) (w w' : Carrier ι) : Prop :=
  ∃ at_ before after, Watched i before w at_ ∧ at_.remote = tip ∧ Watched i after at_ w'
    ∧ (tip.isSome → ∃ rest, after = .fetched i :: rest)

theorem Observed.watched {tip : Option Commit} {w w' : Carrier ι} (h : Observed i tip w w') :
    ∃ events, Watched i events w w' := by
  obtain ⟨at_, before, after, hbefore, -, hafter, -⟩ := h
  exact ⟨_, hbefore.trans hafter⟩

/-- Whatever was watched before does not matter. -/
theorem Observed.cons {tip : Option Commit} {events : List (CarrierEvent ι)} {w w' w'' : Carrier ι}
    (hw : Watched i events w w') (h : Observed i tip w' w'') : Observed i tip w w'' := by
  obtain ⟨at_, before, after, hbefore, hat, hafter, hfetched⟩ := h
  exact ⟨at_, _, after, hw.trans hbefore, hat, hafter, hfetched⟩

/-- Nor does what was watched afterwards. -/
theorem Observed.snoc {tip : Option Commit} {events : List (CarrierEvent ι)} {w w' w'' : Carrier ι}
    (h : Observed i tip w w') (hw : Watched i events w' w'') : Observed i tip w w'' := by
  obtain ⟨at_, before, after, hbefore, hat, hafter, hfetched⟩ := h
  refine ⟨at_, before, _, hbefore, hat, hafter.trans hw, fun htip => ?_⟩
  obtain ⟨rest, hrest⟩ := hfetched htip
  exact ⟨rest ++ events, by rw [hrest]; rfl⟩

variable [DecidableEq ι]

/-- A fetch that is reported done left the branch, as it was, in the cache. -/
theorem performFetch_ok {outcome : CarrierOutcome} {w w' : Carrier ι}
    (h : w.performFetch i outcome = (.ok (), w')) :
    ∃ tip, w.remote = some tip ∧ (w'.checkouts i).cached = some tip
      ∧ Watched i [.fetched i] w w' := by
  unfold performFetch at h
  dsimp only at h
  split at h
  · cases h
  · rename_i tip hremote _
    cases h
    refine ⟨tip, hremote, ?_, .still rfl rfl (by simp)⟩
    simp only [modify, record, Function.update_self]
  · cases h

/-- The answer of a fetch was the branch at some point. -/
theorem runs_fetchCarrierBranch {w w' : Carrier ι} {tip : Option Commit}
    (h : Runs platform (Others i) i CarrierCache.fetchCarrierBranch w (.ok (.ok tip)) w') :
    Observed i tip w w' := by
  obtain ⟨before, choice, reply, after, hothers, hperform, hrest⟩ := Runs.perform_bind_cases h
  have hsilent := (CarrierCache.silent_fetchCarrierBranch.2 reply)
  obtain ⟨before', hbefore⟩ := others_watched hothers
  rcases reply with (fault | stderr) | _
  · cases (Runs.done_cases hrest).1
  · -- the fetch failed: the branch is absent, or nothing is known
    obtain ⟨events, hfetch⟩ := perform_watched (show Silent .fetch from trivial) hperform
    obtain ⟨at_, choice', present, asked, hothers', hperform', hrest⟩ :=
      Runs.perform_bind_cases hrest
    obtain ⟨events', hothers'⟩ := others_watched hothers'
    obtain ⟨hasked, hpresent⟩ := query_cases hperform'
    obtain ⟨rest, hrest'⟩ := runs_silent (hsilent.2 present) hrest
    rcases present with failure | (_ | _)
    · cases (Runs.done_cases hrest).1
    · have hnone : at_.remote = none := by
        have := hpresent false rfl
        simpa using this.symm
      obtain ⟨_, _, forgotten, _, -, -, hdone⟩ := Runs.perform_bind_cases hrest
      cases forgotten with
      | error failure =>
        cases (Runs.done_cases hdone).1
      | ok _ =>
        obtain ⟨hresult, -⟩ := Runs.done_cases hdone
        cases hresult
        subst hasked
        exact ⟨asked, _, _, (hbefore.trans hfetch).trans hothers', hnone, hrest',
          fun h => by cases h⟩
    · cases (Runs.done_cases hrest).1
  · -- the fetch succeeded: the cache has the branch as it was then
    obtain ⟨found, hremote, hcached, hfetch⟩ :=
      performFetch_ok (show before.performFetch i choice = _ from Option.some.inj hperform)
    obtain ⟨events, hafter⟩ := runs_silent hsilent hrest
    obtain ⟨read, choice', cached, asked, hothers', hperform', hdone⟩ :=
      Runs.perform_bind_cases hrest
    obtain ⟨-, hcached'⟩ := query_cases hperform'
    cases cached with
    | error failure =>
      cases (Runs.done_cases hdone).1
    | ok cached =>
      obtain ⟨hresult, -⟩ := Runs.done_cases hdone
      cases hresult
      have hfound : tip = some found := by
        rw [hcached' tip rfl, others_checkout hothers', hcached]
      exact ⟨before, _, _, hbefore, hremote.trans hfound.symm, hfetch.trans hafter,
        fun _ => ⟨events, rfl⟩⟩

/-- **What a refresh returns is where the branch was at some point of it.** -/
theorem runs_refresh {w w' : Carrier ι} {tip : Option Commit}
    (h : Runs platform (Others i) i CarrierCache.refresh w (.ok tip) w') :
    Observed i tip w w' := by
  obtain ⟨_, _, ready, w₁, hothers, hperform, hrest⟩ := Runs.perform_bind_cases h
  obtain ⟨e₀, hothers⟩ := others_watched hothers
  obtain ⟨e₁, hready⟩ := perform_watched (show Silent .initializeCache from trivial) hperform
  obtain ⟨_, w₂, hchecked, hrest⟩ := Runs.bind_ok hrest
  obtain ⟨e₂, hchecked⟩ := runs_silent (silent_orFail _ _) hchecked
  refine (?_ : Observed i tip w₂ w').cons ((hothers.trans hready).trans hchecked)
  obtain ⟨fetched, w₃, hfetch, hrest⟩ := Runs.bind_ok hrest
  rcases fetched with (error | error) | found
  · cases (Runs.done_cases hrest).1
  · -- the cache is corrupt and rebuilt, and the second fetch counts
    obtain ⟨e₃, hfetch⟩ := runs_silent CarrierCache.silent_fetchCarrierBranch hfetch
    obtain ⟨corrupt, w₄, hcorrupt, hrest⟩ := Runs.bind_ok hrest
    obtain ⟨e₄, hcorrupt⟩ := runs_silent CarrierCache.silent_isCorrupt hcorrupt
    refine (?_ : Observed i tip w₄ w').cons (hfetch.trans hcorrupt)
    cases corrupt with
    | false => cases (Runs.done_cases hrest).1
    | true =>
      obtain ⟨_, w₅, hrebuilt, hrest⟩ := Runs.bind_ok hrest
      obtain ⟨e₅, hrebuilt⟩ := runs_silent CarrierCache.silent_rebuild hrebuilt
      refine (?_ : Observed i tip w₅ w').cons hrebuilt
      obtain ⟨again, w₆, hagain, hrest⟩ := Runs.bind_ok hrest
      cases again with
      | error error => cases (Runs.done_cases hrest).1
      | ok found =>
        obtain ⟨hresult, hend⟩ := Runs.done_cases hrest
        cases hresult
        obtain ⟨e₆, hend⟩ := others_watched hend
        exact (runs_fetchCarrierBranch hagain).snoc hend
  · obtain ⟨hresult, hend⟩ := Runs.done_cases hrest
    cases hresult
    obtain ⟨e₃, hend⟩ := others_watched hend
    exact (runs_fetchCarrierBranch hfetch).snoc hend

end Carrier

end GitE2EE

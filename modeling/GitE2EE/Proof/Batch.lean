import GitE2EE.Model.LocalGit
import GitE2EE.Proof.Books
import GitE2EE.Proof.Counters

/-!
# What a batch does to the refs

Every change of a batch is judged on its own: against the parent's refs and the local
repository, whatever the other changes are. Only a destination that came up before is
refused for that. So the refs after a batch are the parent's with the judgements of the
first change of each ref written over them, and the order of a batch whose destinations
differ does not matter.
-/

namespace GitE2EE

open Wire Effect

variable (git : GitTool) (parentRefs : RefMap) (g : LocalRepository)

/-! ## One change -/

/-- What preflight makes of a change. -/
def judge (push : RefPush) : Result (Option Text) :=
  (preflightRefChange (localGit git) parentRefs push g).1

/-- The error for a destination that came up before. -/
def repeatedError (push : RefPush) : Error :=
  .msg s!"{render push.destination} appears more than once in one push"

/-- What becomes of a change after others. -/
def verdict (earlier : List Text) (push : RefPush) : Result (Option Text) :=
  if push.destination ∈ earlier then .error (repeatedError push) else judge git parentRefs g push

def outcomeOf : Result (Option Text) → RefOutcome
  | .ok _ => .accepted
  | .error error => .rejected error

variable {git parentRefs g}

/-- The queries of preflight change nothing. -/
theorem looks_preflightRefChange (push : RefPush) :
    Looks (preflightRefChange (localGit git) parentRefs push) := by
  have hquery : ∀ {α : Type} (answer : LocalRepository → Result α),
      Looks (do let r ← Action.get; Action.lift (answer r) : Action Error LocalRepository α) :=
    fun answer => Looks.get.bind fun _ => .lift
  have hexists : ∀ object, Looks ((localGit git).objectExists object) :=
    fun object => Looks.get.bind fun _ => .pure
  refine Looks.lift.bind fun kind => ?_
  cases push.change with
  | delete => exact .lift
  | update source force =>
    refine (hquery _).bind fun next => .ite .pure (Looks.bind ?_ fun _ => .pure)
    cases kind with
    | tag => exact .ite .fail .pure
    | branch =>
      refine (hquery _).bind fun _ => ?_
      cases parentRefs.get? push.destination with
      | none => exact .pure
      | some old =>
        refine (hexists old).bind fun present => .ite .fail (.ite .pure ?_)
        exact (hquery _).bind fun ancestor => .ite .fail .pure

theorem preflightRefChange_eq (push : RefPush) :
    preflightRefChange (localGit git) parentRefs push g = (judge git parentRefs g push, g) :=
  (looks_preflightRefChange push).eq g

/-- **One change of a batch.** -/
theorem pushChange_eq (state : PushState) (push : RefPush) :
    pushChange (localGit git) parentRefs state push g
      = (.ok ({ state with destinations := push.destination :: state.destinations }.record
          parentRefs push.destination (verdict git parentRefs g state.destinations push)), g) := by
  have hchecked : (if push.destination ∈ state.destinations then
      Action.fail (.msg s!"{render push.destination} appears more than once in one push")
    else preflightRefChange (localGit git) parentRefs push) g
      = (verdict git parentRefs g state.destinations push, g) := by
    unfold verdict
    split
    · rfl
    · exact preflightRefChange_eq push
  unfold pushChange
  rw [Action.bind_of_ok (Action.attempt_apply _ _), hchecked]
  rfl

/-! ## The whole batch -/

/-- The refs after a batch, by the first change of each. -/
def settledRef (git : GitTool) (parentRefs : RefMap) (g : LocalRepository) (pushes : List RefPush)
    (name : Text) : Option Text :=
  match pushes.find? (·.destination = name) with
  | none => parentRefs.get? name
  | some push =>
    match judge git parentRefs g push with
    | .ok target => target
    | .error _ => parentRefs.get? name

/-- The tips a batch has to pack. -/
def packedRef (git : GitTool) (parentRefs : RefMap) (g : LocalRepository) (pushes : List RefPush)
    (name : Text) : Option Text :=
  match pushes.find? (·.destination = name) with
  | none => none
  | some push =>
    match judge git parentRefs g push with
    | .ok (some target) => if parentRefs.get? name = some target then none else some target
    | _ => none

/-- What the changes of a batch come to, one after another. -/
def outcomes (git : GitTool) (parentRefs : RefMap) (g : LocalRepository) :
    List Text → List RefPush → List RefOutcome
  | _, [] => []
  | earlier, push :: rest =>
    outcomeOf (verdict git parentRefs g earlier push)
      :: outcomes git parentRefs g (push.destination :: earlier) rest

theorem outcomes_getElem? {earlier : List Text} {pushes : List RefPush} {i : Nat} {push : RefPush}
    (h : pushes[i]? = some push) :
    (outcomes git parentRefs g earlier pushes)[i]?
      = some (outcomeOf (if push.destination ∈ earlier
          ∨ push.destination ∈ (pushes.take i).map RefPush.destination
        then .error (repeatedError push) else judge git parentRefs g push)) := by
  induction pushes generalizing earlier i with
  | nil => cases h
  | cons first rest ih =>
    cases i with
    | zero =>
      cases h
      simp [outcomes, verdict]
    | succ i =>
      rw [List.getElem?_cons_succ] at h
      rw [outcomes, List.getElem?_cons_succ, ih h]
      congr 3
      simp only [List.mem_cons, List.take_succ_cons, List.map_cons, eq_iff_iff]
      tauto

/-- The batch from some point on: what is settled stays, the rest goes by the first change. -/
structure Settles (git : GitTool) (parentRefs : RefMap) (g : LocalRepository) (state : PushState)
    (pushes : List RefPush) (batch : PushState) : Prop where
  refs : batch.refs = state.refs ++ outcomes git parentRefs g state.destinations pushes
  next : ∀ name, batch.nextRefs.get? name =
    if name ∈ state.destinations then state.nextRefs.get? name
    else settledRef git parentRefs g pushes name
  pack : ∀ name, batch.packRefs.get? name =
    if name ∈ state.destinations then state.packRefs.get? name
    else packedRef git parentRefs g pushes name

/-- A state in which nothing but the settled refs differs from the parent's. -/
structure Pending (parentRefs : RefMap) (state : PushState) : Prop where
  next : ∀ name, name ∉ state.destinations → state.nextRefs.get? name = parentRefs.get? name
  pack : ∀ name, name ∉ state.destinations → state.packRefs.get? name = none

section

variable {state : PushState} {push : RefPush}

/-- The state after one change. -/
def after (git : GitTool) (parentRefs : RefMap) (g : LocalRepository) (state : PushState)
    (push : RefPush) : PushState :=
  { state with destinations := push.destination :: state.destinations }.record parentRefs
    push.destination (verdict git parentRefs g state.destinations push)

theorem after_destinations :
    (after git parentRefs g state push).destinations = push.destination :: state.destinations := by
  unfold after
  cases verdict git parentRefs g state.destinations push with
  | error e => rfl
  | ok target => cases target <;> rfl

theorem after_refs :
    (after git parentRefs g state push).refs
      = state.refs ++ [outcomeOf (verdict git parentRefs g state.destinations push)] := by
  unfold after
  cases verdict git parentRefs g state.destinations push with
  | error e => rfl
  | ok target => cases target <;> rfl

/-- A change leaves the other refs alone. -/
theorem after_other {name : Text} (h : name ≠ push.destination) :
    (after git parentRefs g state push).nextRefs.get? name = state.nextRefs.get? name
      ∧ (after git parentRefs g state push).packRefs.get? name = state.packRefs.get? name := by
  unfold after
  cases verdict git parentRefs g state.destinations push with
  | error e => exact ⟨rfl, rfl⟩
  | ok target =>
    cases target with
    | none => exact ⟨by rw [PushState.record, SortedMap.get?_erase, if_neg h], rfl⟩
    | some target =>
      refine ⟨by rw [PushState.record, SortedMap.get?_insert, if_neg h], ?_⟩
      unfold PushState.record
      dsimp only
      split
      · rw [SortedMap.get?_insert, if_neg h]
      · rfl

/-- The first change of a ref settles it. -/
theorem after_first (hpending : Pending parentRefs state)
    (h : push.destination ∉ state.destinations)
    (rest : List RefPush) :
    (after git parentRefs g state push).nextRefs.get? push.destination
        = settledRef git parentRefs g (push :: rest) push.destination
      ∧ (after git parentRefs g state push).packRefs.get? push.destination
        = packedRef git parentRefs g (push :: rest) push.destination := by
  have hfind : (push :: rest).find? (·.destination = push.destination) = some push :=
    List.find?_cons_of_pos (by simp)
  simp only [after, settledRef, packedRef, hfind, verdict, if_neg h]
  have hnext := hpending.next push.destination h
  have hpack := hpending.pack push.destination h
  cases judge git parentRefs g push with
  | error e => exact ⟨hnext, hpack⟩
  | ok target =>
    cases target with
    | none => exact ⟨by rw [PushState.record, SortedMap.get?_erase, if_pos rfl], hpack⟩
    | some target =>
      refine ⟨by rw [PushState.record, SortedMap.get?_insert, if_pos rfl], ?_⟩
      unfold PushState.record
      dsimp only
      by_cases hsame : parentRefs.get? push.destination = some target
      · rw [if_neg (not_not.mpr hsame), if_pos hsame]
        exact hpack
      · rw [if_pos hsame, if_neg hsame, SortedMap.get?_insert, if_pos rfl]

/-- A later change of a ref does nothing to it. -/
theorem after_again (h : push.destination ∈ state.destinations) :
    (after git parentRefs g state push).nextRefs = state.nextRefs
      ∧ (after git parentRefs g state push).packRefs = state.packRefs := by
  unfold after verdict
  rw [if_pos h]
  exact ⟨rfl, rfl⟩

end

/-- Behind the first change, the ref of another goes by the rest. -/
theorem settledRef_cons_ne {push : RefPush} {rest : List RefPush} {name : Text}
    (h : name ≠ push.destination) :
    settledRef git parentRefs g (push :: rest) name = settledRef git parentRefs g rest name
      ∧ packedRef git parentRefs g (push :: rest) name = packedRef git parentRefs g rest name := by
  have hfind : (push :: rest).find? (·.destination = name) = rest.find? (·.destination = name) :=
    List.find?_cons_of_neg (by simpa using Ne.symm h)
  simp only [settledRef, packedRef, hfind, and_self]

theorem Pending.after {state : PushState} (h : Pending parentRefs state) (push : RefPush) :
    Pending parentRefs (after git parentRefs g state push) := by
  refine ⟨fun name hname => ?_, fun name hname => ?_⟩
  · rw [after_destinations, List.mem_cons, not_or] at hname
    rw [(after_other hname.1).1]
    exact h.next name hname.2
  · rw [after_destinations, List.mem_cons, not_or] at hname
    rw [(after_other hname.1).2]
    exact h.pack name hname.2

/-- **A batch, from any point on.** -/
theorem pushChanges_settles {state : PushState} (hpending : Pending parentRefs state)
    (pushes : List RefPush) :
    ∃ batch, pushChanges (localGit git) parentRefs state pushes g = (.ok batch, g)
      ∧ Settles git parentRefs g state pushes batch := by
  induction pushes generalizing state with
  | nil =>
    refine ⟨state, rfl, (List.append_nil _).symm, fun name => ?_, fun name => ?_⟩
    · split
      · rfl
      · rename_i hname
        exact hpending.next name hname
    · split
      · rfl
      · rename_i hname
        exact hpending.pack name hname
  -- the first change of a destination settles it; a later one is refused and changes nothing
  | cons push rest ih =>
    have hnext : Pending parentRefs (after git parentRefs g state push) := hpending.after push
    obtain ⟨batch, hbatch, hs⟩ := ih hnext
    refine ⟨batch, ?_, ?_, fun name => ?_, fun name => ?_⟩
    · unfold pushChanges
      rw [Action.bind_of_ok (pushChange_eq state push)]
      exact hbatch
    · rw [hs.refs, after_refs, after_destinations, List.append_assoc]
      rfl
    · rw [hs.next, after_destinations]
      by_cases hname : name = push.destination
      · subst hname
        rw [if_pos List.mem_cons_self]
        by_cases hsettled : push.destination ∈ state.destinations
        · rw [if_pos hsettled, (after_again hsettled).1]
        · rw [if_neg hsettled]
          exact (after_first hpending hsettled rest).1
      · simp only [List.mem_cons, hname, false_or, (after_other hname).1,
          (settledRef_cons_ne hname).1]
    · rw [hs.pack, after_destinations]
      by_cases hname : name = push.destination
      · subst hname
        rw [if_pos List.mem_cons_self]
        by_cases hsettled : push.destination ∈ state.destinations
        · rw [if_pos hsettled, (after_again hsettled).2]
        · rw [if_neg hsettled]
          exact (after_first hpending hsettled rest).2
      · simp only [List.mem_cons, hname, false_or, (after_other hname).2,
          (settledRef_cons_ne hname).2]

/-! ## What preflight allows -/

section

variable {push : RefPush} {target : Option Text}

/-- The old tip of a branch has to be there, and to be an ancestor unless the push is forced. -/
theorem checkBranchUpdate_ok {destination old next : Text} {force : Bool} {g' : LocalRepository}
    (h : checkBranchUpdate (localGit git) destination old next force g = (.ok (), g')) :
    g.objects.exists old = true
      ∧ (force = false → git.isAncestor g.objects g.shallow old next = some true) := by
  obtain ⟨present, g₁, hpresent, h⟩ := Action.bind_eq_ok.mp h
  replace hpresent : (Except.ok (g.objects.exists old), g) = (.ok present, g₁) := hpresent
  cases hpresent
  split at h
  · cases h
  rename_i hexists
  refine ⟨by simpa using hexists, fun hforce => ?_⟩
  rw [if_neg (by simp [hforce])] at h
  obtain ⟨ancestor, g₂, hancestor, h⟩ := Action.bind_eq_ok.mp h
  replace hancestor : (orBail (git.isAncestor g.objects g.shallow old next) "git merge-base failed",
    g) = (.ok ancestor, g₂) := hancestor
  have hanswer := orBail_eq_ok.mp (Prod.mk.inj hancestor).1
  split at h
  · cases h
  · rename_i hyes
    rw [hanswer]
    simpa using hyes

/-- **What an accepted change is**: a deletion of a ref that is there and is not the default
branch, or an update that the kind of the ref allows. -/
theorem judge_ok (h : judge git parentRefs g push = .ok target) :
    (push.change = .delete ∧ target = none ∧ parentRefs.get? push.destination ≠ none
      ∧ push.destination ≠ text "refs/heads/main")
    ∨ ∃ source force next kind, push.change = .update source force ∧ target = some next
      ∧ g.names source = .ok next ∧ InnerRefKind.of push.destination = .ok kind
      ∧ (parentRefs.get? push.destination = some next ∨
        match kind with
        | .branch => g.objects.ensureBranchTarget push.destination next = .ok ()
          ∧ ∀ old, parentRefs.get? push.destination = some old → g.objects.exists old = true
            ∧ (force = false → git.isAncestor g.objects g.shallow old next = some true)
        | .tag => parentRefs.get? push.destination = none ∨ force = true) := by
  replace h : preflightRefChange (localGit git) parentRefs push g = (.ok target, g) := by
    rw [preflightRefChange_eq, h]
  obtain ⟨kind, g₁, hkind, h⟩ := Action.bind_eq_ok.mp h
  obtain ⟨hvalid, rfl⟩ := Action.lift_eq_ok.mp hkind
  obtain ⟨kind', hof, hvalid⟩ := except_bind_eq_ok.mp hvalid
  obtain ⟨⟨⟩, -, hvalid⟩ := except_bind_eq_ok.mp hvalid
  cases hvalid
  cases hchange : push.change with
  | delete =>
    simp only [hchange] at h
    obtain ⟨hr, -⟩ := Action.lift_eq_ok.mp h
    simp only [except_bind_eq_ok, bailIf_eq_ok] at hr
    obtain ⟨⟨⟩, hpresent, ⟨⟩, hmain, hr⟩ := hr
    cases hr
    exact .inl ⟨rfl, rfl, hpresent, hmain⟩
  | update source force =>
    simp only [hchange] at h
    obtain ⟨next, g₂, hresolve, h⟩ := Action.bind_eq_ok.mp h
    replace hresolve : (g.names source, g) = (.ok next, g₂) := hresolve
    obtain ⟨hnames, rfl⟩ := Prod.mk.inj hresolve
    -- an update to the tip the ref already has skips the rule of its kind
    right
    split at h
    · rename_i hsame
      cases h
      exact ⟨source, force, next, kind, rfl, rfl, hnames, hof, .inl hsame⟩
    · obtain ⟨⟨⟩, g₃, hcheck, h⟩ := Action.bind_eq_ok.mp h
      cases h
      refine ⟨source, force, next, kind, rfl, rfl, hnames, hof, .inr ?_⟩
      cases kind with
      | tag =>
        simp only [checkUpdate] at hcheck
        split at hcheck
        · cases hcheck
        · rename_i hallowed
          cases hold : parentRefs.get? push.destination with
          | none => exact .inl rfl
          | some old =>
            right
            cases force with
            | true => rfl
            | false => exact absurd ⟨by rw [hold]; rfl, rfl⟩ hallowed
      | branch =>
        obtain ⟨⟨⟩, g₄, hbranch, hcheck⟩ := Action.bind_eq_ok.mp hcheck
        replace hbranch : (g.objects.ensureBranchTarget push.destination next, g) = (.ok (), g₄) :=
          hbranch
        obtain ⟨hresolves, rfl⟩ := Prod.mk.inj hbranch
        refine ⟨hresolves, fun old hold => ?_⟩
        simp only [hold] at hcheck
        exact checkBranchUpdate_ok hcheck

/-- An accepted update leaves the ref where it is, or keeps the rule of the ref's kind. -/
theorem judge_update {source next : Text} {force : Bool}
    (h : judge git parentRefs g push = .ok (some next))
    (hchange : push.change = .update source force) :
    (InnerRefKind.of push.destination = .ok .branch →
      parentRefs.get? push.destination = some next ∨
        ∀ old, parentRefs.get? push.destination = some old → force = false →
          git.isAncestor g.objects g.shallow old next = some true)
    ∧ (InnerRefKind.of push.destination = .ok .tag →
      parentRefs.get? push.destination = some next
        ∨ parentRefs.get? push.destination = none ∨ force = true) := by
  rcases judge_ok h with ⟨hdelete, -⟩ | ⟨_, _, _, kind, hupdate, htarget, -, hof, hcase⟩
  · rw [hchange] at hdelete
    cases hdelete
  · rw [hchange] at hupdate
    cases hupdate
    cases htarget
    constructor
    · intro hkind
      rw [hkind] at hof
      cases hof
      exact hcase.imp_right fun hbranch old hold => (hbranch.2 old hold).2
    · intro hkind
      rw [hkind] at hof
      cases hof
      exact hcase

/-- Without force, a branch moves to a descendant. -/
theorem judge_branch {source next old : Text} (hchange : push.change = .update source false)
    (h : judge git parentRefs g push = .ok (some next))
    (hkind : InnerRefKind.of push.destination = .ok .branch)
    (hold : parentRefs.get? push.destination = some old) :
    next = old ∨ g.objects.Descends old next := by
  rcases (judge_update h hchange).1 hkind with hsame | hancestor
  · rw [hold] at hsame
    cases hsame
    exact .inl rfl
  · exact .inr (git.isAncestor_sound (hancestor old hold rfl))

/-- Without force, a tag does not move. -/
theorem judge_tag {source next old : Text} (hchange : push.change = .update source false)
    (h : judge git parentRefs g push = .ok (some next))
    (hkind : InnerRefKind.of push.destination = .ok .tag)
    (hold : parentRefs.get? push.destination = some old) : next = old := by
  rcases (judge_update h hchange).2 hkind with hsame | hfree | hforce
  · rw [hold] at hsame
    cases hsame
    rfl
  · rw [hold] at hfree
    cases hfree
  · cases hforce

end

/-- The tips to pack are the refs that a batch gave a new target. -/
theorem packedRef_iff {pushes : List RefPush} {name target : Text} :
    packedRef git parentRefs g pushes name = some target ↔
      settledRef git parentRefs g pushes name = some target
        ∧ parentRefs.get? name ≠ some target := by
  unfold packedRef settledRef
  cases pushes.find? (·.destination = name) with
  | none => exact ⟨fun h => (by cases h), fun h => absurd h.1 h.2⟩
  | some push =>
    dsimp only
    cases judge git parentRefs g push with
    | error e => exact ⟨fun h => (by cases h), fun h => absurd h.1 h.2⟩
    | ok found =>
      cases found with
      | none => exact ⟨fun h => (by cases h), fun h => (by cases h.1)⟩
      | some next =>
        dsimp only
        by_cases hsame : parentRefs.get? name = some next
        · rw [if_pos hsame]
          refine ⟨fun h => (by cases h), ?_⟩
          rintro ⟨⟨⟩, h⟩
          exact absurd hsame h
        · rw [if_neg hsame]
          refine ⟨?_, And.left⟩
          rintro ⟨⟩
          exact ⟨rfl, hsame⟩

/-- No batch removes the default branch. -/
theorem settledRef_main {pushes : List RefPush}
    (hmain : parentRefs.get? (text "refs/heads/main") ≠ none) :
    settledRef git parentRefs g pushes (text "refs/heads/main") ≠ none := by
  rw [settledRef]
  cases hfind : pushes.find? (·.destination = text "refs/heads/main") with
  | none => exact hmain
  | some push =>
    dsimp only
    have hdest : push.destination = text "refs/heads/main" := by
      simpa using List.find?_some hfind
    cases hjudge : judge git parentRefs g push with
    | error e => exact hmain
    | ok found =>
      rcases judge_ok hjudge with ⟨-, -, -, hne⟩ | ⟨_, _, next, _, -, rfl, -⟩
      · exact absurd hdest hne
      · exact Option.some_ne_none next

/-- A batch of deletions has nothing to pack. -/
theorem packedRef_deletions {pushes : List RefPush}
    (hdelete : ∀ push ∈ pushes, push.change = .delete) (name : Text) :
    packedRef git parentRefs g pushes name = none := by
  rw [packedRef]
  cases hfind : pushes.find? (·.destination = name) with
  | none => rfl
  | some push =>
    dsimp only
    cases hjudge : judge git parentRefs g push with
    | error e => rfl
    | ok found =>
      rcases judge_ok hjudge with ⟨-, rfl, -⟩ | ⟨source, force, _, _, hupdate, -⟩
      · rfl
      · rw [hdelete push (List.mem_of_find?_eq_some hfind)] at hupdate
        cases hupdate

/-- What the account of a batch says. -/
structure BatchSemantics (git : GitTool) (parentRefs : RefMap) (g : LocalRepository)
    (pushes : List RefPush) (batch : PushState) : Prop where
  /-- A change is refused for coming up again, and otherwise judged on its own. -/
  outcome : ∀ i push, pushes[i]? = some push → batch.refs[i]?
    = some (outcomeOf (if push.destination ∈ (pushes.take i).map RefPush.destination
        then .error (repeatedError push) else judge git parentRefs g push))
  next : ∀ name, batch.nextRefs.get? name = settledRef git parentRefs g pushes name
  pack : ∀ name target, batch.packRefs.get? name = some target ↔
    batch.nextRefs.get? name = some target ∧ parentRefs.get? name ≠ some target
  /-- Without force, a branch moves to a descendant. -/
  branches : ∀ push source target old, push.change = .update source false →
    judge git parentRefs g push = .ok (some target) →
    InnerRefKind.of push.destination = .ok .branch →
    parentRefs.get? push.destination = some old → target = old ∨ g.objects.Descends old target
  /-- Without force, a tag does not move. -/
  tags : ∀ push source target old, push.change = .update source false →
    judge git parentRefs g push = .ok (some target) →
    InnerRefKind.of push.destination = .ok .tag →
    parentRefs.get? push.destination = some old → target = old
  main : parentRefs.get? (text "refs/heads/main") ≠ none →
    batch.nextRefs.get? (text "refs/heads/main") ≠ none
  deletions : (∀ push ∈ pushes, push.change = .delete) → batch.packRefs = .empty

/-- The batch of a push. -/
theorem Settles.semantics {pushes : List RefPush} {batch : PushState}
    (h : Settles git parentRefs g ⟨[], parentRefs, .empty, []⟩ pushes batch) :
    BatchSemantics git parentRefs g pushes batch := by
  have hnext : ∀ name, batch.nextRefs.get? name = settledRef git parentRefs g pushes name :=
    fun name => (h.next name).trans (if_neg List.not_mem_nil)
  have hpack : ∀ name, batch.packRefs.get? name = packedRef git parentRefs g pushes name :=
    fun name => (h.pack name).trans (if_neg List.not_mem_nil)
  refine ⟨fun i push hpush => ?_, hnext, fun name target => ?_,
    fun _ _ _ _ hchange hjudge hkind hold => judge_branch hchange hjudge hkind hold,
    fun _ _ _ _ hchange hjudge hkind hold => judge_tag hchange hjudge hkind hold,
    fun hmain => ?_, fun hdelete => ?_⟩
  · rw [h.refs, List.nil_append, outcomes_getElem? hpush]
    simp only [List.not_mem_nil, false_or]
  · rw [hnext, hpack]
    exact packedRef_iff
  · rw [hnext]
    exact settledRef_main hmain
  · refine SortedMap.ext_get? fun name => ?_
    rw [hpack, SortedMap.get?_empty, packedRef_deletions hdelete]

/-! ## The order of a batch -/

/-- Where no destination comes up twice, the change of a ref is the one that names it. -/
theorem find?_destination_iff {pushes : List RefPush}
    (h : (pushes.map RefPush.destination).Nodup) {name : Text} {push : RefPush} :
    pushes.find? (·.destination = name) = some push ↔ push ∈ pushes ∧ push.destination = name := by
  induction pushes with
  | nil => simp
  | cons first rest ih =>
    rw [List.map_cons, List.nodup_cons] at h
    by_cases hfirst : first.destination = name
    · rw [List.find?_cons_of_pos (by simpa using hfirst)]
      constructor
      · rintro ⟨⟩
        exact ⟨List.mem_cons_self, hfirst⟩
      · rintro ⟨hmem, hname⟩
        rcases List.mem_cons.mp hmem with rfl | hrest
        · rfl
        · -- a later change of the same ref would repeat its destination
          refine absurd ?_ h.1
          rw [hfirst, ← hname]
          exact List.mem_map_of_mem hrest
    · rw [List.find?_cons_of_neg (by simpa using hfirst), ih h.2]
      constructor
      · rintro ⟨hmem, hname⟩
        exact ⟨List.mem_cons_of_mem _ hmem, hname⟩
      · rintro ⟨hmem, hname⟩
        rcases List.mem_cons.mp hmem with rfl | hrest
        · exact absurd hname hfirst
        · exact ⟨hrest, hname⟩

theorem find?_destination_perm {pushes pushes' : List RefPush} (hperm : pushes.Perm pushes')
    (h : (pushes.map RefPush.destination).Nodup) (name : Text) :
    pushes.find? (·.destination = name) = pushes'.find? (·.destination = name) := by
  have h' : (pushes'.map RefPush.destination).Nodup := (hperm.map _).nodup_iff.mp h
  refine Option.ext fun push => ?_
  rw [find?_destination_iff h, find?_destination_iff h', hperm.mem_iff]

/-- Without a repetition, every change stands by its own judgement. -/
theorem outcomes_eq_map {earlier : List Text} {pushes : List RefPush}
    (h : (pushes.map RefPush.destination).Nodup)
    (hfresh : ∀ push ∈ pushes, push.destination ∉ earlier) :
    outcomes git parentRefs g earlier pushes
      = pushes.map fun push => outcomeOf (judge git parentRefs g push) := by
  induction pushes generalizing earlier with
  | nil => rfl
  | cons first rest ih =>
    rw [List.map_cons, List.nodup_cons] at h
    rw [outcomes, verdict, if_neg (hfresh first List.mem_cons_self), List.map_cons, ih h.2]
    intro push hpush hmem
    rcases List.mem_cons.mp hmem with hsame | hearlier
    · exact h.1 (hsame ▸ List.mem_map_of_mem hpush)
    · exact hfresh push (List.mem_cons_of_mem _ hpush) hearlier

/-- **The order does not matter** where no destination comes up twice. -/
theorem Settles.perm {pushes pushes' : List RefPush} {batch batch' : PushState}
    (h : Settles git parentRefs g ⟨[], parentRefs, .empty, []⟩ pushes batch)
    (h' : Settles git parentRefs g ⟨[], parentRefs, .empty, []⟩ pushes' batch')
    (hperm : pushes.Perm pushes') (hnodup : (pushes.map RefPush.destination).Nodup) :
    (pushes.zip batch.refs).Perm (pushes'.zip batch'.refs)
      ∧ batch.nextRefs = batch'.nextRefs ∧ batch.packRefs = batch'.packRefs := by
  have hnodup' : (pushes'.map RefPush.destination).Nodup := (hperm.map _).nodup_iff.mp hnodup
  refine ⟨?_, SortedMap.ext_get? fun name => ?_, SortedMap.ext_get? fun name => ?_⟩
  · rw [h.refs, h'.refs, List.nil_append, List.nil_append,
      outcomes_eq_map hnodup fun _ _ => List.not_mem_nil,
      outcomes_eq_map hnodup' fun _ _ => List.not_mem_nil, ← List.map_prod_left_eq_zip,
      ← List.map_prod_left_eq_zip]
    exact hperm.map _
  · rw [h.next, h'.next, if_neg List.not_mem_nil, if_neg List.not_mem_nil, settledRef, settledRef,
      find?_destination_perm hperm hnodup]
  · rw [h.pack, h'.pack, if_neg List.not_mem_nil, if_neg List.not_mem_nil, packedRef, packedRef,
      find?_destination_perm hperm hnodup]

/-! ## What a push publishes -/

section

variable {S : Type} {P : Primitives} {storage : Storage S} {key : KeyFile}

/-- The same checkout. -/
def SameGit {G : Type} (m m' : Machine S G) : Prop := m'.git = m.git

theorem SameGit.trans {G : Type} ⦃a b c : Machine S G⦄ (h : SameGit a b) (h' : SameGit b c) :
    SameGit a c := Eq.trans h' h

theorem sameGit_pinnedState {G : Type} :
    Keeps SameGit (pinnedState P storage key : Action Error (Machine S G) _) := by
  have hfloor : ∀ {α : Type} (x : Action Error FloorFile α),
      Keeps SameGit (onFloor x : Action Error (Machine S G) α) := fun _ _ => rfl
  have hstorage : ∀ {α : Type} (x : Action Error S α),
      Keeps SameGit (onStorage x : Action Error (Machine S G) α) := fun _ _ => rfl
  have hrefl : ∀ m : Machine S G, SameGit m m := fun _ => rfl
  refine Keeps.bind SameGit.trans ?_ fun chain => (Keeps.lift hrefl).bind SameGit.trans fun _ =>
    .pure hrefl
  refine (hfloor _).bind SameGit.trans fun floor => (hstorage _).bind SameGit.trans fun chain => ?_
  split
  · exact .pure hrefl
  · refine (hstorage _).bind SameGit.trans fun refreshed => ?_
    split
    · exact .fail hrefl
    · exact (hstorage _).bind SameGit.trans fun _ => (Keeps.lift hrefl).bind SameGit.trans fun _ =>
        .pure hrefl

/-- **Preflight** judges the batch against the head it pinned and the checkout as it is. -/
theorem preflight_settles {pushes : List RefPush} {checked : Preflight}
    {m m₁ : Machine S LocalRepository}
    (h : preflight P storage (localGit git) key pushes m = (.ok checked, m₁)) :
    m₁.git = m.git ∧ Settles git checked.current.manifest.refs m.git
      ⟨[], checked.current.manifest.refs, .empty, []⟩ pushes checked.batch := by
  obtain ⟨⟨⟩, m₂, hlock, h⟩ := Action.bind_eq_ok.mp h
  obtain ⟨⟨current, chain⟩, m₃, hpinned, h⟩ := Action.bind_eq_ok.mp h
  obtain ⟨⟨⟩, m₄, hwriter, h⟩ := Action.bind_eq_ok.mp h
  obtain ⟨⟨⟩, m₅, hrefs, h⟩ := Action.bind_eq_ok.mp h
  obtain ⟨batch, m₆, hbatch, h⟩ := Action.bind_eq_ok.mp h
  obtain ⟨rfl, rfl⟩ := Action.pure_eq_ok.mp h
  obtain ⟨-, rfl⟩ := Action.lift_eq_ok.mp hwriter
  obtain ⟨-, rfl⟩ := Action.lift_eq_ok.mp hrefs
  -- nothing before the batch is judged has touched the local repository
  have hgit : m₃.git = m.git := by
    have hsame : SameGit m₂ m₃ := by
      have hkeeps := (sameGit_pinnedState : Keeps SameGit (pinnedState P storage key)) m₂
      rw [hpinned] at hkeeps
      exact hkeeps
    unfold lockFloor at hlock
    obtain ⟨-, rfl⟩ := Action.zoom_eq hlock
    exact hsame
  have hpending : Pending current.manifest.refs ⟨[], current.manifest.refs, .empty, []⟩ :=
    ⟨fun _ _ => rfl, fun name _ => SortedMap.get?_empty name⟩
  obtain ⟨settled, hsettled, hs⟩ : ∃ settled, pushChanges (localGit git) current.manifest.refs
      ⟨[], current.manifest.refs, .empty, []⟩ pushes m₃.git = (.ok settled, m₃.git) ∧ _ :=
    pushChanges_settles hpending pushes
  obtain ⟨hsame, rfl⟩ := Action.zoom_eq hbatch
  rw [hsettled] at hsame
  obtain ⟨hok, -⟩ := Prod.mk.inj hsame
  cases hok
  refine ⟨?_, hgit ▸ hs⟩
  rw [hsettled]
  exact hgit

/-- The manifest a push puts on top of the head it was checked against. -/
structure Successor (checked : Preflight) (manifest : Manifest) : Prop where
  previous : manifest.previous = some checked.current.id
  generation : manifest.generation = checked.current.manifest.generation + 1
  refs : manifest.refs = checked.batch.nextRefs
  /-- One pack for the new tips, and none without. -/
  packs : manifest.newPacks.length = if checked.batch.packRefs = .empty then 0 else 1

theorem storePacks_length {G : Type} {repo : GitRepository G} {draws : Draws}
    {current : OpenedState} {generation : Nat} {packRefs : RefMap} {packs : List PackDescriptor}
    {m m' : Machine S G}
    (h : storePacks P storage repo draws current generation packRefs m = (.ok packs, m')) :
    packs.length = if packRefs = .empty then 0 else 1 := by
  unfold storePacks at h
  by_cases hempty : packRefs = .empty
  · subst hempty
    cases h
    rfl
  · have hne : ¬ packRefs.isEmpty = true := fun h => hempty (SortedMap.eq_empty_of_isEmpty h)
    rw [if_neg hne] at h
    obtain ⟨pack, m₁, -, h⟩ := Action.bind_eq_ok.mp h
    cases h
    rw [if_neg hempty]
    rfl

/-- What the storage took under the id of a successor: the successor, sealed under the key of
its generation. The last field rests on what the crates promise and on the types of the
manifest's fields. -/
structure StoredSuccessor (P : Primitives) (storage : Storage S) (draws : Draws)
    (checked : Preflight) (id : Text) (manifest : Manifest) (encrypted : Bytes)
    (opened : OpenedManifest) : Prop where
  named : id = objectId P encrypted
  stored : ∃ s s', storage.putObjectIfAbsent .manifest id encrypted s = (.ok (), s')
  opens : openManifest P encrypted draws.generationKey = .ok opened
  verifies : verifyManifest P opened checked.current.policy none draws.generationKey = .ok ()
  content : Lawful P → manifest.Encodable → opened.manifest = manifest

/-- A commit stores a successor of the parent, and swaps HEAD from the parent to it. -/
theorem commitRefs_successor {G : Type} {repo : GitRepository G} {draws : Draws}
    {checked : Preflight} {published : Text × Manifest} {m m' : Machine S G}
    (hpolicy : PolicyOk checked.current.policy)
    (h : commitRefs P storage repo key draws checked.current checked.batch.nextRefs
      checked.batch.packRefs m = (.ok published, m')) :
    Successor checked published.2
      ∧ (∃ encrypted opened, StoredSuccessor P storage draws checked published.1 published.2
        encrypted opened)
      ∧ ∃ s, storage.compareAndSwapHead (some checked.current.id) published.1 s
        = (.ok (), m'.storage) := by
  have hrun := commitRefs_run P storage repo key draws checked.current checked.batch.nextRefs
    checked.batch.packRefs m
  rw [h] at hrun
  cases hrun with
  | committed hprepares hmanifest =>
    cases hmanifest with
    | @committed id encrypted s s' hsealed hput hcheck hswap =>
      obtain ⟨packs, hpacks, hprepared⟩ := hprepares
      obtain ⟨hkept, hkey, -, hnext, hnew, hrefs, -, hprevious, -, wrap, hwrap, -⟩ :=
        prepareRefs_ok hprepared
      refine ⟨⟨hprevious, hnext, hrefs, by rw [hnew, storePacks_length hpacks]⟩, ?_, s, hswap⟩
      obtain ⟨hposition, parts, hparts, rfl, hid⟩ := sealNext_eq_ok.mp hsealed
      -- the sealer has opened what it stored, and checked its signature
      simp only [selfCheck, except_bind_eq_ok] at hcheck
      obtain ⟨opened, hopened, ⟨⟩, hverified, -⟩ := hcheck
      rw [prepareRefs_parentPolicy hprepared, hkept, hkey] at hverified
      rw [hkey] at hid hput hopened hparts
      refine ⟨_, opened, hid, ⟨_, _, hput⟩, hopened, hverified, fun hP hencodable => ?_⟩
      have hwhole := (hparts.framed hencodable.generation hencodable.previous).opens hP hencodable
        (hparts.content_encodable hencodable (hkept ▸ hpolicy))
        (positioned_of_successor (manifestSuccessor_ok hposition) hwrap)
      rw [hwhole] at hopened
      rw [← Except.ok.inj hopened]
      rfl

/-- Why a publication failed: a step of the commit did, or one of the books behind it. -/
inductive PublicationFails {G : Type} (P : Primitives) (storage : Storage S)
    (repo : GitRepository G) (key : KeyFile) (draws : Draws) (checked : Preflight)
    (m₁ : Machine S G) : Error → Prop where
  | uncommitted {e : Error} {m' : Machine S G} :
      CommitRun P storage repo key draws checked.current checked.batch.nextRefs
        checked.batch.packRefs m₁ (.error e) m' →
      PublicationFails P storage repo key draws checked m₁ e
  | floor {published : Text × Manifest} {e : Error} {m₂ m' : Machine S G} :
      CommitRun P storage repo key draws checked.current checked.batch.nextRefs
        checked.batch.packRefs m₁ (.ok published) m₂ →
      advanceFloor published.1 published.2 m₂ = (.error e, m') →
      PublicationFails P storage repo key draws checked m₁ e
  | progress {published : Text × Manifest} {e : Error} {m₂ m₃ : Machine S G} {g : G} :
      CommitRun P storage repo key draws checked.current checked.batch.nextRefs
        checked.batch.packRefs m₁ (.ok published) m₂ →
      advanceFloor published.1 published.2 m₂ = (.ok (), m₃) →
      recordPublication repo checked.current.manifest.refs checked.batch.nextRefs m₃.git
        = (.error e, g) →
      PublicationFails P storage repo key draws checked m₁ e

theorem publicationFails_of_books {G : Type} {repo : GitRepository G} {draws : Draws}
    {checked : Preflight} {published : Text × Manifest} {e : Error} {m₁ m₂ m' : Machine S G}
    (hcommit : commitRefs P storage repo key draws checked.current checked.batch.nextRefs
      checked.batch.packRefs m₁ = (.ok published, m₂))
    (hbooks : keepBooks repo checked.current.manifest.refs checked.batch.nextRefs published m₂
      = (.error e, m')) :
    PublicationFails P storage repo key draws checked m₁ e := by
  have hrun := commitRefs_run P storage repo key draws checked.current checked.batch.nextRefs
    checked.batch.packRefs m₁
  rw [hcommit] at hrun
  rw [keepBooks] at hbooks
  rcases Action.bind_cases (advanceFloor published.1 published.2) (fun _ => onGit
      (recordPublication repo checked.current.manifest.refs checked.batch.nextRefs)) m₂
    with ⟨⟨⟩, m₃, hfloor, heq⟩ | ⟨e', m₃, hfloor, heq⟩
  · rw [heq] at hbooks
    exact .progress hrun hfloor (Action.zoom_eq hbooks).1
  · rw [heq] at hbooks
    cases hbooks
    exact .floor hrun hfloor

/-- What a push does with a batch that passed preflight on the machine `m₁`. -/
structure BatchPublication {G : Type} (P : Primitives) (storage : Storage S)
    (repo : GitRepository G) (key : KeyFile) (draws : Draws) (mode : PushMode)
    (checked : Preflight) (m₁ : Machine S G) (result : Result (Accepted PushOutcome))
    (m' : Machine S G) : Prop where
  outcomes : ∀ accepted, result = .ok accepted → accepted.value.refs = checked.batch.refs
  /-- Nothing to publish: the storage is left alone and the head is the parent. -/
  idle : mode = .dryRun ∨ checked.batch.nextRefs = checked.current.manifest.refs →
    m'.storage = m₁.storage ∧ ∀ accepted, result = .ok accepted →
      accepted.value.publication = .ok checked.current.id
        ∧ accepted.chain = entriesOf checked.chain
  /-- Otherwise the batch is published as one successor, unless a step of that fails. -/
  successor : mode = .publish → checked.batch.nextRefs ≠ checked.current.manifest.refs →
    ∃ accepted, result = .ok accepted
      ∧ (∀ e, accepted.value.publication = .error e →
        PublicationFails P storage repo key draws checked m₁ e)
      ∧ ∀ id, accepted.value.publication = .ok id →
        ∃ manifest, accepted.chain = (id, manifest) :: entriesOf checked.chain
          ∧ Successor checked manifest
          ∧ (∃ encrypted opened, StoredSuccessor P storage draws checked id manifest encrypted
            opened)
          ∧ ∃ s, storage.compareAndSwapHead (some checked.current.id) id s = (.ok (), m'.storage)

theorem keepBooks_storage {G : Type} {repo : GitRepository G} {parentRefs nextRefs : RefMap}
    {published : Text × Manifest} {r : Result Unit} {m m' : Machine S G}
    (h : keepBooks repo parentRefs nextRefs published m = (r, m')) : m'.storage = m.storage := by
  have htrans : ∀ ⦃a b c : Machine S G⦄, b.storage = a.storage → c.storage = b.storage →
      c.storage = a.storage := fun _ _ _ h h' => h'.trans h
  have hkeeps : Keeps (fun m m' : Machine S G => m'.storage = m.storage)
      (keepBooks repo parentRefs nextRefs published) := by
    refine Keeps.bind htrans ?_ fun _ => ?_
    · exact fun _ => rfl
    · exact fun _ => rfl
  have hsame := hkeeps m
  rw [h] at hsame
  exact hsame

/-- The head that a batch is checked against has a policy that passed its checks. -/
theorem preflight_policyOk {G : Type} {repo : GitRepository G} {pushes : List RefPush}
    {checked : Preflight} {m m₁ : Machine S G}
    (h : preflight P storage repo key pushes m = (.ok checked, m₁)) :
    PolicyOk checked.current.policy := by
  obtain ⟨⟨⟩, m₂, -, h⟩ := Action.bind_eq_ok.mp h
  obtain ⟨⟨current, chain⟩, m₃, hpinned, h⟩ := Action.bind_eq_ok.mp h
  obtain ⟨⟨⟩, m₄, -, h⟩ := Action.bind_eq_ok.mp h
  obtain ⟨⟨⟩, m₅, -, h⟩ := Action.bind_eq_ok.mp h
  obtain ⟨batch, m₆, -, h⟩ := Action.bind_eq_ok.mp h
  obtain ⟨rfl, -⟩ := Action.pure_eq_ok.mp h
  obtain ⟨hhead, hchained⟩ := pinnedState_chained hpinned
  exact chained_policyOk hchained current (List.mem_of_head? hhead)

theorem push_publication {pushes : List RefPush} {mode : PushMode} {draws : Draws}
    {m m₁ : Machine S LocalRepository} {checked : Preflight}
    (h : preflight P storage (localGit git) key pushes m = (.ok checked, m₁)) :
    BatchPublication P storage (localGit git) key draws mode checked m₁
      (push P storage (localGit git) key pushes mode draws m).1
      (push P storage (localGit git) key pushes mode draws m).2 := by
  have hbusy : mode = .publish → checked.batch.nextRefs ≠ checked.current.manifest.refs →
      ¬ (mode = .dryRun ∨ checked.batch.nextRefs = checked.current.manifest.refs) := by
    rintro rfl hne (hdry | hsame)
    · cases hdry
    · exact hne hsame
  -- one case for each way a push can end; a failed preflight is excluded by the hypothesis
  have hrun : PushRun P storage (localGit git) key pushes mode draws m _ _ := push_run
  generalize (push P storage (localGit git) key pushes mode draws m).1 = result at hrun ⊢
  generalize (push P storage (localGit git) key pushes mode draws m).2 = m' at hrun ⊢
  cases hrun with
  | unchecked hfailed =>
    rw [h] at hfailed
    cases hfailed
  | idle hchecked hidle hadvance =>
    rw [h] at hchecked
    cases hchecked
    unfold advanceFloor at hadvance
    obtain ⟨-, rfl⟩ := Action.zoom_eq hadvance
    refine ⟨?_, fun _ => ⟨rfl, ?_⟩, fun hmode hne => ?_⟩
    · rintro _ ⟨⟩
      rfl
    · rintro _ ⟨⟩
      exact ⟨rfl, rfl⟩
    · rcases hidle with rfl | hsame
      · cases hmode
      · exact absurd hsame hne
  | idleFailed hchecked hidle hadvance =>
    rw [h] at hchecked
    cases hchecked
    unfold advanceFloor at hadvance
    obtain ⟨-, rfl⟩ := Action.zoom_eq hadvance
    refine ⟨fun _ h => (by cases h), fun _ => ⟨rfl, fun _ h => by cases h⟩, fun hmode hne => ?_⟩
    rcases hidle with rfl | hsame
    · cases hmode
    · exact absurd hsame hne
  | uncommitted hchecked hmode hne hcommit =>
    rw [h] at hchecked
    cases hchecked
    refine ⟨?_, fun hidle => absurd hidle (hbusy hmode hne), fun _ _ =>
      ⟨_, rfl, fun e he => ?_, fun id hid => by cases hid⟩⟩
    · rintro _ ⟨⟩
      rfl
    · cases he
      have hsteps := commitRefs_run P storage (localGit git) key draws checked.current
        checked.batch.nextRefs checked.batch.packRefs m₁
      rw [hcommit] at hsteps
      exact .uncommitted hsteps
  | unrecorded hchecked hmode hne hcommit hbooks =>
    rw [h] at hchecked
    cases hchecked
    refine ⟨?_, fun hidle => absurd hidle (hbusy hmode hne), fun _ _ =>
      ⟨_, rfl, fun e he => ?_, fun id hid => by cases hid⟩⟩
    · rintro _ ⟨⟩
      rfl
    · cases he
      exact publicationFails_of_books hcommit hbooks
  | published hchecked hmode hne hcommit hbooks =>
    rw [h] at hchecked
    cases hchecked
    refine ⟨?_, fun hidle => absurd hidle (hbusy hmode hne), fun _ _ =>
      ⟨_, rfl, fun e he => (by cases he), fun id hid => ?_⟩⟩
    · rintro _ ⟨⟩
      rfl
    · cases hid
      obtain ⟨hsuccessor, hstored, s, hswap⟩ := commitRefs_successor (preflight_policyOk h) hcommit
      rw [← keepBooks_storage hbooks] at hswap
      exact ⟨_, rfl, hsuccessor, hstored, s, hswap⟩

/-- What a batch comes to with this Git: on every ref map and repository, in every order,
and against every storage. -/
structure PushBatches (git : GitTool) : Prop where
  semantics : ∀ (parentRefs : RefMap) (g : LocalRepository) (pushes : List RefPush),
    ∃ batch, pushChanges (localGit git) parentRefs ⟨[], parentRefs, .empty, []⟩ pushes g
        = (.ok batch, g) ∧ BatchSemantics git parentRefs g pushes batch
  permuted : ∀ {parentRefs : RefMap} {g : LocalRepository} {pushes pushes' : List RefPush}
    {batch batch' : PushState}, pushes.Perm pushes' → (pushes.map RefPush.destination).Nodup →
    pushChanges (localGit git) parentRefs ⟨[], parentRefs, .empty, []⟩ pushes g = (.ok batch, g) →
    pushChanges (localGit git) parentRefs ⟨[], parentRefs, .empty, []⟩ pushes' g
      = (.ok batch', g) →
    (pushes.zip batch.refs).Perm (pushes'.zip batch'.refs)
      ∧ batch.nextRefs = batch'.nextRefs ∧ batch.packRefs = batch'.packRefs
  /-- A push judges its batch against the refs of the head it pinned and the checkout as it
  finds it, and publishes once if that changes a ref. -/
  published : ∀ {S : Type} (P : Primitives) (storage : Storage S) (key : KeyFile)
    (pushes : List RefPush) (mode : PushMode) (draws : Draws) (m : Machine S LocalRepository),
    match preflight P storage (localGit git) key pushes m with
    | (.error e, m₁) => push P storage (localGit git) key pushes mode draws m = (.error e, m₁)
    | (.ok checked, m₁) =>
      BatchSemantics git checked.current.manifest.refs m.git pushes checked.batch
        ∧ BatchPublication P storage (localGit git) key draws mode checked m₁
          (push P storage (localGit git) key pushes mode draws m).1
          (push P storage (localGit git) key pushes mode draws m).2

/-- **A batch of ref changes**, whatever Git's own commands answer within their contract. -/
theorem push_batches (git : GitTool) : PushBatches git := by
  have hstart : ∀ parentRefs : RefMap, Pending parentRefs ⟨[], parentRefs, .empty, []⟩ :=
    fun _ => ⟨fun _ _ => rfl, fun name _ => SortedMap.get?_empty name⟩
  refine ⟨fun parentRefs g pushes => ?_, ?_, fun {S} P storage key pushes mode draws m => ?_⟩
  · obtain ⟨batch, hbatch, hs⟩ := pushChanges_settles (hstart parentRefs) pushes
    exact ⟨batch, hbatch, hs.semantics⟩
  · intro parentRefs g pushes pushes' batch batch' hperm hnodup hbatch hbatch'
    obtain ⟨settled, hsettled, hs⟩ := pushChanges_settles (hstart parentRefs) pushes
    obtain ⟨settled', hsettled', hs'⟩ := pushChanges_settles (hstart parentRefs) pushes'
    cases hsettled.symm.trans hbatch
    cases hsettled'.symm.trans hbatch'
    exact hs.perm hs' hperm hnodup
  · split
    · rename_i e m₁ hfailed
      rw [push_eq, Action.bind_of_error hfailed]
    · rename_i checked m₁ hchecked
      exact ⟨(preflight_settles hchecked).2.semantics, push_publication hchecked⟩

end

/-- The deletion of a tag passes preflight, and is published as one successor, which opens. -/
theorem push_batches_deletion : ∃ d checked m₁ accepted id manifest encrypted opened,
    ∃ m : Machine Directory LocalRepository,
    m = Reference.machineAt d [.none, .none] Reference.emptyRepository
    ∧ preflight Reference.primitives (Directory.storage Reference.primitives "shelf")
      (localGit idealGit) Reference.ownerKey Reference.deletion m = (.ok checked, m₁)
    ∧ checked.current.manifest.refs = Reference.tagged ∧ checked.batch.nextRefs = .empty
    ∧ (Reference.deleteTag (localGit idealGit) m).1 = .ok accepted
    ∧ accepted.value.publication = .ok id ∧ Successor checked manifest
    ∧ StoredSuccessor Reference.primitives (Directory.storage Reference.primitives "shelf")
      (Reference.draws 2) checked id manifest encrypted opened := by
  obtain ⟨objects, p, chain, h⟩ := Reference.stocked_exists
  obtain ⟨published, d, -, hrun⟩ := h.deleteTag
  obtain ⟨accepted, hpush, hpublication, -⟩ := hrun (localGit idealGit) Reference.emptyRepository []
  have hchecked := h.preflight (localGit idealGit) Reference.emptyRepository []
  have hbatch := (push_batches idealGit).published Reference.primitives
    (Directory.storage Reference.primitives "shelf") Reference.ownerKey Reference.deletion .publish
    (Reference.draws 2) (Reference.machineAt (Reference.shelf objects p.id) [.none, .none]
      Reference.emptyRepository)
  rw [Reference.machineAt, hchecked] at hbatch
  obtain ⟨accepted', haccepted, -, hsuccessor⟩ := hbatch.2.successor rfl h.changes
  cases haccepted.symm.trans (congrArg Prod.fst hpush)
  obtain ⟨manifest, -, hnext, ⟨encrypted, opened, hstored⟩, -⟩ := hsuccessor _ hpublication
  exact ⟨Reference.shelf objects p.id, _, _, accepted, published.1, manifest, encrypted, opened, _,
    rfl, hchecked, h.refs, rfl, congrArg Prod.fst hpush, hpublication, hnext, hstored⟩

end GitE2EE

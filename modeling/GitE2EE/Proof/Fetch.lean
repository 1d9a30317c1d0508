import GitE2EE.Model.Fetch
import GitE2EE.Proof.Batch
import GitE2EE.Proof.RefNames

/-!
# Which ref maps a fetch can install

A push checks each name it creates on its own. It does not look whether one name is a
directory of another, so a batch can publish `refs/heads/a` together with `refs/heads/a/b`,
which no clone can hold. Apart from that every published map can be installed: its names are
valid, and stay apart when the branches move below `refs/remotes/`.
-/

namespace GitE2EE

open Wire Effect

/-! ## Maps that can be installed -/

def HasRef (refs : RefMap) (name : Text) : Prop := refs.get? name ≠ none

/-- Every name is a valid name of a branch or a tag. -/
def WellNamed (refs : RefMap) : Prop :=
  ∀ name, HasRef refs name → ∃ kind, validateInnerRef name = .ok kind

/-- No name is a directory of another. -/
def Separate (refs : RefMap) : Prop :=
  ∀ name other, HasRef refs name → HasRef refs other → ¬ IsDirectoryOf name other

/-- A name that Git takes for a remote: one below which a ref can be. -/
def ValidRemote (remote : Text) : Prop :=
  isValidRefName (text "refs/remotes/" ++ remote ++ text "/" ++ text "test") = true

theorem hasRef_iff {refs : RefMap} {name : Text} :
    HasRef refs name ↔ ∃ object, (name, object) ∈ refs.entries := by
  simp only [HasRef, SortedMap.mem_entries_iff, ← Option.isSome_iff_exists,
    Option.isSome_iff_ne_none]

/-! ## Names below a remote -/

/-- A name is valid if the components on both sides of a slash are, and it does not end in
a dot. -/
theorem isValidRefName_append (front rest : Text) :
    isValidRefName (front ++ 47 :: rest) = true
      ↔ (∀ component ∈ components front, isValidComponent component = true)
        ∧ (∀ component ∈ components rest, isValidComponent component = true)
        ∧ (47 :: rest).getLast? ≠ some 46 := by
  -- a name with a slash is neither the bare `@` nor a single component
  have hat : (front ++ 47 :: rest == text "@") = false := by
    have htext : text "@" = [64] := by decide
    rw [htext, beq_eq_false_iff_ne]
    cases front with
    | nil => exact fun h => absurd (List.cons.inj h).1 (by decide)
    | cons b front =>
      intro h
      have := congrArg List.length h
      simp at this
  have hslash : (front ++ 47 :: rest).contains 47 = true := by simp
  have hlast : (front ++ 47 :: rest).getLast? = (47 :: rest).getLast? := by
    rw [List.getLast?_append_of_ne_nil _ (List.cons_ne_nil _ _)]
  have hcomponents : components (front ++ 47 :: rest) = components front ++ components rest :=
    Split.splitOn_append_cons front rest
  rw [isValidRefName, hat, hslash, hlast, hcomponents, Bool.and_eq_true, List.all_eq_true]
  simp only [Bool.not_true, Bool.false_or, Bool.not_eq_true', beq_eq_false_iff_ne, ne_eq,
    List.mem_append]
  constructor
  · intro h
    obtain ⟨hdot, hall⟩ := h
    exact ⟨fun c hc => hall c (.inl hc), fun c hc => hall c (.inr hc), hdot⟩
  · intro h
    obtain ⟨hfront, hrest, hdot⟩ := h
    exact ⟨hdot, fun c hc => hc.elim (hfront c) (hrest c)⟩

/-- Where the branches of a remote are, up to the last slash. -/
def remoteDirectory (remote : Text) : Text := text "refs/remotes/" ++ remote

theorem heads_eq : text "refs/heads/" = text "refs/heads" ++ [47] := by decide

/-- The kind of a ref, by how its name starts. -/
theorem innerRefKind_cases {reference : Text} {kind : InnerRefKind}
    (h : InnerRefKind.of reference = .ok kind) :
    (kind = .branch ∧ ∃ short, reference = text "refs/heads" ++ 47 :: short)
    ∨ (kind = .tag ∧ text "refs/tags/" <+: reference) := by
  unfold InnerRefKind.of at h
  split at h
  · rename_i hheads
    cases h
    obtain ⟨short, hshort⟩ := List.isPrefixOf_iff_prefix.mp hheads
    refine .inl ⟨rfl, short, ?_⟩
    rw [← hshort, heads_eq, List.append_assoc, List.singleton_append]
  · split at h
    · rename_i htags
      cases h
      exact .inr ⟨rfl, List.isPrefixOf_iff_prefix.mp htags⟩
    · cases h

theorem fetchedName_branch (remote short : Text) :
    fetchedName remote (text "refs/heads" ++ 47 :: short)
      = .ok (remoteDirectory remote ++ 47 :: short) := by
  have hkind : InnerRefKind.of (text "refs/heads" ++ 47 :: short) = .ok .branch := by
    have hstart : (text "refs/heads/").isPrefixOf (text "refs/heads" ++ 47 :: short) = true := by
      rw [List.isPrefixOf_iff_prefix, heads_eq]
      exact ⟨short, by simp⟩
    rw [InnerRefKind.of, if_pos hstart]
    rfl
  have hdrop : (text "refs/heads" ++ 47 :: short).drop (text "refs/heads/").length = short := by
    have hsplit : text "refs/heads" ++ 47 :: short = text "refs/heads/" ++ short := by
      rw [heads_eq, List.append_assoc, List.singleton_append]
    rw [hsplit, List.drop_left]
  have hslash : text "/" = [47] := by decide
  simp only [fetchedName, hkind, hdrop, hslash, remoteDirectory]
  rw [show text "refs/remotes/" ++ remote ++ 47 :: short
    = text "refs/remotes/" ++ remote ++ [47] ++ short by simp]
  rfl

/-- Two beginnings of one name have the same first bytes. -/
theorem take_eq_of_starts {start start' name : Text} {n : Nat} (h : start <+: name)
    (h' : start' <+: name) (hn : n ≤ start.length) (hn' : n ≤ start'.length) :
    start.take n = start'.take n := by
  obtain ⟨rest, rfl⟩ := h
  obtain ⟨rest', h'⟩ := h'
  have htake : (start ++ rest).take n = start.take n := List.take_append_of_le_length hn
  rw [← htake, ← h', List.take_append_of_le_length hn']

theorem not_heads_of_tags {reference : Text} (h : text "refs/tags/" <+: reference) :
    ¬ text "refs/heads/" <+: reference := fun h' =>
  absurd (take_eq_of_starts (n := 6) h h' (by decide) (by decide))
    (by decide)

theorem not_remotes_of_tags {reference : Text} (h : text "refs/tags/" <+: reference) :
    ¬ text "refs/remotes/" <+: reference := fun h' =>
  absurd (take_eq_of_starts (n := 6) h h' (by decide) (by decide))
    (by decide)

theorem fetchedName_tag {remote reference : Text} (h : text "refs/tags/" <+: reference) :
    fetchedName remote reference = .ok reference := by
  have hheads : ¬ (text "refs/heads/").isPrefixOf reference = true :=
    fun h' => not_heads_of_tags h (List.isPrefixOf_iff_prefix.mp h')
  rw [fetchedName, InnerRefKind.of, if_neg hheads, if_pos (List.isPrefixOf_iff_prefix.mpr h)]
  rfl

/-- A ref of a well-named map, with its name in the clone. -/
inductive Fetched (remote : Text) : Text → Text → Prop where
  | branch (short : Text) :
      Fetched remote (text "refs/heads" ++ 47 :: short) (remoteDirectory remote ++ 47 :: short)
  | tag {reference : Text} : text "refs/tags/" <+: reference → Fetched remote reference reference

theorem Fetched.name_eq {remote reference name : Text} (h : Fetched remote reference name) :
    fetchedName remote reference = .ok name := by
  cases h with
  | branch short => exact fetchedName_branch remote short
  | tag htags => exact fetchedName_tag htags

theorem fetched_of_valid {remote reference : Text} {kind : InnerRefKind}
    (hremote : ValidRemote remote) (h : validateInnerRef reference = .ok kind) :
    ∃ name, Fetched remote reference name ∧ isValidRefName name = true := by
  obtain ⟨kind', hkind, h⟩ := except_bind_eq_ok.mp h
  obtain ⟨_, hvalid, h⟩ := except_bind_eq_ok.mp h
  have hvalid : isValidRefName reference = true := by
    cases hname : isValidRefName reference with
    | true => rfl
    | false =>
      rw [hname] at hvalid
      cases hvalid
  rcases innerRefKind_cases hkind with ⟨-, short, rfl⟩ | ⟨-, htags⟩
  · -- a branch's short name moves below the remote's directory, whose components are valid too
    refine ⟨_, .branch short, ?_⟩
    have hslash : text "/" = [47] := by decide
    rw [ValidRemote, hslash, List.append_assoc, List.singleton_append] at hremote
    rw [isValidRefName_append] at hvalid ⊢
    exact ⟨((isValidRefName_append _ _).mp hremote).1, hvalid.2⟩
  · exact ⟨reference, .tag htags, hvalid⟩

/-- **The names in the clone are directories of one another as the refs are.** -/
theorem Fetched.isDirectoryOf_iff {remote reference name reference' name' : Text}
    (h : Fetched remote reference name) (h' : Fetched remote reference' name') :
    IsDirectoryOf name name' ↔ IsDirectoryOf reference reference' := by
  have hfront : ∀ front short short' : Text,
      front ++ 47 :: short ++ [47] <+: front ++ 47 :: short' ↔ short ++ [47] <+: short' := by
    intro front short short'
    rw [List.append_assoc, List.prefix_append_right_inj, List.cons_append, List.cons_prefix_cons]
    exact and_iff_right rfl
  have hheads : ∀ short : Text,
      text "refs/heads/" <+: text "refs/heads" ++ 47 :: short := fun short =>
    ⟨short, by rw [heads_eq, List.append_assoc, List.singleton_append]⟩
  have hremotes : ∀ short : Text, text "refs/remotes/" <+: remoteDirectory remote ++ 47 :: short :=
    fun short => ⟨remote ++ 47 :: short, (List.append_assoc _ _ _).symm⟩
  have hbelow : ∀ {start name other : Text}, start <+: name → name ++ [47] <+: other →
      start <+: other := fun hstart hdir => hstart.trans ((List.prefix_append _ _).trans hdir)
  -- a branch and a tag are never in one directory, before the renaming or after it
  unfold IsDirectoryOf
  cases h with
  | branch short =>
    cases h' with
    | branch short' => rw [hfront, hfront]
    | tag htags =>
      exact iff_of_false (fun hdir => not_remotes_of_tags htags (hbelow (hremotes short) hdir))
        (fun hdir => not_heads_of_tags htags (hbelow (hheads short) hdir))
  | tag htags =>
    cases h' with
    | branch short' =>
      exact iff_of_false (fun hdir => not_remotes_of_tags (hbelow htags hdir) (hremotes short'))
        (fun hdir => not_heads_of_tags (hbelow htags hdir) (hheads short'))
    | tag _ => exact Iff.rfl

theorem Fetched.conflicting_iff {remote reference name reference' name' : Text}
    (h : Fetched remote reference name) (h' : Fetched remote reference' name') :
    Conflicting name name' ↔ Conflicting reference reference' :=
  or_congr (h.isDirectoryOf_iff h') (h'.isDirectoryOf_iff h)

theorem conflicting_symm {name other : Text} (h : Conflicting name other) :
    Conflicting other name := h.symm

/-- A name is no directory of itself. -/
theorem not_conflicting_self (name : Text) : ¬ Conflicting name name := by
  have hlength : ¬ IsDirectoryOf name name := by
    intro h
    have := h.length_le
    rw [List.length_append, List.length_singleton] at this
    omega
  exact fun h => h.elim hlength hlength

/-! ## Installing -/

theorem hasRef_insert {refs : RefMap} {name object other : Text} :
    HasRef (refs.insert name object) other ↔ other = name ∨ HasRef refs other := by
  rw [HasRef, SortedMap.get?_insert, HasRef]
  split
  · rename_i h
    simp [h]
  · rename_i h
    simp [h]

theorem updateRef_ok_iff {name object : Text} {refs : RefMap}
    (hvalid : isValidRefName name = true) :
    (∃ refs', updateRef name object refs = (.ok (), refs'))
      ↔ ∀ other, HasRef refs other → ¬ Conflicting other name := by
  have hentries : (∀ entry ∈ refs.entries, ¬ Conflicting entry.1 name)
      ↔ ∀ other, HasRef refs other → ¬ Conflicting other name := by
    constructor
    · intro h other hother
      obtain ⟨target, hmem⟩ := hasRef_iff.mp hother
      exact h _ hmem
    · intro h entry hentry
      exact h _ (hasRef_iff.mpr ⟨entry.2, hentry⟩)
  rw [updateRef, ← hentries]
  constructor
  · rintro ⟨refs', h⟩
    split at h
    · rename_i hfree
      exact hfree.2
    · cases h
  · intro h
    exact ⟨_, if_pos ⟨hvalid, h⟩⟩

theorem updateRef_ok {name object : Text} {refs refs' : RefMap}
    (h : updateRef name object refs = (.ok (), refs')) : refs' = refs.insert name object := by
  rw [updateRef] at h
  split at h
  · cases h
    rfl
  · cases h

/-- **When a list of refs can be installed**: when no name to come conflicts with one that is
there, and no two to come with each other. -/
theorem installRefs_ok_iff {remote : Text} : ∀ {l : List (Text × Text)},
    (∀ e ∈ l, ∃ name, Fetched remote e.1 name ∧ isValidRefName name = true) → ∀ refs : RefMap,
    (installRefs remote l refs).1 = .ok ()
      ↔ (∀ other e name, HasRef refs other → e ∈ l → Fetched remote e.1 name →
          ¬ Conflicting other name) ∧ l.Pairwise fun e e' => ¬ Conflicting e.1 e'.1 := by
  intro l
  induction l with
  | nil =>
    intro _ refs
    simp [installRefs]
  | cons e rest ih =>
    intro hall refs
    obtain ⟨reference, object⟩ := e
    obtain ⟨name, hfetched, hvalid⟩ := hall _ (List.mem_cons_self ..)
    have hrest := ih fun e he => hall e (List.mem_cons_of_mem _ he)
    have hunique : ∀ {other}, Fetched remote reference other → other = name := fun h =>
      Except.ok.inj (h.name_eq.symm.trans hfetched.name_eq)
    have hrun : installRefs remote ((reference, object) :: rest) refs
        = (updateRef name object >>= fun _ => installRefs remote rest) refs := by
      rw [installRefs, hfetched.name_eq]
      rfl
    rw [hrun, List.pairwise_cons]
    -- the first name joins those already installed, with which the rest must not conflict
    by_cases hfree : ∀ other, HasRef refs other → ¬ Conflicting other name
    · have hstep : ∃ refs', updateRef name object refs = (.ok (), refs') :=
        (updateRef_ok_iff hvalid).mpr hfree
      obtain ⟨refs', hupdate⟩ := hstep
      rw [Action.bind_of_ok hupdate, hrest refs', updateRef_ok hupdate]
      constructor
      · intro h
        obtain ⟨hstore, hpairs⟩ := h
        refine ⟨fun other e name' hother he he' => ?_, fun e he => ?_, hpairs⟩
        · rcases List.mem_cons.mp he with rfl | he
          · rw [hunique he']
            exact hfree other hother
          · exact hstore other e name' (hasRef_insert.mpr (.inr hother)) he he'
        · obtain ⟨name', hname', -⟩ := hall e (List.mem_cons_of_mem _ he)
          rw [← hfetched.conflicting_iff hname']
          exact hstore name e name' (hasRef_insert.mpr (.inl rfl)) he hname'
      · intro h
        obtain ⟨hstore, hfirst, hpairs⟩ := h
        refine ⟨fun other e name' hother he he' => ?_, hpairs⟩
        rcases hasRef_insert.mp hother with rfl | hother
        · rw [hfetched.conflicting_iff he']
          exact hfirst e he
        · exact hstore other e name' hother (List.mem_cons_of_mem _ he) he'
    · refine iff_of_false (fun hok => hfree ?_) fun h => hfree fun other hother =>
        h.1 other _ name hother (List.mem_cons_self ..) hfetched
      rcases Action.bind_cases (updateRef name object) (fun _ => installRefs remote rest) refs
        with ⟨_, refs', hupdate, -⟩ | ⟨e, refs', -, heq⟩
      · exact (updateRef_ok_iff hvalid).mp ⟨refs', hupdate⟩
      · rw [heq] at hok
        cases hok

/-- **A well-named map can be installed in an empty clone exactly when its names are
separate.** -/
theorem installRefs_empty_iff {remote : Text} {refs : RefMap} (hremote : ValidRemote remote)
    (hnamed : WellNamed refs) :
    (installRefs remote refs.entries .empty).1 = .ok () ↔ Separate refs := by
  have hall : ∀ e ∈ refs.entries, ∃ name, Fetched remote e.1 name ∧ isValidRefName name = true := by
    intro e he
    obtain ⟨kind, hkind⟩ := hnamed e.1 (hasRef_iff.mpr ⟨e.2, he⟩)
    exact fetched_of_valid hremote hkind
  rw [installRefs_ok_iff hall]
  constructor
  · rintro ⟨-, hpairs⟩ name other hname hother hdir
    obtain ⟨object, hmem⟩ := hasRef_iff.mp hname
    obtain ⟨object', hmem'⟩ := hasRef_iff.mp hother
    have hsymm : Std.Symm fun e e' : Text × Text => ¬ Conflicting e.1 e'.1 :=
      ⟨fun _ _ h h' => h (conflicting_symm h')⟩
    have hforall := hpairs.forall_of_forall fun e _ => not_conflicting_self e.1
    exact hforall hmem hmem' (.inl hdir)
  · intro hseparate
    refine ⟨fun other _ _ hother => absurd (SortedMap.get?_empty other) hother, ?_⟩
    refine List.pairwise_of_forall_mem_list fun e he e' he' hconflict => ?_
    have hhas := hasRef_iff.mpr ⟨e.2, he⟩
    have hhas' := hasRef_iff.mpr ⟨e'.2, he'⟩
    exact hconflict.elim (hseparate _ _ hhas hhas') (hseparate _ _ hhas' hhas)

/-! ## Published maps -/

section

variable (git : GitTool)

/-- A push of this batch, from this repository and on top of `parent`, publishes `next`. -/
def RefPublication (g : LocalRepository) (pushes : List RefPush) (parent next : RefMap) : Prop :=
  ∃ batch : PushState,
    pushChanges (localGit git) parent ⟨[], parent, .empty, []⟩ pushes g = (.ok batch, g)
      ∧ next = batch.nextRefs

/-- The maps that sequences of pushes publish on top of genesis, which has no refs: whoever
pushes, from whatever repository. -/
def PublishedRefs : RefMap → Prop :=
  Relation.ReflTransGen (fun parent next => ∃ g pushes, RefPublication git g pushes parent next)
    .empty

/-- What preflight makes of the first change of this name, if there is one. -/
def Decides (g : LocalRepository) (pushes : List RefPush) (parent : RefMap) (name : Text)
    (target : Option Text) : Prop :=
  ∃ push, pushes.find? (·.destination = name) = some push
    ∧ judge git parent g push = .ok target

/-- A new ref, which preflight accepts. -/
def Creates (g : LocalRepository) (pushes : List RefPush) (parent : RefMap) (name : Text) : Prop :=
  ¬ HasRef parent name ∧ ∃ target, Decides git g pushes parent name (some target)

/-- A ref of the parent of which preflight accepts no deletion. -/
def Retains (g : LocalRepository) (pushes : List RefPush) (parent : RefMap) (name : Text) : Prop :=
  HasRef parent name ∧ ¬ Decides git g pushes parent name none

/-- **The batch brings a conflict in**: it creates a ref whose name conflicts with one that
stays, or with another that it creates. -/
def AddsConflict (g : LocalRepository) (pushes : List RefPush) (parent : RefMap) : Prop :=
  ∃ name other, Creates git g pushes parent name
    ∧ (Retains git g pushes parent other ∨ Creates git g pushes parent other)
    ∧ Conflicting name other

/-- The same sequences, of pushes that bring no conflict in. -/
def PublishedApart : RefMap → Prop :=
  Relation.ReflTransGen (fun parent next => ∃ g pushes, RefPublication git g pushes parent next
    ∧ ¬ AddsConflict git g pushes parent) .empty

variable {git} {g : LocalRepository} {pushes : List RefPush}

theorem judge_valid {parentRefs : RefMap} {g : LocalRepository} {push : RefPush}
    {target : Option Text} (h : judge git parentRefs g push = .ok target) :
    ∃ kind, validateInnerRef push.destination = .ok kind := by
  have hrun : preflightRefChange (localGit git) parentRefs push g = (.ok target, _) :=
    Prod.ext h rfl
  obtain ⟨kind, g', hkind, -⟩ := Action.bind_eq_ok.mp hrun
  exact ⟨kind, (Action.lift_eq_ok.mp hkind).1⟩

theorem RefPublication.get? {parent next : RefMap} (h : RefPublication git g pushes parent next)
    (name : Text) : next.get? name = settledRef git parent g pushes name := by
  obtain ⟨batch, hrun, rfl⟩ := h
  have hpending : Pending parent ⟨[], parent, .empty, []⟩ :=
    ⟨fun _ _ => rfl, fun name _ => SortedMap.get?_empty name⟩
  obtain ⟨settled, hsettled, hs⟩ := pushChanges_settles hpending pushes
  cases hsettled.symm.trans hrun
  exact hs.semantics.next name

/-- **The refs of the next map** are those that stay and those that are created. -/
theorem RefPublication.hasRef_iff {parent next : RefMap}
    (h : RefPublication git g pushes parent next) (name : Text) :
    HasRef next name ↔ Retains git g pushes parent name ∨ Creates git g pushes parent name := by
  rw [HasRef, h.get? name, settledRef]
  cases hfind : pushes.find? (·.destination = name) with
  -- no change of the batch is about this name
  | none =>
    have hundecided : ∀ target, ¬ Decides git g pushes parent name target := by
      rintro target ⟨push, hpush, -⟩
      rw [hfind] at hpush
      cases hpush
    constructor
    · exact fun hold => .inl ⟨hold, hundecided none⟩
    · rintro (⟨hold, -⟩ | ⟨-, target, hdecides⟩)
      · exact hold
      · exact absurd hdecides (hundecided _)
  | some push =>
    have hdecided : ∀ {target}, Decides git g pushes parent name target ↔
        judge git parent g push = .ok target := by
      intro target
      constructor
      · rintro ⟨push', hpush', hjudge⟩
        rw [hfind] at hpush'
        cases hpush'
        exact hjudge
      · exact fun hjudge => ⟨push, hfind, hjudge⟩
    simp only [Retains, Creates, hdecided]
    cases hjudge : judge git parent g push with
    -- the change was rejected: the ref stays as it was
    | error e =>
      constructor
      · exact fun hold => .inl ⟨hold, fun hdecides => by cases hdecides⟩
      · rintro (⟨hold, -⟩ | ⟨-, target, hdecides⟩)
        · exact hold
        · cases hdecides
    | ok target =>
      cases target with
      | none =>
        refine iff_of_false (fun hold => hold rfl) ?_
        rintro (⟨-, hkept⟩ | ⟨-, target, hdecides⟩)
        · exact hkept rfl
        · cases hdecides
      | some target =>
        refine iff_of_true (Option.some_ne_none target) ?_
        by_cases hold : HasRef parent name
        · exact .inl ⟨hold, fun hdecides => by cases hdecides⟩
        · exact .inr ⟨hold, target, rfl⟩

/-- **A push keeps names valid**: it adds only names it has checked. -/
theorem RefPublication.wellNamed {parent next : RefMap}
    (h : RefPublication git g pushes parent next) (hparent : WellNamed parent) :
    WellNamed next := by
  intro name hname
  rcases (h.hasRef_iff name).mp hname with ⟨hold, -⟩ | ⟨-, target, push, hfind, hjudge⟩
  · exact hparent name hold
  · have hdestination : push.destination = name := by
      simpa using List.find?_some hfind
    rw [← hdestination]
    exact judge_valid hjudge

/-- A push keeps names apart exactly when it brings no conflict in. -/
theorem RefPublication.separate_iff {parent next : RefMap}
    (h : RefPublication git g pushes parent next) (hparent : Separate parent) :
    Separate next ↔ ¬ AddsConflict git g pushes parent := by
  constructor
  · rintro hnext ⟨name, other, hname, hother, hconflict⟩
    have hname' := (h.hasRef_iff name).mpr (.inr hname)
    have hother' := (h.hasRef_iff other).mpr hother
    exact hconflict.elim (hnext name other hname' hother') (hnext other name hother' hname')
  · intro hfree name other hname hother hdir
    -- names that both stay were apart already, so one of the two is new
    rcases (h.hasRef_iff name).mp hname with hstays | hnew
    · rcases (h.hasRef_iff other).mp hother with hstays' | hnew'
      · exact hparent name other hstays.1 hstays'.1 hdir
      · exact hfree ⟨other, name, hnew', .inl hstays, .inr hdir⟩
    · exact hfree ⟨name, other, hnew, (h.hasRef_iff other).mp hother, .inl hdir⟩

theorem wellNamed_empty : WellNamed .empty := fun name h => absurd (SortedMap.get?_empty name) h

theorem separate_empty : Separate .empty :=
  fun name _ h => absurd (SortedMap.get?_empty name) h

theorem PublishedRefs.wellNamed {refs : RefMap} (h : PublishedRefs git refs) : WellNamed refs := by
  induction h with
  | refl => exact wellNamed_empty
  | tail _ hstep ih =>
    obtain ⟨g, pushes, hpublished⟩ := hstep
    exact hpublished.wellNamed ih

theorem PublishedApart.published {refs : RefMap} (h : PublishedApart git refs) :
    PublishedRefs git refs := by
  induction h with
  | refl => exact .refl
  | tail _ hstep ih =>
    obtain ⟨g, pushes, hpublished, -⟩ := hstep
    exact .tail ih ⟨g, pushes, hpublished⟩

theorem PublishedApart.separate {refs : RefMap} (h : PublishedApart git refs) : Separate refs := by
  induction h with
  | refl => exact separate_empty
  | tail _ hstep ih =>
    obtain ⟨g, pushes, hpublished, hfree⟩ := hstep
    exact (hpublished.separate_iff ih).mpr hfree

/-- A fetch into an empty clone goes through once the packs are imported, if the refs can be
installed. -/
theorem fetchInto_ok {S G : Type} {P : Primitives} {storage : Storage S} {repo : GitRepository G}
    {key : KeyFile} {remote : Text} {m m' : Machine S G} {accepted : Accepted Manifest}
    (himport : importPacks P storage repo key m = (.ok accepted, m'))
    (hinstall : (installRefs remote accepted.value.refs.entries .empty).1 = .ok ()) :
    ∃ refs, fetchInto P storage repo key remote ⟨m, .empty⟩
      = (.ok accepted.value, (⟨m', refs⟩ : Cloning S G)) := by
  refine ⟨(installRefs remote accepted.value.refs.entries .empty).2, ?_⟩
  have hfirst : Action.zoom Cloning.machine (fun machine clone => { clone with machine })
      (importPacks P storage repo key) (⟨m, .empty⟩ : Cloning S G)
        = (.ok accepted, ⟨m', .empty⟩) := by
    simp only [Action.zoom, himport]
  have hsecond : Action.zoom Cloning.refs (fun refs clone => { clone with refs })
      (installRefs remote accepted.value.refs.entries) (⟨m', .empty⟩ : Cloning S G)
        = (.ok (), ⟨m', (installRefs remote accepted.value.refs.entries .empty).2⟩) := by
    simp only [Action.zoom, hinstall]
  rw [fetchInto, Action.bind_of_ok hfirst, Action.bind_of_ok hsecond]
  rfl

/-- What can be said of the ref maps that pushes publish. -/
structure RefMapsInstall (git : GitTool) : Prop where
  /-- What a push publishes is what its batch makes of the refs it found. -/
  published : ∀ {S : Type} {P : Primitives} {storage : Storage S} {key : KeyFile}
    {pushes : List RefPush} {draws : Draws} {m m₁ : Machine S LocalRepository}
    {checked : Preflight} {accepted : Accepted PushOutcome} {id : Text},
    preflight P storage (localGit git) key pushes m = (.ok checked, m₁) →
    checked.batch.nextRefs ≠ checked.current.manifest.refs →
    (push P storage (localGit git) key pushes .publish draws m).1 = .ok accepted →
    accepted.value.publication = .ok id →
    ∃ manifest chain, accepted.chain = (id, manifest) :: chain
      ∧ RefPublication git m.git pushes checked.current.manifest.refs manifest.refs
  /-- The names are valid names of branches and tags. -/
  named : ∀ {refs}, PublishedRefs git refs → WellNamed refs
  /-- Names conflict after a push exactly when its batch brings the conflict in. -/
  apart : ∀ {g pushes parent next}, Separate parent → RefPublication git g pushes parent next →
    (Separate next ↔ ¬ AddsConflict git g pushes parent)
  /-- Without such a push, every fetch into an empty clone installs the refs. -/
  fetched : ∀ {S G : Type} {P : Primitives} {storage : Storage S} {repo : GitRepository G}
    {key : KeyFile} {remote : Text} {m m' : Machine S G} {accepted : Accepted Manifest},
    PublishedApart git accepted.value.refs → ValidRemote remote →
    importPacks P storage repo key m = (.ok accepted, m') →
    ∃ refs, fetchInto P storage repo key remote ⟨m, .empty⟩
      = (.ok accepted.value, (⟨m', refs⟩ : Cloning S G))
  /-- With one, no fetch does. -/
  refused : ∀ {refs remote}, PublishedRefs git refs → ValidRemote remote → ¬ Separate refs →
    (installRefs remote refs.entries .empty).1 ≠ .ok ()

/-- **Which published ref maps a fetch can install**: those of pushes that bring no conflict
of names in, and only those. -/
theorem published_refs_install (git : GitTool) : RefMapsInstall git where
  published := by
    intro S P storage key pushes draws m m₁ checked accepted id hchecked hchanged hpush hid
    have hpublication : BatchPublication P storage (localGit git) key draws .publish checked m₁
        (push P storage (localGit git) key pushes .publish draws m).1
        (push P storage (localGit git) key pushes .publish draws m).2 := push_publication hchecked
    obtain ⟨accepted', haccepted, -, hpublished⟩ := hpublication.successor rfl hchanged
    cases haccepted.symm.trans hpush
    obtain ⟨manifest, hchain, hsuccessor, -⟩ := hpublished id hid
    have hs := (preflight_settles hchecked).2
    have hpending : Pending checked.current.manifest.refs
        ⟨[], checked.current.manifest.refs, .empty, []⟩ :=
      ⟨fun _ _ => rfl, fun name _ => SortedMap.get?_empty name⟩
    obtain ⟨settled, hsettled, hs'⟩ :
        ∃ settled, pushChanges (localGit git) checked.current.manifest.refs
            ⟨[], checked.current.manifest.refs, .empty, []⟩ pushes m.git = (.ok settled, m.git)
          ∧ Settles git checked.current.manifest.refs m.git
            ⟨[], checked.current.manifest.refs, .empty, []⟩ pushes settled :=
      pushChanges_settles hpending pushes
    have hsame : checked.batch.nextRefs = settled.nextRefs := SortedMap.ext_get? fun name => by
      rw [hs.semantics.next, hs'.semantics.next]
    exact ⟨manifest, _, hchain, settled, hsettled, hsuccessor.refs.trans hsame⟩
  named h := h.wellNamed
  apart hparent h := h.separate_iff hparent
  fetched happart hremote himport := fetchInto_ok himport
    ((installRefs_empty_iff hremote happart.published.wellNamed).mpr happart.separate)
  refused h hremote hconflict hok :=
    hconflict ((installRefs_empty_iff hremote h.wellNamed).mp hok)

end

/-! ## Instances -/

namespace Reference

/-- A repository whose every name leads to the tagged object. -/
def taggingRepository : LocalRepository :=
  { emptyRepository with names := fun _ => .ok taggedObject }

/-- `git push origin v1`. -/
def tagging : List RefPush := [⟨release, .update (text "v1") false⟩]

/-- The tag can be published on top of genesis, and brings no conflict in. -/
theorem tagged_publishedApart (git : GitTool) : PublishedApart git tagged := by
  refine .single ⟨taggingRepository, tagging, ⟨⟨[release], tagged, tagged, [.accepted]⟩, rfl, rfl⟩,
    ?_⟩
  rintro ⟨name, other, ⟨-, target, push, hfind, -⟩, hother, hconflict⟩
  have hname : ∀ {name push}, tagging.find? (·.destination = name) = some push →
      name = release := by
    intro name push hfind
    have hdestination : push.destination = name := by
      simpa using List.find?_some hfind
    have hpush : push = ⟨release, .update (text "v1") false⟩ :=
      List.mem_singleton.mp (List.mem_of_find?_eq_some hfind)
    rw [← hdestination, hpush]
  rcases hother with ⟨hold, -⟩ | ⟨-, target', push', hfind', -⟩
  · exact hold (SortedMap.get?_empty other)
  · rw [hname hfind, hname hfind'] at hconflict
    exact not_conflicting_self release hconflict

end Reference

/-- A clone of the repository with the tag. -/
theorem published_refs_install_tag : ∃ objects p refs,
    ∃ m' : Machine Directory (Option CheckoutProgress),
    p.manifest.refs = Reference.tagged
    ∧ fetchInto Reference.primitives (Directory.storage Reference.primitives "shelf")
      Reference.checkout Reference.ownerKey (text "origin")
      ⟨Reference.atShelf objects p none none, .empty⟩ = (.ok p.manifest, ⟨m', refs⟩) := by
  obtain ⟨objects, p, chain, h⟩ := Reference.stocked_exists
  have hrests : Rests p none := fun _ hnone => by cases hnone
  have himport := h.imports hrests (show Checkout.checkFormat none = .ok .default from rfl)
  have happart : PublishedApart idealGit p.manifest.refs := by
    rw [h.refs]
    exact Reference.tagged_publishedApart idealGit
  have hremote : ValidRemote (text "origin") := by
    unfold ValidRemote
    decide
  obtain ⟨refs, hfetch⟩ := (published_refs_install idealGit).fetched happart hremote himport
  exact ⟨objects, p, refs, _, h.refs, hfetch⟩

namespace Clash

def commit : Text := text "1111111111111111111111111111111111111111"

def tree : Text := text "2222222222222222222222222222222222222222"

/-- A repository with one commit, which every name leads to. -/
def repository : LocalRepository where
  objects := AList.insert commit (.commit tree []) (AList.singleton tree (.tree []))
  shallow := []
  promisor := false
  names _ := .ok commit
  progress := none
  importing := []

/-- `git push origin main:refs/heads/a main:refs/heads/a/b`. -/
def pushes : List RefPush :=
  [⟨text "refs/heads/a", .update (text "main") false⟩,
    ⟨text "refs/heads/a/b", .update (text "main") false⟩]

theorem judged (git : GitTool) (push : RefPush) (h : push ∈ pushes) :
    judge git .empty repository push = .ok (some commit) := by
  simp only [pushes, List.mem_cons, List.not_mem_nil, or_false] at h
  rcases h with rfl | rfl <;> rfl

end Clash

/-- One push that creates `refs/heads/a` and `refs/heads/a/b` is published, and no clone can
install what it published. -/
theorem published_refs_clash : ∃ refs, PublishedRefs idealGit refs
    ∧ HasRef refs (text "refs/heads/a") ∧ HasRef refs (text "refs/heads/a/b")
    ∧ (installRefs (text "origin") refs.entries .empty).1 ≠ .ok () := by
  have hpending : Pending .empty ⟨[], .empty, .empty, []⟩ :=
    ⟨fun _ _ => rfl, fun name _ => SortedMap.get?_empty name⟩
  obtain ⟨batch, hbatch, hs⟩ :
      ∃ batch, pushChanges (localGit idealGit) .empty ⟨[], .empty, .empty, []⟩ Clash.pushes
          Clash.repository = (.ok batch, Clash.repository)
        ∧ Settles idealGit .empty Clash.repository ⟨[], .empty, .empty, []⟩ Clash.pushes batch :=
    pushChanges_settles hpending Clash.pushes
  have hpublished : PublishedRefs idealGit batch.nextRefs :=
    .single ⟨Clash.repository, Clash.pushes, batch, hbatch, rfl⟩
  have hhas : ∀ name, (Clash.pushes.find? (·.destination = name)).isSome = true →
      HasRef batch.nextRefs name := by
    intro name hsome
    obtain ⟨push, hfind⟩ := Option.isSome_iff_exists.mp hsome
    rw [HasRef, hs.semantics.next name, settledRef, hfind]
    simp only [Clash.judged idealGit push (List.mem_of_find?_eq_some hfind)]
    exact Option.some_ne_none _
  have ha : HasRef batch.nextRefs (text "refs/heads/a") := hhas _ (by decide)
  have hab : HasRef batch.nextRefs (text "refs/heads/a/b") := hhas _ (by decide)
  refine ⟨batch.nextRefs, hpublished, ha, hab, fun hok => ?_⟩
  have hremote : ValidRemote (text "origin") := by
    unfold ValidRemote
    decide
  have hseparate := (installRefs_empty_iff hremote hpublished.wellNamed).mp hok
  exact hseparate _ _ ha hab (by decide)

end GitE2EE

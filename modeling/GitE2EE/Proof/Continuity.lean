import GitE2EE.Proof.Transcript

/-!
# Continuity across operations

The floor is one head. What an operation checks against it is one entry, found by
generation. That this keeps every earlier head on every later chain rests on two
things: a chain has one entry for each generation (`Lined`), and ids that do not
collide have one line of ancestors (`Lineage`).

Each operation has one specification here, for all of its outcomes: if it returns,
the floor is at the head of the chain it accepted, and that chain passes through the
old floor (`Accepts`); if it fails, the floor may have moved in the same way or not
at all (`Moves`).
-/

namespace GitE2EE

open Wire Effect Lineage

variable {S G : Type} {P : Primitives} {root : Text}

/-! ## Chains as operations report them -/

/-- A line of stored manifests with one entry for each generation, newest first. -/
structure Lined (P : Primitives) (objects : List Bytes) (chain : List (Text × Manifest)) :
    Prop where
  line : Line (Stored P objects) (chain.map Prod.fst)
  generation : ∀ newer e older, chain = newer ++ e :: older → e.2.generation = older.length

theorem Lined.mono {objects objects' : List Bytes} (hsub : objects ⊆ objects')
    {chain : List (Text × Manifest)} (h : Lined P objects chain) : Lined P objects' chain :=
  ⟨h.line.mono fun _ _ => Stored.mono hsub, h.generation⟩

theorem Known.lined {objects : List Bytes} {chain : List OpenedState}
    (h : Known P root objects chain) : Lined P objects (entriesOf chain) where
  line := by
    rw [entriesOf, List.map_map]
    exact h.line
  generation := by
    intro newer e older heq
    obtain ⟨front, back, rfl, hfront, hback⟩ := List.map_eq_append_iff.mp heq
    obtain ⟨s, back', rfl, rfl, rfl⟩ := List.map_eq_cons_iff.mp hback
    rw [h.shape.generation front s back' rfl, List.length_map]

/-- A new head on top. -/
theorem Lined.cons {objects : List Bytes} {chain : List (Text × Manifest)} {id : Text}
    {manifest : Manifest} {p : Text × Manifest} (h : Lined P objects (p :: chain))
    (hstored : Stored P objects id (some p.1))
    (hgen : manifest.generation = p.2.generation + 1) :
    Lined P objects ((id, manifest) :: p :: chain) where
  line := .step hstored h.line
  generation := by
    intro newer e older heq
    cases newer with
    | nil =>
      cases heq
      rw [hgen, h.generation [] p chain rfl, List.length_cons]
    | cons x newer =>
      injection heq with _ heq
      exact h.generation newer e older heq

/-- The generation at the head bounds the others. -/
theorem Lined.generation_le {objects : List Bytes} {head e : Text × Manifest}
    {rest : List (Text × Manifest)} (h : Lined P objects (head :: rest))
    (he : e ∈ head :: rest) : e.2.generation ≤ head.2.generation := by
  obtain ⟨newer, older, heq⟩ := List.append_of_mem he
  rw [h.generation newer e older heq, h.generation [] head rest rfl]
  have := congrArg List.length heq
  simp only [List.length_cons, List.length_append] at this
  omega

/-- An entry is the only one at its generation. -/
theorem Lined.find_eq {objects : List Bytes} {chain : List (Text × Manifest)}
    (h : Lined P objects chain) {e : Text × Manifest} (he : e ∈ chain) :
    chain.find? (fun x => x.2.generation = e.2.generation) = some e := by
  cases hfind : chain.find? (fun x => x.2.generation = e.2.generation) with
  | none => exact absurd (List.find?_eq_none.mp hfind e he) (by simp)
  | some x =>
    have hx := List.mem_of_find?_eq_some hfind
    have hgen : x.2.generation = e.2.generation := by simpa using List.find?_some hfind
    obtain ⟨newer, older, heq⟩ := List.append_of_mem he
    obtain ⟨newer', older', heq'⟩ := List.append_of_mem hx
    have hlen : older'.length = older.length := by
      rw [← h.generation newer e older heq, ← h.generation newer' x older' heq', hgen]
    have hsuffix := List.append_inj_right' (heq'.symm.trans heq) (by simp [hlen])
    rw [(List.cons.inj hsuffix).1]

/-- Lines that meet share their entries below, at the same generations. -/
theorem Lined.contains {objects : List Bytes} (hR : Functional (Stored P objects))
    {chain : List (Text × Manifest)} {head : Text × Manifest} {rest : List (Text × Manifest)}
    (h : Lined P objects chain) (h' : Lined P objects (head :: rest))
    (hmem : head.1 ∈ chain.map Prod.fst) {e : Text × Manifest} (he : e ∈ head :: rest) :
    ∃ x ∈ chain, x.1 = e.1 ∧ x.2.generation = e.2.generation := by
  obtain ⟨front, hfront⟩ := h.line.eq_append hR h'.line hmem
  obtain ⟨newer, older, heq⟩ := List.append_of_mem he
  have hids : chain.map Prod.fst = (front ++ newer.map Prod.fst) ++ e.1 :: older.map Prod.fst := by
    have := congrArg (List.map Prod.fst) heq
    rw [List.map_cons, List.map_append, List.map_cons] at this
    rw [hfront, this, List.append_assoc]
  obtain ⟨A, B, rfl, -, hB⟩ := List.map_eq_append_iff.mp hids
  obtain ⟨x, B', rfl, hx, hB'⟩ := List.map_eq_cons_iff.mp hB
  refine ⟨x, by simp, hx, ?_⟩
  rw [h.generation A x B' rfl, h'.generation newer e older heq, ← List.length_map Prod.fst, hB',
    List.length_map]

/-! ## Passing the floor -/

/-- A chain that passes through the floor. -/
def PassesFloor (floor : Option ContinuityFloor) (chain : List (Text × Manifest)) : Prop :=
  ∀ f, floor = some f → ∃ head rest, chain = head :: rest
    ∧ f.repositoryRoot = head.2.repositoryRoot ∧ f.policyGeneration ≤ head.2.policyGeneration
    ∧ ∃ e ∈ chain, e.2.generation = f.generation ∧ e.1 = f.headId

theorem checkFloor_ok {chain : List OpenedState} {current : OpenedState} {f : ContinuityFloor}
    (h : checkFloor chain current f = .ok ()) :
    f.repositoryRoot = current.manifest.repositoryRoot
      ∧ f.policyGeneration ≤ current.manifest.policyGeneration
      ∧ ∃ s ∈ chain, s.manifest.generation = f.generation ∧ s.id = f.headId := by
  simp only [checkFloor, except_bind_eq_ok, bailIf_eq_ok, orBail_eq_ok] at h
  obtain ⟨⟨⟩, hroot, ⟨⟩, hpolicy, ⟨⟩, -, pinned, hfind, hid⟩ := h
  push Not at hroot hpolicy hid
  exact ⟨hroot, hpolicy, pinned, List.mem_of_find?_eq_some hfind,
    by simpa using List.find?_some hfind, hid⟩

theorem validatePinnedHead_ok {chain : List OpenedState} {floor : Option ContinuityFloor}
    (h : validatePinnedHead chain floor = .ok ()) : PassesFloor floor (entriesOf chain) := by
  rintro f rfl
  simp only [validatePinnedHead, except_bind_eq_ok, orBail_eq_ok] at h
  obtain ⟨current, hhead, hcheck⟩ := h
  obtain ⟨rest, rfl⟩ := List.head?_eq_some_iff.mp hhead
  obtain ⟨hroot, hpolicy, s, hs, hgen, hid⟩ := checkFloor_ok hcheck
  exact ⟨(current.id, current.manifest), entriesOf rest, rfl, hroot, hpolicy,
    (s.id, s.manifest), List.mem_map_of_mem hs, hgen, hid⟩

/-- A conforming successor keeps passing it. -/
theorem PassesFloor.cons {floor : Option ContinuityFloor} {p : Text × Manifest}
    {chain : List (Text × Manifest)} (h : PassesFloor floor (p :: chain)) {id : Text}
    {manifest : Manifest} (hroot : manifest.repositoryRoot = p.2.repositoryRoot)
    (hpolicy : p.2.policyGeneration ≤ manifest.policyGeneration) :
    PassesFloor floor ((id, manifest) :: p :: chain) := by
  rintro f rfl
  obtain ⟨head, rest, heq, hfr, hfp, e, he, hgen, hid⟩ := h f rfl
  cases heq
  exact ⟨(id, manifest), p :: chain, rfl, hfr.trans hroot.symm, Nat.le_trans hfp hpolicy,
    e, List.mem_cons_of_mem _ he, hgen, hid⟩

end GitE2EE

import GitE2EE.Proof.Authority

/-!
# The shape of an authenticated chain

A chain of `n` entries has exactly one entry for each generation below `n`, linked
by id and by key, with counters that count what is below them. Callers rely on all
of this at once: the floor looks an entry up by its generation, imports skip
generations they have, and publication adds to the counters.

Each fact is an induction on `Chained` about the newest entry; `Chained.suffix`
turns it into the same fact about every entry.
-/

namespace GitE2EE

open Wire Effect

variable {P : Primitives} {root : Text}

/-- Whether an entry changed the policy. -/
def OpenedState.isTransition (s : OpenedState) : Bool :=
  s.manifest.authorization = .policyTransition

/-- The refs of the newest entry a writer published, or none at all. -/
def newestWriterRefs (chain : List OpenedState) : RefMap :=
  ((chain.find? fun s => s.manifest.authorization = .writer).map fun s => s.manifest.refs).getD
    .empty

/-- The shape of a chain, newest first. -/
structure Shape (P : Primitives) (chain : List OpenedState) : Prop where
  /-- One entry for each generation: position `i` of `n` has generation `n - 1 - i`. -/
  generation : ∀ newer s older, chain = newer ++ s :: older →
    s.manifest.generation = older.length
  previous : ∀ newer s p older, chain = newer ++ s :: p :: older →
    s.manifest.previous = some p.id
  genesis : ∃ newer first, chain = newer ++ [first] ∧ first.manifest.previous = none
    ∧ first.manifest.authorization = .policyTransition
    ∧ first.manifest.refs.isEmpty = true ∧ first.manifest.newPacks = []
  /-- Each key opens the one below it, and that one matches its commitment. -/
  link : ∀ newer s p older, chain = newer ++ s :: p :: older →
    unwrapPredecessorKey P s.generationKey s.manifest p.header = .ok p.generationKey
      ∧ verifyKeyCommitment P p.generationKey p.header.keyCommitment = .ok ()
  /-- The total counts the packs of the entry and of those below. -/
  totalPackCount : ∀ newer s older, chain = newer ++ s :: older →
    s.manifest.totalPackCount = (packIds (s :: older)).length
  packIds_nodup : (packIds chain).Nodup
  delta : ∀ s ∈ chain, DenseDelta s.manifest
  /-- The policy generation counts the transitions above genesis. -/
  policyGeneration : ∀ newer s older, chain = newer ++ s :: older →
    s.manifest.policyGeneration = (s :: older).dropLast.countP OpenedState.isTransition
  transition : ∀ newer s p older, chain = newer ++ s :: p :: older →
    s.manifest.authorization = .policyTransition →
    s.manifest.refs = p.manifest.refs ∧ s.manifest.newPacks = []
  headRefs : ∀ head older, chain = head :: older → head.manifest.refs = newestWriterRefs chain

/-! ## The newest entry -/

/-- The generation counts the entries below. -/
theorem chained_generation {s : OpenedState} {back : List OpenedState}
    (h : Chained P root (s :: back)) : s.manifest.generation = back.length := by
  induction back generalizing s with
  | nil =>
    cases h with
    | genesis hg => exact hg.generation
  | cons p back ih =>
    cases h with
    | step hext hrest => rw [hext.generation, ih hrest, List.length_cons]

/-- The total counts the packs up to the entry. -/
theorem chained_totalPackCount {s : OpenedState} {back : List OpenedState}
    (h : Chained P root (s :: back)) :
    s.manifest.totalPackCount = (packIds (s :: back)).length := by
  induction back generalizing s with
  | nil =>
    cases h with
    | genesis hg => simp [packIds, hg.totalPackCount, hg.newPacks]
  | cons p back ih =>
    cases h with
    | step hext hrest =>
      rw [hext.totalPackCount, ih hrest, packIds_cons s, List.length_append, List.length_map,
        Nat.add_comm]

/-- The policy generation counts the transitions above genesis. -/
theorem chained_policyGeneration {s : OpenedState} {back : List OpenedState}
    (h : Chained P root (s :: back)) :
    s.manifest.policyGeneration = (s :: back).dropLast.countP OpenedState.isTransition := by
  induction back generalizing s with
  | nil =>
    cases h with
    | genesis hg => rw [hg.policy_generation, hg.policyPosition.1]; rfl
  | cons p back ih =>
    cases h with
    | step hext hrest =>
      have hp := ih hrest
      have hpg : p.manifest.policyGeneration = p.policy.body.generation := by
        cases hrest with
        | genesis hg => exact hg.policy_generation
        | step hext' _ => exact hext'.policy_generation
      rw [List.dropLast_cons_of_ne_nil (by simp), List.countP_cons, ← hp, hpg,
        hext.policy_generation]
      -- a writer keeps the policy, and a transition is counted
      cases hext.change with
      | writer ha hpolicy _ => simp [OpenedState.isTransition, ha, hpolicy]
      | policyTransition ha _ hsucc _ _ _ => simp [OpenedState.isTransition, ha, hsucc.generation]

/-- A transition keeps the refs, so they are those of the last writer. -/
theorem chained_headRefs {s : OpenedState} {back : List OpenedState}
    (h : Chained P root (s :: back)) : s.manifest.refs = newestWriterRefs (s :: back) := by
  induction back generalizing s with
  | nil =>
    cases h with
    | genesis hg =>
      have hempty : s.manifest.refs = .empty := SortedMap.eq_empty_of_isEmpty hg.refs
      simp [newestWriterRefs, hg.authorization, hempty]
  | cons p back ih =>
    cases h with
    | step hext hrest =>
      cases hext.change with
      | writer ha _ _ => simp [newestWriterRefs, ha]
      | policyTransition ha _ _ hrefs _ _ =>
        rw [hrefs, ih hrest]
        simp [newestWriterRefs, ha]

/-! ## Every entry -/

theorem Chained.entryOk {chain : List OpenedState} (h : Chained P root chain) :
    ∀ s ∈ chain, EntryOk P s := by
  induction h with
  | genesis hg =>
    intro s hs
    rw [List.mem_singleton] at hs
    rw [hs]
    exact hg.toEntryOk
  | step hext _ ih =>
    intro s hs
    rcases List.mem_cons.mp hs with rfl | hs
    · exact hext.toEntryOk
    · exact ih s hs

/-- **The shape of a chain of entries** without repeated packs. -/
theorem chained_shape {chain : List OpenedState} (h : Chained P root chain)
    (hnd : (packIds chain).Nodup) : Shape P chain where
  generation := by
    rintro newer s older rfl
    exact chained_generation h.suffix
  previous := by
    rintro newer s p older rfl
    exact h.extends.previous
  genesis := by
    obtain ⟨newer, first, rfl, hg⟩ := chained_genesis h
    exact ⟨newer, first, rfl, hg.previous, hg.authorization, hg.refs, hg.newPacks⟩
  link := by
    rintro newer s p older rfl
    exact ⟨h.extends.link, (h.entryOk p (by simp)).commitment⟩
  totalPackCount := by
    rintro newer s older rfl
    exact chained_totalPackCount h.suffix
  packIds_nodup := hnd
  delta := fun s hs => (h.entryOk s hs).delta
  policyGeneration := by
    rintro newer s older rfl
    exact chained_policyGeneration h.suffix
  transition := by
    rintro newer s p older rfl ha
    cases h.extends.change with
    | writer hw _ _ => rw [hw] at ha; cases ha
    | policyTransition _ _ _ hrefs hpacks _ => exact ⟨hrefs, hpacks⟩
  headRefs := by
    rintro head older rfl
    exact chained_headRefs h

end GitE2EE

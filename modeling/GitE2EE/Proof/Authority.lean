import GitE2EE.Proof.Entry

/-!
# Authority and permanence of revocation

Who may sign what is checked entry by entry; that a revocation can never be undone
is checked nowhere. It follows by induction over the chain, because every policy is
compared with the one before it: a record that is in one policy is in every later
one (`Persists`), and a revocation that a policy does not inherit carries that
policy's own generation.
-/

namespace GitE2EE

open Wire Effect

variable {P : Primitives} {root : Text}

/-- The policy lists the device as revoked. -/
def RevokedIn (policy : PolicyState) (deviceId : Text) : Prop :=
  ∃ d ∈ policy.body.devices, d.pub.deviceId = deviceId ∧ d.revokedAt.isSome = true

/-- How an entry is authorized, given the entry before it. -/
def Authorized (P : Primitives) (parent s : OpenedState) : Prop :=
  (s.manifest.authorization = .writer ∧ s.policy = parent.policy
    ∧ ∃ d ∈ s.policy.body.devices, d.activeWriter = true ∧ ManifestSignedBy P s d)
  ∨ (s.manifest.authorization = .policyTransition
    ∧ (∃ d ∈ parent.policy.body.devices, d.activeAdministrator = true ∧ ManifestSignedBy P s d)
    ∧ ∃ d ∈ parent.policy.body.devices, d.activeAdministrator = true
      ∧ PolicySignedBy P s.policy d)

/-- Who holds authority over a whole chain, oldest entry first. -/
structure Authority (P : Primitives) (root : Text) (entries : List OpenedState) : Prop where
  /-- Genesis is one active owner with the root's keys, who signed both objects. -/
  genesis : ∃ first rest owner, entries = first :: rest
    ∧ first.policy.body.devices = [owner] ∧ owner.roles = .owner ∧ owner.active = true
    ∧ repositoryRootForDevice P owner.pub = .ok root
    ∧ PolicySignedBy P first.policy owner ∧ ManifestSignedBy P first owner
  /-- Every later entry is signed by a device that held the role for it. -/
  authorized : ∀ before parent s after, entries = before ++ parent :: s :: after →
    Authorized P parent s
  /-- Records outlive every later policy, with their revocation. -/
  persistent : entries.Pairwise fun older newer => Persists older.policy newer.policy
  /-- A revocation carries the generation of the first policy that revokes. -/
  revocation : ∀ before s after, entries = before ++ s :: after →
    ∀ d ∈ s.policy.body.devices, ∀ g, d.revokedAt = some g →
      g ≤ s.policy.body.generation
        ∧ ∃ older first later, before ++ [s] = older ++ first :: later
          ∧ first.policy.body.generation = g ∧ RevokedIn first.policy d.pub.deviceId
          ∧ ∀ e ∈ older, ¬ RevokedIn e.policy d.pub.deviceId
  /-- No policy is without a reader or without an administrator. -/
  roles : ∀ s ∈ entries, (∃ d ∈ s.policy.body.devices, d.activeReader = true)
    ∧ ∃ d ∈ s.policy.body.devices, d.activeAdministrator = true

/-! ## One step -/

/-- A writer keeps the policy, and a successor keeps its records. -/
theorem Change.persists {p s : OpenedState} (h : Change P p s) : Persists p.policy s.policy := by
  cases h with
  | writer _ hpolicy _ => rw [hpolicy]; exact .refl _
  | policyTransition _ _ hsucc _ _ _ => exact hsucc.persists

/-- Whoever made the change held the role for it. -/
theorem Change.authorized {p s : OpenedState} (h : Change P p s) : Authorized P p s := by
  cases h with
  | writer ha hpolicy hsigned => exact .inl ⟨ha, hpolicy, hsigned⟩
  | policyTransition ha _ hsucc _ _ hsigned => exact .inr ⟨ha, hsigned, hsucc.signed⟩

/-- A revocation persists with its generation. -/
theorem RevokedIn.persists {older newer : PolicyState} {id : Text} (h : Persists older newer)
    (hr : RevokedIn older id) : RevokedIn newer id := by
  obtain ⟨d, hd, hid, hrev⟩ := hr
  obtain ⟨d', hd', hpub, -, hkeep⟩ := h d hd
  exact ⟨d', hd', by rw [hpub, hid], by rw [hkeep hrev]; exact hrev⟩

/-! ## Whole chains, newest first -/

/-- What is below an entry of a chain is a chain. -/
theorem Chained.suffix {front : List OpenedState} {s : OpenedState} {back : List OpenedState}
    (h : Chained P root (front ++ s :: back)) : Chained P root (s :: back) := by
  induction front with
  | nil => exact h
  | cons e front ih =>
    have htail : ∀ l, Chained P root (e :: l) → l ≠ [] → Chained P root l := by
      intro l hl hne
      cases hl with
      | genesis _ => exact absurd rfl hne
      | step _ h => exact h
    exact ih (htail _ h (by simp))

/-- Every policy of a chain passes the checks on a policy by itself. -/
theorem chained_policyOk {chain : List OpenedState} (h : Chained P root chain) :
    ∀ s ∈ chain, PolicyOk s.policy := by
  induction h with
  | genesis hg =>
    intro s hs
    rw [List.mem_singleton] at hs
    rw [hs]
    exact hg.policyOk
  | @step s p chain hext _ ih =>
    intro e he
    rcases List.mem_cons.mp he with rfl | he
    · cases hext.change with
      | writer _ hpolicy _ => rw [hpolicy]; exact ih p List.mem_cons_self
      | policyTransition _ hok _ _ _ _ => exact hok
    · exact ih e he

/-- A record of one policy is in every later one. -/
theorem chained_persists {chain : List OpenedState} (h : Chained P root chain) :
    chain.Pairwise fun newer older => Persists older.policy newer.policy := by
  induction h with
  | genesis _ => exact List.pairwise_singleton _ _
  | @step s p chain hext _ ih =>
    refine List.pairwise_cons.mpr ⟨fun e he => ?_, ih⟩
    have hps := hext.change.persists
    rcases List.mem_cons.mp he with rfl | he
    · exact hps
    · exact ((List.pairwise_cons.mp ih).1 e he).trans hps

/-- The generation of a revocation and the first policy that made it. -/
def FirstRevoked (chain : List OpenedState) (id : Text) (g : Nat) : Prop :=
  ∃ later first older, chain = later ++ first :: older ∧ first.policy.body.generation = g
    ∧ RevokedIn first.policy id ∧ ∀ e ∈ older, ¬ RevokedIn e.policy id

theorem FirstRevoked.cons {chain : List OpenedState} {id : Text} {g : Nat} (s : OpenedState)
    (h : FirstRevoked chain id g) : FirstRevoked (s :: chain) id g := by
  obtain ⟨later, first, older, rfl, hrest⟩ := h
  exact ⟨s :: later, first, older, rfl, hrest⟩

/-- **A revocation at the head of a chain carries the generation of the first policy
that revokes the device.** -/
theorem chained_revocation {s : OpenedState} {back : List OpenedState}
    (h : Chained P root (s :: back)) {d : DeviceRecord} (hd : d ∈ s.policy.body.devices)
    {g : Nat} (hg : d.revokedAt = some g) :
    g ≤ s.policy.body.generation ∧ FirstRevoked (s :: back) d.pub.deviceId g := by
  induction back generalizing s d with
  | nil =>
    cases h with
    | genesis hgen =>
      -- the only record of a genesis policy is active
      obtain ⟨owner, hdevices, -, hactive, -⟩ := hgen.owner
      rw [hdevices, List.mem_singleton] at hd
      subst hd
      rw [DeviceRecord.active, hg] at hactive
      cases hactive
  | cons p rest ih =>
    have hok := chained_policyOk h
    have hpersists := chained_persists h
    cases h with
    | step hext hchain =>
      cases hext.change with
      | writer _ hpolicy _ =>
        rw [hpolicy] at hd ⊢
        obtain ⟨hle, hfirst⟩ := ih hchain hd hg
        exact ⟨hle, hfirst.cons s⟩
      | policyTransition _ hpolicyOk hsucc _ _ _ =>
        by_cases hnew : RevokedIn p.policy d.pub.deviceId
        · -- the parent revoked the device already, and the record kept its generation
          obtain ⟨old, hold, hid, hrev⟩ := hnew
          obtain ⟨d', hd', hpub, -, hkeep⟩ := hsucc.persists old hold
          have hsame : d' = d :=
            List.inj_on_of_nodup_map hpolicyOk.ids_nodup hd' hd (by rw [hpub, hid])
          subst hsame
          obtain ⟨hle, hfirst⟩ := ih hchain hold (by rw [← hkeep hrev, hg])
          rw [hid] at hfirst
          exact ⟨by rw [hsucc.generation]; omega, hfirst.cons s⟩
        · -- it did not, so no policy before it did either
          have hgen : g = s.policy.body.generation := by
            rcases hsucc.revocation d hd g hg with heq | ⟨old, hold, hid, hrev⟩
            · exact heq
            · exact absurd ⟨old, hold, hid, by rw [hrev]; rfl⟩ hnew
          refine ⟨Nat.le_of_eq hgen, [], s, p :: rest, rfl, hgen.symm,
            ⟨d, hd, rfl, by rw [hg]; rfl⟩, fun e he hrev => hnew ?_⟩
          rcases List.mem_cons.mp he with rfl | he
          · exact hrev
          · exact hrev.persists ((List.pairwise_cons.mp (List.pairwise_cons.mp hpersists).2).1 e he)

/-! ## Whole chains, oldest first -/

/-- At the bottom of a chain is a genesis. -/
theorem chained_genesis {chain : List OpenedState} (h : Chained P root chain) :
    ∃ front first, chain = front ++ [first] ∧ Genesis P root first := by
  induction h with
  | @genesis s hg => exact ⟨[], s, rfl, hg⟩
  | @step s p chain _ _ ih =>
    obtain ⟨front, first, heq, hg⟩ := ih
    exact ⟨s :: front, first, by rw [heq]; rfl, hg⟩

/-- Neighbours in a chain extend each other. -/
theorem Chained.extends {front : List OpenedState} {s p : OpenedState} {back : List OpenedState}
    (h : Chained P root (front ++ s :: p :: back)) : Extends P p s := by
  cases h.suffix with
  | step hext _ => exact hext

/-- **Authority over a chain**, put in the order in which it was written. -/
theorem chained_authority {chain : List OpenedState} (h : Chained P root chain) :
    Authority P root chain.reverse where
  genesis := by
    obtain ⟨front, first, rfl, hg⟩ := chained_genesis h
    obtain ⟨owner, howner⟩ := hg.owner
    exact ⟨first, front.reverse, owner, by simp, howner⟩
  authorized := by
    intro before parent s after heq
    have heq' : chain = after.reverse ++ s :: parent :: before.reverse := by
      rw [← List.reverse_reverse chain, heq]
      simp
    rw [heq'] at h
    exact h.extends.change.authorized
  persistent := List.pairwise_reverse.mpr (chained_persists h)
  revocation := by
    intro before s after heq d hd g hg
    have heq' : chain = after.reverse ++ s :: before.reverse := by
      rw [← List.reverse_reverse chain, heq]
      simp
    rw [heq'] at h
    obtain ⟨hle, later, first, older, hsplit, hrest⟩ := chained_revocation h.suffix hd hg
    refine ⟨hle, older.reverse, first, later.reverse, ?_, hrest.1, hrest.2.1, ?_⟩
    · have := congrArg List.reverse hsplit
      simpa using this
    · intro e he
      exact hrest.2.2 e (List.mem_reverse.mp he)
  roles := by
    intro s hs
    have hok := chained_policyOk h s (List.mem_reverse.mp hs)
    exact ⟨hok.reader, hok.administrator⟩

end GitE2EE

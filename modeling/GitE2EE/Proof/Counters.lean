import GitE2EE.Lib.Spec
import GitE2EE.Model.Repository
import GitE2EE.Proof.Shape

/-!
# Counters

What callers do with the counters of an authenticated chain without checking: add
one to a generation, add one to a pack count, and compare the packs they opened with
the count at the head.
-/

namespace GitE2EE

open Wire Effect

variable {S G : Type} {P : Primitives} {storage : Storage S} {key : KeyFile}

/-- The packs of one manifest are counted one by one. -/
theorem countPacks_ok {entry : OpenedState} {count total : Nat} {packs : List PackDescriptor}
    {m m' : Machine S G} (h : countPacks P storage entry count packs m = (.ok total, m')) :
    total = count + packs.length := by
  induction packs generalizing count m with
  | nil => cases h; rfl
  | cons descriptor rest ih =>
    obtain ⟨⟨⟩, m₁, -, h⟩ := Action.bind_eq_ok.mp h
    rw [ih h, List.length_cons]
    omega

/-- Over a chain the count is that of all packs listed in it. -/
theorem countChainPacks_ok {chain : List OpenedState} {count total : Nat} {m m' : Machine S G}
    (h : countChainPacks P storage count chain m = (.ok total, m')) :
    total = count + (packIds chain).length := by
  induction chain generalizing count m with
  | nil => cases h; rfl
  | cons entry rest ih =>
    obtain ⟨count', m₁, hentry, h⟩ := Action.bind_eq_ok.mp h
    rw [ih h, countPacks_ok hentry, packIds_cons, List.length_append, List.length_map,
      Nat.add_assoc]

theorem length_packIds_reverse (chain : List OpenedState) :
    (packIds chain.reverse).length = (packIds chain).length :=
  ((List.reverse_perm chain).flatMap_right _).length_eq

/-- Opening every pack of an authenticated chain counts what its head claims. -/
theorem countChainPacks_head {root : Text} {s : OpenedState} {rest : List OpenedState}
    (hchain : Chained P root (s :: rest)) {total : Nat} {m m' : Machine S G}
    (h : countChainPacks P storage 0 (s :: rest).reverse m = (.ok total, m')) :
    total = s.manifest.totalPackCount := by
  rw [countChainPacks_ok h, length_packIds_reverse, chained_totalPackCount hchain, Nat.zero_add]

/-! ## The comparison of `verify_ciphertext` -/

/-- `verify_ciphertext` without its comparison of pack counts. -/
def verifyCiphertextUncompared (P : Primitives) (storage : Storage S) (key : KeyFile) :
    Action Error (Machine S G) (Accepted Manifest) := do
  lockFloor
  let (current, chain) ← pinnedState P storage key
  let _ ← countChainPacks P storage 0 chain.reverse
  advanceFloor current.id current.manifest
  pure ⟨current.manifest, entriesOf chain⟩

/-- The chain that was read has its counters in order, whatever the storage returned. -/
theorem spec_currentChain_chained :
    Spec (fun _ => True) (currentChain P storage key)
      (fun chain _ => Chained P key.repositoryRoot chain) (fun _ => True) := by
  refine .intro (fun s _ chain s' h => ?_) fun _ _ _ _ _ => trivial
  obtain ⟨head, s₁, -, h⟩ := Action.bind_eq_ok.mp h
  obtain ⟨head', s₂, -, h⟩ := Action.bind_eq_ok.mp h
  exact authentic_chained (chainFrom_ok (readerSpec_any _ _) h).2.1

/-- What is known of a value of the storage is known of it in the machine. -/
theorem spec_onStorage_value {α : Type} {x : Action Error S α} {good : α → Prop}
    (h : Spec (fun _ => True) x (fun a _ => good a) (fun _ => True)) :
    Spec (fun _ => True) (onStorage x : Action Error (Machine S G) α) (fun a _ => good a)
      (fun _ => True) := by
  refine .intro (fun m _ a m' hx => ?_) fun _ _ _ _ _ => trivial
  simp only [onStorage, Action.zoom, Prod.mk.injEq] at hx
  exact h.ok trivial (Prod.ext hx.1 rfl)

/-- So has a pinned chain, and the state returned with it is its head. -/
theorem pinnedState_chained {current : OpenedState} {chain : List OpenedState}
    {m m' : Machine S G} (h : pinnedState P storage key m = (.ok (current, chain), m')) :
    chain.head? = some current ∧ Chained P key.repositoryRoot chain := by
  have hchain : Spec (fun _ : Machine S G => True) (pinnedChain P storage key)
      (fun chain _ => Chained P key.repositoryRoot chain) (fun _ => True) := by
    refine Spec.bind (fun _ _ => True) (.intro (fun _ _ _ _ _ => trivial)
      fun _ _ _ _ _ => trivial) fun floor => ?_
    -- the floor plays no part: either look reads an authentic chain
    refine (spec_onStorage_value spec_currentChain_chained).bind _ fun chain => ?_
    split
    · exact .pure fun _ h => h
    · refine Spec.bind (fun _ _ => True) (.intro (fun _ _ _ _ _ => trivial)
        fun _ _ _ _ _ => trivial) fun refreshed => ?_
      split
      · exact .fail fun _ _ => trivial
      · -- the second look, after a refresh
        refine (spec_onStorage_value spec_currentChain_chained).bind _ fun chain' => ?_
        exact Spec.bind (fun _ _ => Chained P key.repositoryRoot chain')
          (.lift (fun _ _ _ h => h) fun _ _ => trivial) fun _ => .pure fun _ h => h
  obtain ⟨chain', m₁, hpinned, h⟩ := Action.bind_eq_ok.mp h
  obtain ⟨current', m₂, hlift, hpure⟩ := Action.bind_eq_ok.mp h
  obtain ⟨hhead, rfl⟩ := Action.lift_eq_ok.mp hlift
  cases hpure
  exact ⟨orBail_eq_ok.mp hhead, hchain.ok trivial hpinned⟩

/-- The comparison never fails: leaving it out changes no run. -/
theorem verifyCiphertext_eq_uncompared :
    (verifyCiphertext P storage key : Action Error (Machine S G) _)
      = verifyCiphertextUncompared P storage key := by
  funext m
  refine Action.bind_congr_ok fun _ m₁ _ => Action.bind_congr_ok fun r m₂ hpinned => ?_
  obtain ⟨current, chain⟩ := r
  obtain ⟨hhead, hchained⟩ := pinnedState_chained hpinned
  obtain ⟨rest, rfl⟩ := List.head?_eq_some_iff.mp hhead
  refine Action.bind_congr_ok fun count m₃ hcount => ?_
  -- both sides of the comparison are the count at the head
  rw [countChainPacks_head hchained hcount]
  show (Action.lift (bailIf (current.manifest.totalPackCount ≠ current.manifest.totalPackCount) _)
    >>= _) m₃ = _
  rw [show bailIf (current.manifest.totalPackCount ≠ current.manifest.totalPackCount)
    "manifest delta log pack count mismatch" = .ok () from bailIf_eq_ok.mpr (by simp)]
  rfl

end GitE2EE

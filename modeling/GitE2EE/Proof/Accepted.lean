import GitE2EE.Proof.Counters
import GitE2EE.Proof.Directory
import GitE2EE.Proof.Readers
import GitE2EE.Proof.Samples

/-!
# What an accepted chain says

The results about whatever `chainFrom` accepts: who held authority, how the chain is
shaped, and that every active reader gets the same chain. Each is followed by an
instance, on a directory that holds a chain of the reference libraries.
-/

namespace GitE2EE

open Wire Effect

variable {P : Primitives} {key : KeyFile}

namespace Reference

/-- A directory with these manifests and HEAD. -/
def shelf (objects : List Bytes) (head : Text) : Directory where
  format := some (.regular Directory.STORAGE_FORMAT)
  head := some (Directory.writtenHead head)
  objects kind id := match kind with
    | .manifest => (objects.find? (objectId primitives · = id)).map .regular
    | .pack => none

def shelfStorage : Storage Directory := Directory.storage primitives "shelf"

/-- A checkout that has no objects and keeps its progress. -/
def checkout : GitRepository (Option CheckoutProgress) where
  resolveRef name := Action.fail (.msg s!"unknown revision {render name}")
  objectExists _ := pure false
  ensureBranchTarget _ _ := pure ()
  isAncestor _ _ := pure false
  startIncrementalPack _ _ := pure ⟨[], none⟩
  finishPack := pure ()
  startPackImport := pure ()
  writePackImport _ := pure ()
  finishPackImport := pure ()
  ensureRefsConnectedSince _ _ := pure ()
  hasCompleteObjectGraph _ := true
  openCheckout := pure ()
  readProgress := Action.get
  writeProgress progress := Action.modify fun _ => some progress

theorem shelf_holds {objects : List Bytes} {head : Text}
    (hinj : Set.InjOn (objectId primitives) { object | object ∈ objects }) :
    (shelf objects head).Holds primitives objects := by
  intro object hobject
  have hfind : objects.find? (objectId primitives · = objectId primitives object)
      = some object := by
    refine find?_eq_some_of_unique hobject (by simp) fun other hother h => ?_
    exact hinj hother hobject (by simpa using h)
  show (objects.find? _).map _ = _
  rw [hfind]
  rfl

/-- The owner opens the head of a sample. -/
theorem Sample.unwraps {n : Nat} {objects : List Bytes} {p : OpenedState}
    {chain : List OpenedState} (h : Sample n objects p chain) :
    unwrapGenerationKey primitives p.header ownerKey = .ok p.generationKey := by
  have hchained := authentic_chained h.authentic
  have hentry := hchained.entryOk p List.mem_cons_self
  have harchive := shelved_archive h.injective
  obtain ⟨m, hm, hheader⟩ := authentic_stored harchive h.authentic p List.mem_cons_self
  refine unwrapGenerationKey_of_audited hpkeInverts hentry.envelopes
    (chained_policyOk hchained p List.mem_cons_self) ?_ hentry.commitment h.owner rfl ?_
    (publicDevice_keyFile root Reference.owner) commitKey_injective.injOn
  · rw [← hheader]
    exact peekManifestHeader_public (harchive.peek hm)
  · rw [← hentry.root_header, h.repositoryRoot]
    rfl

/-- **The owner is given the whole sample.** -/
theorem Sample.accepted {n : Nat} {objects : List Bytes} {p : OpenedState}
    {chain : List OpenedState} (h : Sample n objects p chain) (hsmall : Small objects) :
    chainFrom primitives ownerKey (readManifestMaterial primitives shelfStorage) unbudgeted p.id
      (shelf objects p.id) = (.ok (p :: chain), shelf objects p.id) := by
  obtain ⟨d, hwalk, rfl⟩ := chainFrom_of_authentic (shelved_archive h.injective)
    ((shelf_holds h.injective).serves hsmall) h.authentic h.packs_nodup rfl h.unwraps (n := 0) rfl
  exact hwalk

end Reference

/-! ## Authority -/

/-- **Authority over every accepted chain.** Whatever storage holds and however long
the chain is, a chain that `chainFrom` accepts under a key file derives all authority
from the owner whose keys hash to the key file's root, and never undoes a
revocation. -/
theorem chainFrom_authority {σ : Type} {key : KeyFile}
    {readMaterial : Text → Action Error σ Material}
    {charge : ManifestHeader → Nat → Action Error σ Unit} {head : Text}
    {chain : List OpenedState} {s s' : σ}
    (h : chainFrom P key readMaterial charge head s = (.ok chain, s')) :
    Authority P key.repositoryRoot chain.reverse :=
  chained_authority (authentic_chained (chainFrom_ok (readerSpec_any readMaterial charge) h).2.1)

/-- An owner adds a device: the chain of two policies is accepted, so it has authority. -/
theorem chainFrom_authority_team : ∃ objects p s,
    chainFrom Reference.primitives Reference.ownerKey
        (readManifestMaterial Reference.primitives Reference.shelfStorage) unbudgeted s.id
        (Reference.shelf objects s.id) = (.ok [s, p], Reference.shelf objects s.id)
      ∧ s.policy.body.devices = [Reference.ownerRecord, Reference.memberRecord]
      ∧ Authority Reference.primitives Reference.root [p, s] := by
  obtain ⟨objects, p, s, h, hsmall, hdevices, -⟩ := Reference.team_exists
  exact ⟨objects, p, s, h.accepted hsmall, hdevices, chainFrom_authority (h.accepted hsmall)⟩

/-! ## Shape -/

/-- **The shape of every authenticated chain**, and what callers may do with its
counters unchecked: the next generation fits if the chain is shorter than `2 ^ 64`, the
next pack count if the chain names fewer than `2 ^ 64 - 1` packs, and the pack counts
that `verify_ciphertext` compares are always equal. -/
theorem chainFrom_shape {σ : Type} {readMaterial : Text → Action Error σ Material}
    {charge : ManifestHeader → Nat → Action Error σ Unit} {head : Text}
    {chain : List OpenedState} {s s' : σ}
    (h : chainFrom P key readMaterial charge head s = (.ok chain, s')) :
    Shape P chain
      ∧ (chain.length < 2 ^ 64 → ∀ e ∈ chain, e.manifest.generation + 1 < 2 ^ 64)
      ∧ ((packIds chain).length < 2 ^ 64 - 1 → ∀ e ∈ chain,
          e.manifest.totalPackCount + 1 < 2 ^ 64)
      ∧ ∀ (S G : Type) (storage : Storage S),
          (verifyCiphertext P storage key : Action Error (Machine S G) _)
            = verifyCiphertextUncompared P storage key := by
  obtain ⟨-, hauthentic, hnd, -⟩ := chainFrom_ok (readerSpec_any readMaterial charge) h
  have hshape := chained_shape (authentic_chained hauthentic) hnd
  refine ⟨hshape, fun hlength e he => ?_, fun hpacks e he => ?_, fun S G storage =>
    verifyCiphertext_eq_uncompared⟩
  · -- the generation of an entry is the number of entries below it
    obtain ⟨newer, older, heq⟩ := List.append_of_mem he
    rw [hshape.generation newer e older heq]
    rw [heq, List.length_append, List.length_cons] at hlength
    omega
  · obtain ⟨newer, older, heq⟩ := List.append_of_mem he
    rw [hshape.totalPackCount newer e older heq]
    have hsub : (packIds (e :: older)).length ≤ (packIds chain).length := by
      rw [heq, packIds, packIds, List.flatMap_append, List.length_append]
      omega
    omega

/-- One push of three packs. -/
theorem chainFrom_shape_push : ∃ objects p genesis,
    chainFrom Reference.primitives Reference.ownerKey
        (readManifestMaterial Reference.primitives Reference.shelfStorage) unbudgeted p.id
        (Reference.shelf objects p.id) = (.ok [p, genesis], Reference.shelf objects p.id)
      ∧ p.manifest.totalPackCount = 3 ∧ Shape Reference.primitives [p, genesis] := by
  obtain ⟨objects, p, chain, h, hlength, htotal, hsmall, -⟩ :=
    Reference.sample_exists 3 1 (by decide) (by decide)
  obtain ⟨genesis, rfl⟩ := List.length_eq_one_iff.mp hlength
  have haccepted := h.accepted (hsmall (by decide))
  exact ⟨objects, p, genesis, haccepted, htotal, (chainFrom_shape haccepted).1⟩

/-- A chain of fewer than `2 ^ 64` entries whose pack count has no successor: three packs
in each of a third of `2 ^ 64 - 1` pushes. -/
theorem packCount_without_successor : ∃ objects p chain,
    chainFrom Reference.primitives Reference.ownerKey
        (readManifestMaterial Reference.primitives Reference.shelfStorage) unbudgeted p.id
        (Reference.shelf objects p.id) = (.ok (p :: chain), Reference.shelf objects p.id)
      ∧ (p :: chain).length < 2 ^ 64 ∧ ¬ p.manifest.totalPackCount + 1 < 2 ^ 64 := by
  obtain ⟨objects, p, chain, h, hlength, htotal, hsmall, -⟩ :=
    Reference.sample_exists 3 6148914691236517205 (by decide) (by decide)
  refine ⟨objects, p, chain, h.accepted (hsmall (by decide)), ?_, ?_⟩
  · rw [List.length_cons, hlength]
    decide
  · rw [htotal]
    decide

/-! ## Agreement -/

/-- **Reader agreement.** Once one device accepts a chain from a storage, every active
reader of the policy at its head opens the head with the same key, and accepts the same
chain from the same storage. -/
theorem readers_agree {S : Type} {storage : Storage S} (hhpke : HpkeInverts P) {head : Text}
    {first : OpenedState} {rest : List OpenedState} {s s' : S}
    (h : chainFrom P key (readManifestMaterial P storage) unbudgeted head s
      = (.ok (first :: rest), s'))
    {d : DeviceRecord} (hd : d ∈ first.policy.body.devices) (hactive : d.activeReader = true)
    {key' : KeyFile} (hroot : key'.repositoryRoot = key.repositoryRoot)
    (hkey : key'.publicDevice P = .ok d.pub)
    (hinj : Set.InjOn (commitKey P) (insert first.generationKey (keysTried P first.header key'))) :
    unwrapGenerationKey P first.header key' = .ok first.generationKey
      ∧ chainFrom P key' (readManifestMaterial P storage) unbudgeted head s
        = (.ok (first :: rest), s') :=
  chainFrom_agrees (readManifestMaterial_peeks storage) hhpke h hd hactive hroot hkey hinj

/-- The device that the owner added opens the chain that the owner opens. -/
theorem readers_agree_team : ∃ objects p s,
    chainFrom Reference.primitives Reference.ownerKey
        (readManifestMaterial Reference.primitives Reference.shelfStorage) unbudgeted s.id
        (Reference.shelf objects s.id) = (.ok [s, p], Reference.shelf objects s.id)
      ∧ Reference.memberRecord ∈ s.policy.body.devices
      ∧ unwrapGenerationKey Reference.primitives s.header Reference.memberKey
        = .ok s.generationKey
      ∧ chainFrom Reference.primitives Reference.memberKey
        (readManifestMaterial Reference.primitives Reference.shelfStorage) unbudgeted s.id
        (Reference.shelf objects s.id) = (.ok [s, p], Reference.shelf objects s.id) := by
  obtain ⟨objects, p, s, h, hsmall, hdevices, -⟩ := Reference.team_exists
  have hmember : Reference.memberRecord ∈ s.policy.body.devices := by rw [hdevices]; simp
  exact ⟨objects, p, s, h.accepted hsmall, hmember, readers_agree Reference.hpkeInverts
    (h.accepted hsmall) hmember rfl rfl
    (Reference.publicDevice_keyFile Reference.root Reference.member)
    Reference.commitKey_injective.injOn⟩

end GitE2EE

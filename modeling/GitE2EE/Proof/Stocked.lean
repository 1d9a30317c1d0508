import GitE2EE.Proof.Push

/-!
# The operations on a stocked directory

A directory that holds a genesis and one push of a tag. On a machine at it, whose floor was
never set or is at its head, the operations go through: the head is listed and fetched, a
deletion of the tag is rehearsed, and it is published. The instances of the theorems about
whole operations are runs on this directory.
-/

namespace GitE2EE

open Wire Effect

namespace Reference

variable {S G : Type} {P : Primitives} {key : KeyFile} {location : String}

/-- The tag that is deleted. -/
def release : Text := text "refs/tags/v1"

/-- What the tag points at. -/
def taggedObject : Text := text "0123456789abcdef0123456789abcdef01234567"

/-- The refs of the repository. -/
def tagged : RefMap := SortedMap.empty.insert release taggedObject

/-- The push that deletes the tag. -/
def deletion : List RefPush := [⟨release, .delete⟩]

/-- A repository whose only ref is the tag. -/
structure Stocked (objects : List Bytes) (p : OpenedState) (chain : List OpenedState) : Prop where
  sample : Sample 1 objects p chain
  small : Small objects
  refs : p.manifest.refs = tagged
  totalPackCount : p.manifest.totalPackCount = 0

/-- There is such a repository: a genesis, and a push of the tag. -/
theorem stocked_exists : ∃ objects p chain, Stocked objects p chain := by
  obtain ⟨object, p, h, hsmall, -, -, htotal, -⟩ := sample_genesis
  have hencodable : RefMap.Encodable tagged := by
    intro e he
    obtain rfl : e = (release, taggedObject) := List.mem_singleton.mp he
    exact ⟨isUtf8_text _, isUtf8_text _⟩
  obtain ⟨object', s, hs, hrefs, -, -, hstotal, hsmall'⟩ := sample_refs h (by decide) [] tagged
    (by rw [htotal]; decide) rfl (fun _ hp => (by cases hp)) hencodable .nil
    (fun _ hp => (by cases hp))
  refine ⟨_, s, _, hs, fun o ho => ?_, hrefs, by rw [hstotal, htotal]; rfl⟩
  rcases List.mem_cons.mp ho with rfl | ho
  · exact hsmall' (by decide) (by decide)
  · exact hsmall o ho

/-! ## Facts about samples -/

section

variable {n : Nat} {objects : List Bytes} {p : OpenedState} {chain : List OpenedState}

/-- The owner may write. -/
theorem Sample.writes (h : Sample n objects p chain) :
    requireWriter primitives ownerKey p.policy = .ok () := by
  have hpolicy := chained_policyOk (authentic_chained h.authentic) p List.mem_cons_self
  have hid := (publicDevice_ok (publicDevice_keyFile root Reference.owner)).2.2.2.2.1
  have hactive : p.policy.isActiveWriter ownerRecord.pub.deviceId = true := by
    rw [PolicyState.isActiveWriter, hpolicy.device_eq h.owner]
    rfl
  simp only [requireWriter, except_bind_eq_ok]
  exact ⟨ownerRecord.pub.deviceId, hid, by rw [if_pos hactive]; rfl⟩

theorem Sample.formatted (h : Sample n objects p chain) :
    (shelf objects p.id).Formatted (some p.id) where
  format := rfl
  valid := by
    rintro _ ⟨⟩
    exact isObjectId_digest (authentic_id h.authentic)
  names := rfl

/-- The head of the directory stands. -/
theorem Sample.standing (h : Sample n objects p chain) :
    Directory.standing location (shelf objects p.id) = some p.id := by
  rw [Directory.standing, h.formatted.readHead]
  rfl

/-- The directory serves its chain. -/
theorem Sample.current (h : Sample n objects p chain) (hsmall : Small objects) :
    currentChain primitives (Directory.storage primitives "shelf") ownerKey (shelf objects p.id)
      = (.ok (p :: chain), shelf objects p.id) :=
  Directory.currentChain_held (shelf_holds h.injective) hsmall h.injective h.authentic
    h.packs_nodup rfl h.unwraps h.formatted

/-- No manifest of a sample has the id of the next one. -/
theorem Sample.fresh (h : Sample n objects p chain) (hn : n + 1 < 2 ^ 64) :
    ∀ object ∈ objects, objectId primitives object ≠ hexEncode (number (n + 1)).val := by
  intro object hobject heq
  obtain ⟨g, hg, hid⟩ := h.ids object hobject
  have := number_injective (by omega) hn (Subtype.ext (hexEncode_injective (hid.symm.trans heq)))
  omega

theorem Sample.id_ne (h : Sample n objects p chain) (hn : n + 1 < 2 ^ 64) :
    hexEncode (number (n + 1)).val ≠ p.id := by
  obtain ⟨m, hm, -⟩ := authentic_stored (shelved_archive h.injective) h.authentic p
    List.mem_cons_self
  obtain ⟨-, -, hid, -⟩ := checkMaterial_ok hm.2
  rw [← hid]
  exact (h.fresh hn _ hm.1).symm

/-- The next id is free. -/
theorem Sample.unshelved (h : Sample n objects p chain) (hn : n + 1 < 2 ^ 64) :
    (shelf objects p.id).objects .manifest (hexEncode (number (n + 1)).val) = none := by
  show (objects.find? _).map _ = none
  rw [Option.map_eq_none_iff, List.find?_eq_none]
  intro object hobject
  simpa using h.fresh hn object hobject

/-- There is nothing to import. -/
theorem Stocked.packless (h : Stocked objects p chain) :
    ∀ entry ∈ p :: chain, entry.manifest.newPacks = [] := by
  have hcount := chained_totalPackCount (authentic_chained h.sample.authentic)
  rw [h.totalPackCount] at hcount
  have hnone : packIds (p :: chain) = [] := List.eq_nil_of_length_eq_zero hcount.symm
  intro entry hentry
  have hids := List.flatMap_eq_nil_iff.mp hnone entry hentry
  exact List.map_eq_nil_iff.mp hids

end

/-! ## Deleting the tag -/

/-- The deletion passes preflight, in whatever checkout. -/
theorem preflight_deletion {storage : Storage S} {repo : GitRepository G} {s s' : S} {git : G}
    {file file₁ file' : FloorFile} {p : OpenedState} {chain : List OpenedState}
    (hlock : FloorGuard.acquire file = (.ok (), file₁))
    (hpinned : pinnedState P storage key (⟨s, file₁, git⟩ : Machine S G)
      = (.ok (p, chain), ⟨s', file', git⟩))
    (hwriter : requireWriter P key p.policy = .ok ()) (hrefs : p.manifest.refs = tagged) :
    preflight P storage repo key deletion ⟨s, file, git⟩
      = (.ok ⟨p, chain, ⟨[release], .empty, .empty, [.accepted]⟩⟩, ⟨s', file', git⟩) := by
  refine Action.bind_eq_ok.mpr ⟨(), ⟨s, file₁, git⟩, ?_, ?_⟩
  · simp only [lockFloor, onFloor, Action.zoom, hlock]
  refine Action.bind_eq_ok.mpr ⟨_, _, hpinned, ?_⟩
  refine Action.bind_eq_ok.mpr ⟨(), _, Action.lift_eq_ok.mpr ⟨hwriter, rfl⟩, ?_⟩
  rw [hrefs]
  refine Action.bind_eq_ok.mpr ⟨(), _, Action.lift_eq_ok.mpr ⟨by decide, rfl⟩, ?_⟩
  exact Action.bind_eq_ok.mpr ⟨⟨[release], .empty, .empty, [.accepted]⟩, _, rfl, rfl⟩

/-- Its commit, on a directory that takes the manifest. -/
theorem commitRefs_deletion {repo : GitRepository G} {d : Directory} {p : OpenedState}
    {draws : Draws} {prepared : Prepared} {id : Text} {encrypted : Bytes} {floor : FloorFile}
    {git : G} (hgen : p.manifest.generation + 1 < 2 ^ 64)
    (hprepared : prepareRefs P draws p (p.manifest.generation + 1) [] .empty = .ok prepared)
    (hsealed : sealNext P key draws.coins (some p) prepared = .ok (id, encrypted))
    (hcheck : selfCheck P (some p) prepared encrypted = .ok ())
    (hsmall : encrypted.length ≤ MAX_MANIFEST_BYTES) (hnew : d.objects .manifest id = none)
    (hhead : d.readHead location = .ok (some p.id)) :
    commitRefs P (Directory.storage P location) repo key draws p .empty .empty ⟨d, floor, git⟩
      = (.ok (id, prepared.manifest),
        ⟨(d.withObject .manifest id encrypted).replaceHead id false, floor, git⟩) := by
  have hcommit : commitManifest P (Directory.storage P location) key draws.coins (some p) prepared d
      = (.ok id, (d.withObject .manifest id encrypted).replaceHead id false) :=
    Directory.commitManifest_held hsealed hcheck hsmall hnew hhead
  refine Action.bind_eq_ok.mpr ⟨p.manifest.generation + 1, _, Action.lift_eq_ok.mpr
    ⟨orBail_eq_ok.mpr (checkedAdd_eq_some.mpr ⟨rfl, hgen⟩), rfl⟩, ?_⟩
  refine Action.bind_eq_ok.mpr ⟨[], ⟨d, floor, git⟩, rfl, ?_⟩
  refine Action.bind_eq_ok.mpr ⟨prepared, _, Action.lift_eq_ok.mpr ⟨hprepared, rfl⟩, ?_⟩
  refine Action.bind_eq_ok.mpr ⟨id, _, ?_, rfl⟩
  simp only [onStorage, Action.zoom, hcommit]

section

variable {objects : List Bytes} {p : OpenedState} {chain : List OpenedState}

/-- The deletion passes preflight on a machine that can take its lock and read its floor. -/
theorem Stocked.preflight (h : Stocked objects p chain) (repo : GitRepository G) (git : G)
    (faults : List Fault) :
    preflight primitives (Directory.storage primitives "shelf") repo ownerKey deletion
        ⟨shelf objects p.id, ⟨none, .none :: .none :: faults⟩, git⟩
      = (.ok ⟨p, p :: chain, ⟨[release], .empty, .empty, [.accepted]⟩⟩,
        ⟨shelf objects p.id, ⟨none, faults⟩, git⟩) :=
  preflight_deletion rfl (pinnedState_of_chain rfl (h.sample.current h.small) rfl) h.sample.writes
    h.refs

/-- It changes the refs. -/
theorem Stocked.changes (h : Stocked objects p chain) : SortedMap.empty ≠ p.manifest.refs := by
  rw [h.refs]
  decide

/-- Its manifest is stored, and HEAD moves to it. -/
theorem Stocked.commits (h : Stocked objects p chain) : ∃ id manifest d, id ≠ p.id
    ∧ ∀ {G : Type} (repo : GitRepository G) (git : G) (floor : FloorFile),
      commitRefs primitives (Directory.storage primitives "shelf") repo ownerKey (draws 2) p
          .empty .empty ⟨shelf objects p.id, floor, git⟩
        = (.ok (id, manifest), ⟨d, floor, git⟩) := by
  obtain ⟨prepared, parts, hprepared, hsealed, hpublishes, hlink, hfits⟩ := refs_published h.sample
    (by decide) [] .empty (by rw [h.totalPackCount]; decide) rfl (fun _ hp => (by cases hp))
    (fun _ he => (by cases he))
  have hcheck : selfCheck primitives (some p) prepared _ = .ok () := hpublishes.selfCheck lawful
    (prepareRefs_parentPolicy hprepared) (by rintro _ ⟨⟩; exact hlink)
  have hid : objectId primitives (parts.encrypted primitives prepared.generationKey
      prepared.manifest) = hexEncode (number 2).val := by
    rw [objectId_encrypted (hpublishes.sealed.framed hpublishes.encodable.generation
      hpublishes.encodable.previous), (prepareRefs_ok hprepared).2.2.2.1]
  rw [hid] at hsealed
  refine ⟨hexEncode (number 2).val, prepared.manifest, _, h.sample.id_ne (by decide),
    fun repo git floor => commitRefs_deletion (by rw [h.sample.generation]; decide) ?_ hsealed
      hcheck (hfits (by decide) (by decide)) (h.sample.unshelved (by decide))
      h.sample.formatted.readHead⟩
  rw [h.sample.generation]
  exact hprepared

/-! ## Listing, rehearsing and fetching -/

/-- A machine at the directory, between two operations. -/
def atShelf (objects : List Bytes) (p : OpenedState) (floor : Option ContinuityFloor)
    (progress : Option CheckoutProgress) : Machine Directory (Option CheckoutProgress) :=
  ⟨shelf objects p.id, ⟨floor, []⟩, progress⟩

/-- What the checkout has recorded about this head. -/
def recorded (p : OpenedState) : CheckoutProgress :=
  ⟨CHECKOUT_PROGRESS_FORMAT, some p.manifest.generation, p.manifest.refs⟩

/-- The chain is pinned under a floor at its head, or none. -/
theorem Stocked.pinned (h : Stocked objects p chain) {floor : Option ContinuityFloor}
    (hfloor : Rests p floor) (progress : Option CheckoutProgress) :
    pinnedState primitives (Directory.storage primitives "shelf") ownerKey
        (atShelf objects p floor progress)
      = (.ok (p, p :: chain), atShelf objects p floor progress) :=
  pinnedState_of_chain hfloor.read (h.sample.current h.small) (hfloor.validatePinnedHead chain)

theorem Stocked.valid (h : Stocked objects p chain) :
    validateInnerRefs p.manifest.refs = .ok () := by
  rw [h.refs]
  decide

/-- The first listing. -/
theorem Stocked.observes (h : Stocked objects p chain) :
    observeManifest primitives (Directory.storage primitives "shelf") checkout ownerKey
        (atShelf objects p none none)
      = (.ok ⟨p.manifest, entriesOf (p :: chain)⟩,
        atShelf objects p (some (ContinuityFloor.at p.id p.manifest)) (some (recorded p))) := by
  have hfloor : Rests p none := fun _ hnone => by cases hnone
  refine Action.bind_eq_ok.mpr ⟨(), atShelf objects p none none, rfl, ?_⟩
  refine Action.bind_eq_ok.mpr ⟨(), atShelf objects p none none, rfl, ?_⟩
  refine Action.bind_eq_ok.mpr ⟨(p, p :: chain), _, h.pinned hfloor none, ?_⟩
  refine Action.bind_eq_ok.mpr ⟨(), _, Action.lift_eq_ok.mpr ⟨h.valid, rfl⟩, ?_⟩
  refine Action.bind_eq_ok.mpr ⟨(), _, hfloor.advanceFloor _ _, ?_⟩
  exact Action.bind_eq_ok.mpr ⟨(), _, rfl, rfl⟩

/-- A dry run of the deletion. -/
theorem Stocked.rehearses (h : Stocked objects p chain) (draws : Draws)
    {floor : Option ContinuityFloor} (hfloor : Rests p floor) (progress : Option CheckoutProgress) :
    push primitives (Directory.storage primitives "shelf") checkout ownerKey deletion .dryRun draws
        (atShelf objects p floor progress)
      = (.ok ⟨⟨[.accepted], .ok p.id⟩, entriesOf (p :: chain)⟩,
        atShelf objects p (some (ContinuityFloor.at p.id p.manifest)) progress) := by
  have hchecked : GitE2EE.preflight primitives (Directory.storage primitives "shelf") checkout
      ownerKey deletion (atShelf objects p floor progress)
        = (.ok ⟨p, p :: chain, ⟨[release], .empty, .empty, [.accepted]⟩⟩,
          atShelf objects p floor progress) :=
    preflight_deletion rfl (h.pinned hfloor progress) h.sample.writes h.refs
  rw [push_eq, Action.bind_of_ok hchecked, pushPublication, if_pos (.inl rfl), bind_assoc]
  exact Action.bind_eq_ok.mpr ⟨(), _, hfloor.advanceFloor _ _, rfl⟩

theorem forEach_of_unchanged {σ α : Type} {step : α → Action Error σ Unit} {l : List α} {m : σ}
    (h : ∀ a ∈ l, step a m = (.ok (), m)) : forEach step l m = (.ok (), m) := by
  induction l with
  | nil => rfl
  | cons a rest ih =>
    exact Action.bind_eq_ok.mpr ⟨(), m, h a List.mem_cons_self,
      ih fun b hb => h b (List.mem_cons_of_mem _ hb)⟩

/-- Without packs an import passes over the chain. -/
theorem importChainPacks_packless {storage : Storage S} {repo : GitRepository G}
    {entries : List OpenedState} (h : ∀ entry ∈ entries, entry.manifest.newPacks = [])
    (afterGeneration : Option Nat) (m : Machine S G) :
    importChainPacks P storage repo entries afterGeneration m = (.ok (), m) := by
  refine forEach_of_unchanged fun entry hentry => ?_
  split
  · rfl
  · rw [h entry (List.mem_reverse.mp hentry)]
    rfl

/-- A fetch, whatever the checkout has recorded. -/
theorem Stocked.imports (h : Stocked objects p chain) {floor : Option ContinuityFloor}
    (hfloor : Rests p floor) {progress : Option CheckoutProgress} {stored : CheckoutProgress}
    (hprogress : Checkout.checkFormat progress = .ok stored) :
    importPacks primitives (Directory.storage primitives "shelf") checkout ownerKey
        (atShelf objects p floor progress)
      = (.ok ⟨p.manifest, entriesOf (p :: chain)⟩,
        atShelf objects p (some (ContinuityFloor.at p.id p.manifest)) (some (recorded p))) := by
  refine Action.bind_eq_ok.mpr ⟨(), atShelf objects p floor progress, rfl, ?_⟩
  refine Action.bind_eq_ok.mpr ⟨(), atShelf objects p floor progress, rfl, ?_⟩
  refine Action.bind_eq_ok.mpr ⟨(p, p :: chain), _, h.pinned hfloor progress, ?_⟩
  refine Action.bind_eq_ok.mpr ⟨(), _, Action.lift_eq_ok.mpr ⟨h.valid, rfl⟩, ?_⟩
  refine Action.bind_eq_ok.mpr ⟨stored, atShelf objects p floor progress, ?_, ?_⟩
  · have hread : Checkout.read checkout progress = (.ok stored, progress) :=
      Action.bind_eq_ok.mpr ⟨progress, progress, rfl, Action.lift_eq_ok.mpr ⟨hprogress, rfl⟩⟩
    simp only [onGit, Action.zoom, atShelf, hread]
  refine Action.bind_eq_ok.mpr ⟨(), atShelf objects p floor progress, ?_, ?_⟩
  · exact Action.bind_eq_ok.mpr ⟨(), _, importChainPacks_packless h.packless _ _,
      Action.bind_eq_ok.mpr ⟨.ok (), _, rfl, rfl⟩⟩
  refine Action.bind_eq_ok.mpr ⟨(), _, hfloor.advanceFloor _ _, ?_⟩
  exact Action.bind_eq_ok.mpr ⟨(), _, rfl, rfl⟩

end

end Reference

end GitE2EE

import GitE2EE.Proof.Push

/-!
# Membership changes

`create`, `parse` and the two successor checks enforce overlapping rules. What one of a
policy's administrators builds through `add_device` or `revoke_device` passes all of them,
so nothing is published that readers would refuse, and it differs from the parent in one
device record.
-/

namespace GitE2EE

open Wire Effect

variable {P : Primitives} {root : Text} {key : KeyFile} {S G : Type}

/-! ## Every policy of a chain needs one administrator -/

/-- A policy is inherited or parsed, and `parse` asks for a threshold of one. -/
theorem namedPolicy_threshold {parent policy : PolicyState} {parentPolicy : Option PolicyState}
    {manifest : Manifest} (hparent : parent.body.adminThreshold = 1)
    (h : namedPolicy P parent manifest = .ok (policy, parentPolicy)) :
    policy.body.adminThreshold = 1 := by
  unfold namedPolicy at h
  cases hauth : manifest.authorization with
  | writer =>
    simp only [hauth, except_bind_eq_ok] at h
    obtain ⟨⟨⟩, -, h⟩ := h
    cases h
    exact hparent
  | policyTransition =>
    simp only [hauth, except_bind_eq_ok] at h
    obtain ⟨bytes, -, parsed, hparse, ⟨⟩, -, h⟩ := h
    cases h
    exact (parse_ok hparse).2.2
  | checkpoint =>
    rw [hauth] at h
    cases h

/-- So one administrator is enough all along a chain. -/
theorem authentic_threshold {M : Text → Material → Prop} {p : OpenedState}
    {chain : List OpenedState} (h : Authentic P root M (p :: chain)) :
    p.policy.body.adminThreshold = 1 := by
  generalize hwhole : p :: chain = whole at h
  induction h generalizing p chain with
  -- genesis is parsed by everybody who reads it
  | genesis hread hverify =>
    cases hwhole
    obtain ⟨_, hselect, -⟩ := verifyEntry_ok hverify
    simp only [selectPolicy, genesisPolicy, except_bind_eq_ok] at hselect
    obtain ⟨policy, ⟨bytes, -, parsed, hparse, ⟨⟩, -, ⟨⟩, -, hpolicy⟩, hpair⟩ := hselect
    cases hpolicy
    cases hpair
    exact (parse_ok hparse).2.2
  | step hread hlink hverify _ ih =>
    cases hwhole
    obtain ⟨_, hselect, -⟩ := verifyEntry_ok hverify
    simp only [selectPolicy, successorPolicy, except_bind_eq_ok] at hselect
    obtain ⟨⟨policy, parent⟩, hnamed, ⟨⟩, -, hpair⟩ := hselect
    cases hpair
    exact namedPolicy_threshold (ih rfl) hnamed

/-! ## The device lists -/

/-- Where ids are unique, a list that keeps every record lets each be found. -/
theorem Continues.of_mem {policy : PolicyState} {devices : List DeviceRecord}
    (hpolicy : PolicyOk policy) (hnodup : (devices.map fun d => d.pub.deviceId).Nodup)
    (hkept : ∀ old ∈ policy.body.devices, ∃ new ∈ devices, new.pub = old.pub
      ∧ new.label = old.label ∧ (new.revokedAt = old.revokedAt
        ∨ old.revokedAt = none ∧ new.revokedAt = some (policy.body.generation + 1)))
    (hrevoked : ∀ d ∈ devices, d.revokedAt = none ∨ d ∈ policy.body.devices
      ∨ d.revokedAt = some (policy.body.generation + 1)) : Continues policy devices := by
  refine ⟨fun old hold => ?_, fun d hd => ?_⟩
  · obtain ⟨new, hnew, hpub, hrest⟩ := hkept old hold
    refine ⟨new, ?_, hpub, hrest⟩
    refine find?_eq_some_of_unique hnew (by simp [hpub]) fun e he hid => ?_
    rw [decide_eq_true_eq, ← hpub] at hid
    exact List.inj_on_of_nodup_map hnodup he hnew hid
  · rcases hrevoked d hd with hnone | hold | hnow
    · exact .inl hnone
    · exact .inr (.inl ⟨d, hpolicy.device_eq hold, rfl⟩)
    · exact .inr (.inr hnow)

/-- `add_device` appends a record under an id that was not there. -/
theorem addedDevice_ok {pub : PublicDevice} {label : Text} {roles : DeviceRoles} {p : OpenedState}
    {devices : List DeviceRecord} (h : addedDevice pub label roles p = .ok devices) :
    p.policy.device pub.deviceId = none
      ∧ devices = p.policy.body.devices ++ [⟨pub, label, roles, none⟩] := by
  simp only [addedDevice, except_bind_eq_ok, bailIf_eq_ok] at h
  obtain ⟨⟨⟩, hnew, h⟩ := h
  cases h
  exact ⟨by simpa using hnew, rfl⟩

/-- The record that is revoked, in its place. -/
theorem revokeFirst_split {deviceId : Text} {generation : Nat} {devices : List DeviceRecord}
    (h : devices.any (fun d => d.pub.deviceId = deviceId && d.active) = true) :
    ∃ before record after, devices = before ++ record :: after
      ∧ record.pub.deviceId = deviceId ∧ record.active = true
      ∧ revokeFirst deviceId generation devices
        = before ++ { record with revokedAt := some generation } :: after := by
  induction devices with
  | nil => cases h
  | cons first rest ih =>
    -- the first match is revoked, and the search goes on behind the others
    by_cases hfirst : first.pub.deviceId = deviceId ∧ first.active = true
    · refine ⟨[], first, rest, rfl, hfirst.1, hfirst.2, ?_⟩
      rw [revokeFirst, if_pos hfirst]
      rfl
    · have hrest : rest.any (fun d => d.pub.deviceId = deviceId && d.active) = true := by
        rw [List.any_cons, Bool.or_eq_true] at h
        refine h.resolve_left fun hmatch => hfirst ?_
        simpa using hmatch
      obtain ⟨before, record, after, rfl, hid, hactive, heq⟩ := ih hrest
      refine ⟨first :: before, record, after, rfl, hid, hactive, ?_⟩
      rw [revokeFirst, if_neg hfirst, heq]
      rfl

/-- `revoke_device` changes the first active record with the id. -/
theorem revokedDevice_ok {deviceId : Text} {p : OpenedState} {devices : List DeviceRecord}
    (h : revokedDevice deviceId p = .ok devices) :
    ∃ before record after, p.policy.body.devices = before ++ record :: after
      ∧ record.pub.deviceId = deviceId ∧ record.active = true
      ∧ devices = before
        ++ { record with revokedAt := some (p.policy.body.generation + 1) } :: after := by
  simp only [revokedDevice, except_bind_eq_ok, bailIf_eq_ok, orBail_eq_ok] at h
  obtain ⟨⟨⟩, hany, generation, hgen, ⟨⟩, -, ⟨⟩, -, h⟩ := h
  cases h
  obtain rfl := (checkedAdd_eq_some.mp hgen).1
  exact revokeFirst_split (by simpa using hany)

/-! ## What a change builds is accepted -/

/-- A policy and its bytes that readers of the chain below `p` accept above it. -/
structure Honest (P : Primitives) (p : OpenedState) (policy : PolicyState) (bytes : Bytes) :
    Prop where
  parsed : PolicyState.parse P bytes = .ok policy
  follows : policy.validateSuccessor P p.policy = .ok ()
  transition : ∀ draws next, transitionManifest P draws p policy bytes = .ok next →
    next.validateSuccessor P p.id p.manifest policy = .ok ()

/-- The total of a chain fits its field. -/
theorem chained_totalPackCount_lt {p : OpenedState} {chain : List OpenedState}
    (h : Chained P root (p :: chain)) : p.manifest.totalPackCount < 2 ^ 64 := by
  cases h with
  | genesis hg =>
    rw [hg.totalPackCount]
    exact Nat.two_pow_pos 64
  | step hext _ => exact hext.totalPackCount_lt

/-- The manifest of a transition passes the check above the head it was built from. -/
theorem transitionManifest_validates {p : OpenedState} {policy : PolicyState} {bytes : Bytes}
    {draws : Draws} {next : Manifest} (hentry : EntryOk P p)
    (htotal : p.manifest.totalPackCount < 2 ^ 64) (hparse : PolicyState.parse P bytes = .ok policy)
    (hfollows : Succeeds P policy p.policy) (hpolicy : p.policy.body.generation + 1 < 2 ^ 64)
    (h : transitionManifest P draws p policy bytes = .ok next) :
    next.validateSuccessor P p.id p.manifest policy = .ok () := by
  simp only [transitionManifest, except_bind_eq_ok, orBail_eq_ok] at h
  obtain ⟨generation, hgen, wrap, -, h⟩ := h
  cases h
  have hroot : p.manifest.repositoryRoot = policy.body.repositoryRoot :=
    hentry.root_policy.trans hfollows.root.symm
  have hparsed : withContext (PolicyState.parse P bytes) "parse introduced policy"
    = .ok policy := by
    rw [hparse]
    rfl
  simp only [Manifest.validateSuccessor, validateManifestPolicy, validateIntroducedPolicy,
    except_bind_eq_ok, bailIf_eq_ok, orBail_eq_ok, hparsed]
  refine ⟨(), by simp [hentry.formatVersion, hroot], (), by simp, (), by simp [hgen], (), by simp,
    (), by simp, (), rfl, p.manifest.totalPackCount, checkedAdd_eq_some.mpr ⟨rfl, htotal⟩, (),
    by simp, (), ⟨policy, rfl, by simp⟩, (), ?_, by simp⟩
  have hnext : checkedAdd p.manifest.policyGeneration 1 = some policy.body.generation := by
    rw [hentry.policy_generation, hfollows.generation]
    exact checkedAdd_eq_some.mpr ⟨rfl, hpolicy⟩
  simp [hnext, hfollows.previous, hentry.policy_id]

/-- **A policy that continues the head's** is accepted above the head. -/
theorem honest_of_continues (hP : Lawful P) {M : Text → Material → Prop} {p : OpenedState}
    {chain : List OpenedState} (hchain : Authentic P root M (p :: chain)) {d : DeviceRecord}
    (hd : d ∈ p.policy.body.devices) (hadmin : d.activeAdministrator = true)
    (hkey : key.publicDevice P = .ok d.pub) {devices : List DeviceRecord}
    (hencodable : ∀ e ∈ devices, e.Encodable) {policy : PolicyState} {bytes : Bytes}
    (hcreated : PolicyState.successor P p.policy devices key = .ok (policy, bytes))
    (hcontinues : (devices.map fun e => e.pub.deviceId).Nodup →
      Continues p.policy (listed devices)) :
    Honest P p policy bytes ∧ policy.body.devices = listed devices := by
  have hchained := authentic_chained hchain
  have hentry := hchained.entryOk p List.mem_cons_self
  have hpolicy := chained_policyOk hchained p List.mem_cons_self
  simp only [PolicyState.successor, except_bind_eq_ok, orBail_eq_ok, checkedAdd_eq_some] at hcreated
  obtain ⟨generation, ⟨rfl, hlt⟩, hcreate⟩ := hcreated
  obtain ⟨hchecked, hroots, -, _, _, -, -, -, hbody⟩ := create_ok hcreate
  have hnodup : (devices.map fun e => e.pub.deviceId).Nodup :=
    ((List.perm_insertionSort _ _).map _).nodup_iff.mp (validateDevicesFrom_ok hchecked).1
  have hcontinued := hcontinues hnodup
  -- the signer's own record is still listed, so the root is the one in its record
  have hrootUtf8 : isUtf8 p.policy.body.repositoryRoot = true := by
    obtain ⟨new, hnew, -⟩ := hcontinued.kept d hd
    have hmem := List.mem_of_find?_eq_some hnew
    have hsame : new.pub.repositoryRoot = p.policy.body.repositoryRoot := by
      have hall := bailIf_eq_ok.mp hroots
      simp only [List.any_eq_true, not_exists, not_and, decide_eq_true_eq, not_not] at hall
      exact hall new hmem
    rw [← hsame]
    exact (hencodable new (mem_listed.mp hmem)).repositoryRoot
  have hfollows := validateSuccessor_create hP hcontinued hpolicy (authentic_threshold hchain) hlt
    hd hadmin hkey hcreate
  have hparse := parse_create hP.json hcreate
    ⟨by simp [FORMAT_VERSION], hrootUtf8, hlt, by rintro t ⟨⟩; exact hpolicy.id.isUtf8, by simp,
      fun e he => hencodable e (mem_listed.mp he)⟩ rfl rfl
  refine ⟨⟨hparse, hfollows, fun draws next h => transitionManifest_validates hentry
    (chained_totalPackCount_lt hchained) hparse (policySuccessor_ok hfollows) hlt h⟩, ?_⟩
  rw [hbody]

/-! ## A refused change -/

/-- HEAD and the floor are where they were. -/
def Unmoved (head : S → Option Text) (m m' : Machine S G) : Prop :=
  head m'.storage = head m.storage ∧ m'.floor.content = m.floor.content

theorem Unmoved.refl {head : S → Option Text} (m : Machine S G) : Unmoved head m m := ⟨rfl, rfl⟩

theorem Unmoved.trans {head : S → Option Text} ⦃a b c : Machine S G⦄ (h : Unmoved head a b)
    (h' : Unmoved head b c) : Unmoved head a c := ⟨h'.1.trans h.1, h'.2.trans h.2⟩

theorem unmoved_onStorage {head : S → Option Text} {α : Type} {x : Action Error S α}
    (h : Keeps (HeadKept head) x) :
    Keeps (Unmoved head) (onStorage x : Action Error (Machine S G) α) := fun m => ⟨h m.storage, rfl⟩

theorem unmoved_lockFloor {head : S → Option Text} :
    Keeps (Unmoved head) (lockFloor : Action Error (Machine S G) Unit) :=
  fun m => ⟨rfl, access_id m.floor⟩

theorem unmoved_readFloor {head : S → Option Text} :
    Keeps (Unmoved head) (onFloor FloorGuard.read : Action Error (Machine S G) _) :=
  fun m => ⟨rfl, floorRead_content m.floor⟩

/-- Pinning a chain moves neither, even with a refresh. -/
theorem unmoved_pinnedState {storage : Storage S} {head : S → Option Text}
    (hreg : HeadRegister storage head) :
    Keeps (Unmoved head) (pinnedState P storage key : Action Error (Machine S G) _) := by
  have hchain : Keeps (Unmoved head)
      (onStorage (currentChain P storage key) : Action Error (Machine S G) _) :=
    unmoved_onStorage
      (keeps_currentChain HeadKept.refl HeadKept.trans (hreg.openObject _) hreg.readHead key)
  refine Keeps.bind Unmoved.trans ?_ fun chain =>
    (Keeps.lift Unmoved.refl).bind Unmoved.trans fun _ => .pure Unmoved.refl
  refine unmoved_readFloor.bind Unmoved.trans fun floor => hchain.bind Unmoved.trans fun chain => ?_
  split
  · exact .pure Unmoved.refl
  · refine (unmoved_onStorage hreg.refresh).bind Unmoved.trans fun refreshed => ?_
    split
    · exact .fail Unmoved.refl
    · exact hchain.bind Unmoved.trans fun _ =>
        (Keeps.lift Unmoved.refl).bind Unmoved.trans fun _ => .pure Unmoved.refl

/-- `change_policy` up to the swap. -/
def changeUntilSwap (P : Primitives) (storage : Storage S) (key : KeyFile)
    (nextDevices : OpenedState → Result (List DeviceRecord)) (draws : Draws) :
    Action Error (Machine S G) ((OpenedState × List OpenedState) × Prepared × Text) := do
  lockFloor
  let (current, chain) ← pinnedState P storage key
  let prepared ← Action.lift (prepareTransition P key nextDevices draws current)
  let id ← onStorage (sealAndStoreManifest P storage key draws.coins (some current) prepared)
  pure ((current, chain), prepared, id)

theorem onStorage_bind {α β : Type} (x : Action Error S α) (f : α → Action Error S β) :
    (onStorage (x >>= f) : Action Error (Machine S G) β)
      = onStorage x >>= fun a => onStorage (f a) := by
  funext m
  cases hx : x m.storage with
  | mk r s =>
    cases r with
    | error e =>
      have hzoom : (onStorage x : Action Error (Machine S G) α) m
          = (.error e, { m with storage := s }) := by simp only [onStorage, Action.zoom, hx]
      rw [Action.bind_of_error hzoom]
      simp only [onStorage, Action.zoom, Action.bind_of_error hx]
    | ok a =>
      have hzoom : (onStorage x : Action Error (Machine S G) α) m
          = (.ok a, { m with storage := s }) := by simp only [onStorage, Action.zoom, hx]
      rw [Action.bind_of_ok hzoom]
      simp only [onStorage, Action.zoom, Action.bind_of_ok hx]

/-- What `change_policy` does with a manifest that is ready. -/
def swapChange (storage : Storage S) (pinned : OpenedState × List OpenedState)
    (prepared : Prepared) (id : Text) : Action Error (Machine S G) (Accepted (Text × Text)) := do
  onStorage (storage.compareAndSwapHead (some pinned.1.id) id)
  advanceFloor id prepared.manifest
  pure ⟨(id, prepared.policy.id), (id, prepared.manifest) :: entriesOf pinned.2⟩

/-- A change is everything up to the swap, the swap, and the floor. -/
theorem changePolicy_eq {storage : Storage S}
    (nextDevices : OpenedState → Result (List DeviceRecord)) (draws : Draws) :
    (changePolicy P storage key nextDevices draws : Action Error (Machine S G) _)
      = changeUntilSwap P storage key nextDevices draws >>= fun ready =>
          swapChange storage ready.1 ready.2.1 ready.2.2 := by
  simp only [changePolicy, changeUntilSwap, swapChange, bind_assoc, pure_bind, commitManifest,
    commitManifestWithObservation, swapHead, onStorage_bind]
  rfl

/-- Before the swap a change stores a manifest and nothing else. -/
theorem unmoved_changeUntilSwap {storage : Storage S} {head : S → Option Text}
    (hreg : HeadRegister storage head) (nextDevices : OpenedState → Result (List DeviceRecord))
    (draws : Draws) : Keeps (Unmoved head)
      (changeUntilSwap P storage key nextDevices draws : Action Error (Machine S G) _) := by
  refine unmoved_lockFloor.bind Unmoved.trans fun _ =>
    (unmoved_pinnedState hreg).bind Unmoved.trans fun ⟨current, chain⟩ => ?_
  refine (Keeps.lift Unmoved.refl).bind Unmoved.trans fun prepared => ?_
  refine Keeps.bind Unmoved.trans (unmoved_onStorage ?_) fun _ => .pure Unmoved.refl
  refine (Keeps.lift HeadKept.refl).bind HeadKept.trans fun ⟨id, encrypted⟩ => ?_
  refine Keeps.bind HeadKept.trans ?_ fun _ =>
    (Keeps.lift HeadKept.refl).bind HeadKept.trans fun _ => .pure HeadKept.refl
  exact (hreg.beginObject _).bind HeadKept.trans fun _ => hreg.finishObject _ _ _

/-- The change got as far as a swap that returned. -/
def Swaps (P : Primitives) (storage : Storage S) (key : KeyFile)
    (nextDevices : OpenedState → Result (List DeviceRecord)) (draws : Draws) (m : Machine S G) :
    Prop :=
  ∃ ready m₁ s', changeUntilSwap P storage key nextDevices draws m = (.ok ready, m₁)
    ∧ storage.compareAndSwapHead (some ready.1.1.id) ready.2.2 m₁.storage = (.ok (), s')

/-- **A change that is refused** leaves HEAD and the floor, unless its swap had returned. -/
theorem changePolicy_refused {storage : Storage S} {head : S → Option Text}
    (hreg : HeadRegister storage head) {nextDevices : OpenedState → Result (List DeviceRecord)}
    {draws : Draws} {m m' : Machine S G} {e : Error}
    (h : changePolicy P storage key nextDevices draws m = (.error e, m'))
    (hswaps : ¬ Swaps P storage key nextDevices draws m) : Unmoved head m m' := by
  rw [changePolicy_eq] at h
  have hkeeps : Keeps (Unmoved head)
      (changeUntilSwap P storage key nextDevices draws : Action Error (Machine S G) _) :=
    unmoved_changeUntilSwap hreg nextDevices draws
  have hkept := hkeeps m
  cases hready : changeUntilSwap P storage key nextDevices draws m with
  | mk r m₁ =>
    rw [hready] at hkept
    cases r with
    | error e' =>
      -- it failed before the swap
      rw [Action.bind_of_error hready] at h
      cases h
      exact hkept
    | ok ready =>
      rw [Action.bind_of_ok hready] at h
      cases hswap : storage.compareAndSwapHead (some ready.1.1.id) ready.2.2 m₁.storage with
      | mk r s' =>
        cases r with
        | ok u => exact absurd ⟨ready, m₁, s', hready, hswap⟩ hswaps
        | error e' =>
          have hfailed : onStorage (storage.compareAndSwapHead (some ready.1.1.id) ready.2.2) m₁
              = (.error e', { m₁ with storage := s' }) := by
            simp only [onStorage, Action.zoom, hswap]
          unfold swapChange at h
          rw [Action.bind_of_error hfailed] at h
          cases h
          exact hkept.trans ⟨hreg.refused hswap, rfl⟩

/-! ## Membership changes -/

section

variable {M : Text → Material → Prop} {p : OpenedState} {chain : List OpenedState}
  {d : DeviceRecord} {policy : PolicyState} {bytes : Bytes}

/-- A device that was not known is added as an active record. -/
theorem honest_added (hP : Lawful P) (hchain : Authentic P root M (p :: chain))
    (hd : d ∈ p.policy.body.devices) (hadmin : d.activeAdministrator = true)
    (hkey : key.publicDevice P = .ok d.pub)
    (hencodable : ∀ e ∈ p.policy.body.devices, e.Encodable) {record : DeviceRecord}
    (hrecord : record.Encodable) (hactive : record.revokedAt = none)
    (hcreated : PolicyState.successor P p.policy (p.policy.body.devices ++ [record]) key
      = .ok (policy, bytes)) :
    Honest P p policy bytes ∧ policy.body.devices.Perm (p.policy.body.devices ++ [record]) := by
  have hpolicy := chained_policyOk (authentic_chained hchain) p List.mem_cons_self
  have hrecords : ∀ e ∈ p.policy.body.devices ++ [record],
      e ∈ p.policy.body.devices ∨ e = record := by
    intro e he
    rcases List.mem_append.mp he with hold | hlast
    · exact .inl hold
    · exact .inr (List.mem_singleton.mp hlast)
  obtain ⟨hhonest, hlisted⟩ := honest_of_continues hP hchain hd hadmin hkey
    (fun e he => (hrecords e he).elim (hencodable e) fun h => h ▸ hrecord) hcreated
    fun hnodup => by
      refine Continues.of_mem hpolicy
        (((List.perm_insertionSort _ _).map _).nodup_iff.mpr hnodup) (fun old hold => ?_)
        fun e he => ?_
      · exact ⟨old, mem_listed.mpr (List.mem_append_left _ hold), rfl, rfl, .inl rfl⟩
      · rcases hrecords e (mem_listed.mp he) with hold | rfl
        · exact .inr (.inl hold)
        · exact .inl hactive
  rw [hlisted]
  exact ⟨hhonest, List.perm_insertionSort _ _⟩

/-- An active record is revoked in its place, at the generation of the new policy. -/
theorem honest_revoked (hP : Lawful P) (hchain : Authentic P root M (p :: chain))
    (hd : d ∈ p.policy.body.devices) (hadmin : d.activeAdministrator = true)
    (hkey : key.publicDevice P = .ok d.pub)
    (hencodable : ∀ e ∈ p.policy.body.devices, e.Encodable) {before after : List DeviceRecord}
    {record : DeviceRecord} (hsplit : p.policy.body.devices = before ++ record :: after)
    (hactive : record.active = true)
    (hcreated : PolicyState.successor P p.policy (before
      ++ { record with revokedAt := some (p.policy.body.generation + 1) } :: after) key
        = .ok (policy, bytes)) :
    Honest P p policy bytes ∧ policy.body.devices.Perm
      (before ++ { record with revokedAt := some policy.body.generation } :: after) := by
  have hpolicy := chained_policyOk (authentic_chained hchain) p List.mem_cons_self
  have hrecords : ∀ e ∈ before
        ++ { record with revokedAt := some (p.policy.body.generation + 1) } :: after,
      e ∈ p.policy.body.devices
        ∨ e = { record with revokedAt := some (p.policy.body.generation + 1) } := by
    intro e he
    rw [hsplit]
    rcases List.mem_append.mp he with hbefore | hrest
    · exact .inl (List.mem_append_left _ hbefore)
    · rcases List.mem_cons.mp hrest with rfl | hafter
      · exact .inr rfl
      · exact .inl (List.mem_append_right _ (List.mem_cons_of_mem _ hafter))
  have hmem : record ∈ p.policy.body.devices := by
    rw [hsplit]
    exact List.mem_append_right _ List.mem_cons_self
  have hlt : p.policy.body.generation + 1 < 2 ^ 64 := by
    simp only [PolicyState.successor, except_bind_eq_ok, orBail_eq_ok, checkedAdd_eq_some]
      at hcreated
    obtain ⟨generation, ⟨rfl, hlt⟩, -⟩ := hcreated
    exact hlt
  have hrecord : DeviceRecord.Encodable
      { record with revokedAt := some (p.policy.body.generation + 1) } := by
    have hold := hencodable record hmem
    refine ⟨hold.repositoryRoot, hold.deviceId, hold.signingPublicKey, hold.wrappingPublicKey,
      hold.label, ?_⟩
    rintro g ⟨⟩
    exact hlt
  obtain ⟨hhonest, hlisted⟩ := honest_of_continues hP hchain hd hadmin hkey
    (fun e he => (hrecords e he).elim (hencodable e) fun h => h ▸ hrecord) hcreated
    fun hnodup => by
      refine Continues.of_mem hpolicy
        (((List.perm_insertionSort _ _).map _).nodup_iff.mpr hnodup) (fun old hold => ?_)
        fun e he => ?_
      · rw [hsplit] at hold
        rcases List.mem_append.mp hold with hbefore | hrest
        · exact ⟨old, mem_listed.mpr (List.mem_append_left _ hbefore), rfl, rfl, .inl rfl⟩
        · rcases List.mem_cons.mp hrest with rfl | hafter
          · -- the record itself: it was active, and is revoked from now on
            refine ⟨_, mem_listed.mpr (List.mem_append_right _ List.mem_cons_self), rfl, rfl,
              .inr ⟨?_, rfl⟩⟩
            exact Option.isNone_iff_eq_none.mp hactive
          · exact ⟨old, mem_listed.mpr (List.mem_append_right _ (List.mem_cons_of_mem _ hafter)),
              rfl, rfl, .inl rfl⟩
      · rcases hrecords e (mem_listed.mp he) with hold | rfl
        · exact .inr (.inl hold)
        · exact .inr (.inr rfl)
  rw [hlisted, (policySuccessor_ok hhonest.follows).generation]
  exact ⟨hhonest, List.perm_insertionSort _ _⟩

end

/-- What the administrators of the chain below `p` can rely on. -/
structure MembershipChanges (P : Primitives) (key : KeyFile) (p : OpenedState) : Prop where
  /-- One new active record, and the others as they are. -/
  added : ∀ {pub : PublicDevice} {label : Text} {roles : DeviceRoles}
    {devices : List DeviceRecord} {policy : PolicyState} {bytes : Bytes},
    DeviceRecord.Encodable ⟨pub, label, roles, none⟩ →
    addedDevice pub label roles p = .ok devices →
    PolicyState.successor P p.policy devices key = .ok (policy, bytes) →
    Honest P p policy bytes ∧ p.policy.device pub.deviceId = none
      ∧ policy.body.devices.Perm (p.policy.body.devices ++ [⟨pub, label, roles, none⟩])
  /-- One active record revoked at the new generation, and the others as they are. -/
  revoked : ∀ {deviceId : Text} {devices : List DeviceRecord} {policy : PolicyState}
    {bytes : Bytes}, revokedDevice deviceId p = .ok devices →
    PolicyState.successor P p.policy devices key = .ok (policy, bytes) →
    Honest P p policy bytes ∧ ∃ before record after,
      p.policy.body.devices = before ++ record :: after
        ∧ record.pub.deviceId = deviceId ∧ record.active = true
        ∧ policy.body.devices.Perm
          (before ++ { record with revokedAt := some policy.body.generation } :: after)
  refused : ∀ {S G : Type} {storage : Storage S} {head : S → Option Text}
    {nextDevices : OpenedState → Result (List DeviceRecord)} {draws : Draws} {m m' : Machine S G}
    {e : Error}, HeadRegister storage head →
    changePolicy P storage key nextDevices draws m = (.error e, m') →
    ¬ Swaps P storage key nextDevices draws m → Unmoved head m m'

/-- **An administrator's changes are accepted, and change one device.** -/
theorem membership_changes (hP : Lawful P) {M : Text → Material → Prop} {p : OpenedState}
    {chain : List OpenedState} (hchain : Authentic P root M (p :: chain)) {d : DeviceRecord}
    (hd : d ∈ p.policy.body.devices) (hadmin : d.activeAdministrator = true)
    (hkey : key.publicDevice P = .ok d.pub)
    (hencodable : ∀ e ∈ p.policy.body.devices, e.Encodable) : MembershipChanges P key p := by
  refine ⟨?_, ?_, fun hreg h hswaps => changePolicy_refused hreg h hswaps⟩
  · intro pub label roles devices policy bytes hrecord hadded hcreated
    obtain ⟨hnew, rfl⟩ := addedDevice_ok hadded
    obtain ⟨hhonest, hperm⟩ :=
      honest_added hP hchain hd hadmin hkey hencodable hrecord rfl hcreated
    exact ⟨hhonest, hnew, hperm⟩
  · intro deviceId devices policy bytes hrevoked hcreated
    obtain ⟨before, record, after, hsplit, hid, hactive, rfl⟩ := revokedDevice_ok hrevoked
    obtain ⟨hhonest, hperm⟩ :=
      honest_revoked hP hchain hd hadmin hkey hencodable hsplit hactive hcreated
    exact ⟨hhonest, before, record, after, hsplit, hid, hactive, hperm⟩

/-- The owner of a new repository, who can add a device to it. -/
theorem membership_changes_team : ∃ objects p devices policy bytes,
    Reference.Sample 0 objects p []
      ∧ addedDevice (Reference.device Reference.root Reference.member) (text "laptop")
          ⟨true, true, false⟩ p = .ok devices
      ∧ PolicyState.successor Reference.primitives p.policy devices Reference.ownerKey
        = .ok (policy, bytes)
      ∧ MembershipChanges Reference.primitives Reference.ownerKey p := by
  obtain ⟨object, p, h, -, hdevices, -⟩ := Reference.sample_genesis
  have hchained := authentic_chained h.authentic
  have hroot : p.policy.body.repositoryRoot = Reference.root := by
    rw [← (hchained.entryOk p List.mem_cons_self).root_policy, h.repositoryRoot]
  have hgen : p.policy.body.generation + 1 < 2 ^ 64 := by
    have := h.policyGeneration
    omega
  obtain ⟨policy, bytes, hcreate, -⟩ := Reference.successor_total (Reference.team_follows hdevices)
    (chained_policyOk hchained p List.mem_cons_self) hroot h.owner h.threshold hgen
  refine ⟨[object], p, _, policy, bytes, h, Reference.member_added hdevices, ?_, ?_⟩
  · simp only [PolicyState.successor, except_bind_eq_ok, orBail_eq_ok, checkedAdd_eq_some]
    refine ⟨_, ⟨rfl, hgen⟩, ?_⟩
    rw [hroot]
    exact hcreate
  · refine membership_changes Reference.lawful h.authentic h.owner rfl
      (Reference.publicDevice_keyFile Reference.root Reference.owner) fun e he => ?_
    rw [hdevices] at he
    rw [List.mem_singleton.mp he]
    exact Reference.record_encodable Reference.owner (isUtf8_text _) _

end GitE2EE

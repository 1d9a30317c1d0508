import GitE2EE.Model.Policy

/-!
# What the policy checks establish

`PolicyOk` is what `parse` and `create` establish about a policy by itself.
`Succeeds` is what `validateSuccessor` establishes about two policies, as far as the
device records go: every inherited record keeps its identity, label and
revocation, and a revocation that is not inherited carries the generation of the
policy that makes it.
-/

namespace GitE2EE

open Wire Effect

variable {P : Primitives} {root : Text}

/-! ## A policy by itself -/

/-- A hash, as the program writes hashes. -/
def IsDigest (t : Text) : Prop := ∃ digest : Bytes32, t = hexEncode digest.val

theorem IsDigest.isUtf8 {t : Text} (h : IsDigest t) : Wire.isUtf8 t = true := by
  obtain ⟨digest, rfl⟩ := h
  exact isUtf8_hexEncode _

/-- What the checks on a policy by itself establish. -/
structure PolicyOk (policy : PolicyState) : Prop where
  id : IsDigest policy.id
  ids_nodup : (policy.body.devices.map fun d => d.pub.deviceId).Nodup
  ids : ∀ d ∈ policy.body.devices, IsDigest d.pub.deviceId
  wrapping : ∀ d ∈ policy.body.devices, ∃ wrapping : Bytes32,
    base64Decode d.pub.wrappingPublicKey = some wrapping.val
  reader : ∃ d ∈ policy.body.devices, d.activeReader = true
  administrator : ∃ d ∈ policy.body.devices, d.activeAdministrator = true

/-- Somebody can read and somebody can administrate. -/
theorem validateActiveRoles_ok {body : PolicyBody} (h : validateActiveRoles body = .ok ()) :
    (∃ d ∈ body.devices, d.activeReader = true)
      ∧ ∃ d ∈ body.devices, d.activeAdministrator = true := by
  simp only [validateActiveRoles, except_bind_eq_ok, bailIf_eq_ok] at h
  obtain ⟨⟨⟩, hreader, hadmin⟩ := h
  push Not at hreader hadmin
  exact ⟨List.any_eq_true.mp hreader, List.any_eq_true.mp hadmin⟩

/-- A checked identity is the hash of its keys, which are 32 bytes each. -/
theorem validatePublicDevice_ok {device : PublicDevice}
    (h : validatePublicDevice P device = .ok ()) :
    IsDigest device.deviceId ∧ ∃ wrapping : Bytes32,
      base64Decode device.wrappingPublicKey = some wrapping.val := by
  simp only [validatePublicDevice, decodePublicKey, decodeBase64, except_bind_eq_ok, orBail_eq_ok,
    bailIf_eq_ok] at h
  obtain ⟨⟨⟩, -, signing, -, wrapping, ⟨bytes, hbytes, hwrapping⟩, hid⟩ := h
  push Not at hid
  rw [hid, hbytes, toBytes32_eq_some.mp hwrapping]
  exact ⟨⟨_, rfl⟩, wrapping, rfl⟩

/-- Every device is checked, and the ids are distinct and new with respect to those
seen before. -/
theorem validateDevicesFrom_ok {ids labels : List Text} {devices : List DeviceRecord}
    (h : validateDevicesFrom P ids labels devices = .ok ()) :
    (devices.map fun d => d.pub.deviceId).Nodup
      ∧ (∀ d ∈ devices, d.pub.deviceId ∉ ids)
      ∧ ∀ d ∈ devices, validatePublicDevice P d.pub = .ok () := by
  induction devices generalizing ids labels with
  | nil => exact ⟨List.nodup_nil, fun _ hd => absurd hd List.not_mem_nil,
      fun _ hd => absurd hd List.not_mem_nil⟩
  | cons device rest ih =>
    simp only [validateDevicesFrom, except_bind_eq_ok, bailIf_eq_ok] at h
    obtain ⟨⟨⟩, hpub, ⟨⟩, hnew, ⟨⟩, -, ⟨⟩, -, ⟨⟩, -, ⟨⟩, -, hrest⟩ := h
    obtain ⟨hnd, hfresh, hvalid⟩ := ih hrest
    refine ⟨?_, ?_, ?_⟩
    · rw [List.map_cons, List.nodup_cons]
      -- a record further down would have been refused as seen
      refine ⟨fun hmem => ?_, hnd⟩
      obtain ⟨d, hd, hid⟩ := List.mem_map.mp hmem
      exact hfresh d hd (by rw [hid]; exact List.mem_cons_self)
    · intro d hd
      rcases List.mem_cons.mp hd with rfl | hd
      · exact hnew
      · exact fun hmem => hfresh d hd (List.mem_cons_of_mem _ hmem)
    · intro d hd
      rcases List.mem_cons.mp hd with rfl | hd
      · exact hpub
      · exact hvalid d hd

/-- The checks of `create` and `parse` on a policy by itself. -/
theorem policyOk_of_checks {policy : PolicyState}
    (hid : IsDigest policy.id) (hdevices : validateDevices P policy.body.devices = .ok ())
    (hroles : validateActiveRoles policy.body = .ok ()) : PolicyOk policy := by
  obtain ⟨hreader, hadmin⟩ := validateActiveRoles_ok hroles
  obtain ⟨hnd, -, hvalid⟩ := validateDevicesFrom_ok hdevices
  exact ⟨hid, hnd, fun d hd => (validatePublicDevice_ok (hvalid d hd)).1,
    fun d hd => (validatePublicDevice_ok (hvalid d hd)).2, hreader, hadmin⟩

/-- What `create` checked and built. -/
theorem create_ok {body : PolicyBody} {signer : KeyFile} {policy : PolicyState} {bytes : Bytes}
    (h : PolicyState.create P body signer = .ok (policy, bytes)) :
    validateDevices P body.devices = .ok () ∧ validateDeviceRoots body = .ok ()
      ∧ validateActiveRoles body = .ok () ∧ ∃ id signature, signer.deviceId P = .ok id
        ∧ signer.signDomain P POLICY_SIGNATURE_DOMAIN body.toJson.write = .ok signature
        ∧ bytes = (PolicyObject.toJson ⟨base64Encode body.toJson.write,
            [⟨id, base64Encode signature⟩]⟩).write
        ∧ policy = ⟨objectId P bytes, body, body.toJson.write, [⟨id, base64Encode signature⟩]⟩ := by
  simp only [PolicyState.create, except_bind_eq_ok] at h
  obtain ⟨⟨⟩, hdevices, ⟨⟩, hroots, ⟨⟩, hroles, id, hid, signature, hsignature, h⟩ := h
  cases h
  exact ⟨hdevices, hroots, hroles, id, signature, hid, hsignature, rfl, rfl⟩

/-- What `parse` establishes. -/
theorem parse_ok {bytes : Bytes} {policy : PolicyState}
    (h : PolicyState.parse P bytes = .ok policy) :
    PolicyOk policy ∧ policy.id = objectId P bytes ∧ policy.body.adminThreshold = 1 := by
  simp only [PolicyState.parse, except_bind_eq_ok] at h
  obtain ⟨probe, -, probeBody, -, version, -, h⟩ := h
  split at h
  · cases h
  simp only [except_bind_eq_ok, bailIf_eq_ok] at h
  obtain ⟨object, -, exactBody, -, body, -, ⟨⟩, -, h⟩ := h
  split at h
  · cases h
  rename_i hthreshold
  push Not at hthreshold
  simp only [except_bind_eq_ok] at h
  obtain ⟨⟨⟩, hdevices, ⟨⟩, -, ⟨⟩, hroles, h⟩ := h
  cases h
  exact ⟨policyOk_of_checks ⟨_, rfl⟩ hdevices hroles, rfl, hthreshold⟩

/-- A record that is looked up is one of the policy, with that id. -/
theorem PolicyState.device_mem {policy : PolicyState} {id : Text} {d : DeviceRecord}
    (h : policy.device id = some d) : d ∈ policy.body.devices ∧ d.pub.deviceId = id :=
  ⟨List.mem_of_find?_eq_some h, by simpa using List.find?_some h⟩

/-- The first match, where there is only one. -/
theorem find?_eq_some_of_unique {α : Type} {l : List α} {p : α → Bool} {a : α} (ha : a ∈ l)
    (hp : p a = true) (hunique : ∀ b ∈ l, p b = true → b = a) : l.find? p = some a := by
  cases hfind : l.find? p with
  | none => exact absurd hp (List.find?_eq_none.mp hfind a ha)
  | some b =>
    rw [hunique b (List.mem_of_find?_eq_some hfind) (List.find?_some hfind)]

theorem PolicyOk.eq_of_id {policy : PolicyState} (h : PolicyOk policy) {d e : DeviceRecord}
    (hd : d ∈ policy.body.devices) (he : e ∈ policy.body.devices)
    (hid : d.pub.deviceId = e.pub.deviceId) : d = e :=
  List.inj_on_of_nodup_map h.ids_nodup hd he hid

/-- Ids are unique, so looking a record up by its id finds it. -/
theorem PolicyOk.device_eq {policy : PolicyState} (h : PolicyOk policy) {d : DeviceRecord}
    (hd : d ∈ policy.body.devices) : policy.device d.pub.deviceId = some d :=
  find?_eq_some_of_unique hd (by simp) fun _ he hid => h.eq_of_id he hd (by simpa using hid)

/-! ## Signatures -/

/-- `d` signed the policy object. -/
def PolicySignedBy (P : Primitives) (policy : PolicyState) (d : DeviceRecord) : Prop :=
  ∃ signature raw, policy.signatures = [signature] ∧ signature.deviceId = d.pub.deviceId
    ∧ base64Decode signature.signature = some raw
    ∧ verifyDomain P d.pub.signingPublicKey POLICY_SIGNATURE_DOMAIN policy.exactBody raw = .ok ()

/-- The one signature is that of an active administrator. -/
theorem verifyAgainstAdmins_ok {policy : PolicyState} {devices : List DeviceRecord}
    (h : policy.verifyAgainstAdmins P devices = .ok ()) :
    ∃ d ∈ devices, d.activeAdministrator = true ∧ PolicySignedBy P policy d := by
  unfold PolicyState.verifyAgainstAdmins at h
  split at h
  · rename_i signature hsig
    simp only [except_bind_eq_ok, orBail_eq_ok, decodeBase64] at h
    obtain ⟨signer, hfind, raw, hraw, hverify⟩ := h
    have hmem := List.mem_of_find?_eq_some hfind
    have hprop := List.find?_some hfind
    simp only [Bool.and_eq_true, decide_eq_true_eq] at hprop
    exact ⟨signer, hmem, hprop.2, signature, raw, hsig, hprop.1.symm, hraw, hverify⟩
  · cases h

/-- What `validateGenesis` establishes: one active owner, whose keys hash to the
root and who signed the policy. -/
theorem policyGenesis_ok {policy : PolicyState} (h : policy.validateGenesis P root = .ok ()) :
    policy.body.generation = 0 ∧ policy.body.repositoryRoot = root
      ∧ ∃ owner, policy.body.devices = [owner] ∧ owner.roles = .owner ∧ owner.active = true
        ∧ repositoryRootForDevice P owner.pub = .ok root ∧ PolicySignedBy P policy owner := by
  simp only [PolicyState.validateGenesis, except_bind_eq_ok, bailIf_eq_ok] at h
  obtain ⟨⟨⟩, hpos, ⟨⟩, hroot, ⟨⟩, howner, ⟨⟩, -, hsigned⟩ := h
  push Not at hpos hroot
  -- the owner check matches on a list of one
  obtain ⟨owner, hdevices⟩ : ∃ owner, policy.body.devices = [owner] := by
    unfold PolicyState.validateOwner at howner
    split at howner
    · exact ⟨_, by assumption⟩
    · cases howner
  rw [hdevices] at howner hsigned
  simp only [PolicyState.validateOwner] at howner
  split at howner
  · rename_i hroles
    simp only [except_bind_eq_ok, bailIf_eq_ok] at howner
    obtain ⟨r, hr, heq⟩ := howner
    push Not at heq
    subst heq
    obtain ⟨d, hd, -, hsig⟩ := verifyAgainstAdmins_ok hsigned
    rw [List.mem_singleton] at hd
    subst hd
    exact ⟨hpos.1, hroot, d, hdevices, hroles.1, hroles.2, hr, hsig⟩
  · cases howner

/-! ## A policy above another -/

/-- How the device records of two policies of one chain relate. -/
def Persists (older newer : PolicyState) : Prop :=
  ∀ d ∈ older.body.devices, ∃ d' ∈ newer.body.devices,
    d'.pub = d.pub ∧ d'.label = d.label ∧ (d.revokedAt.isSome → d'.revokedAt = d.revokedAt)

theorem Persists.refl (policy : PolicyState) : Persists policy policy :=
  fun d hd => ⟨d, hd, rfl, rfl, fun _ => rfl⟩

theorem Persists.trans {a b c : PolicyState} (hab : Persists a b) (hbc : Persists b c) :
    Persists a c := by
  intro d hd
  obtain ⟨d', hd', hpub, hlabel, hrev⟩ := hab d hd
  obtain ⟨d'', hd'', hpub', hlabel', hrev'⟩ := hbc d' hd'
  refine ⟨d'', hd'', hpub'.trans hpub, hlabel'.trans hlabel, fun hs => ?_⟩
  have he := hrev hs
  rw [hrev' (by rw [he]; exact hs), he]

/-- What `validateSuccessor` establishes. -/
structure Succeeds (P : Primitives) (policy parent : PolicyState) : Prop where
  root : policy.body.repositoryRoot = parent.body.repositoryRoot
  generation : policy.body.generation = parent.body.generation + 1
  previous : policy.body.previous = some parent.id
  signed : ∃ d ∈ parent.body.devices, d.activeAdministrator = true ∧ PolicySignedBy P policy d
  persists : Persists parent policy
  /-- A revocation is the parent's or carries this generation. -/
  revocation : ∀ d ∈ policy.body.devices, ∀ g, d.revokedAt = some g →
    g = policy.body.generation
      ∨ ∃ old ∈ parent.body.devices, old.pub.deviceId = d.pub.deviceId ∧ old.revokedAt = some g

/-- An inherited record keeps its identity, its label and its revocation. -/
theorem validateInherited_ok {policy : PolicyState} {old : DeviceRecord}
    (h : policy.validateInherited old = .ok ()) :
    ∃ new ∈ policy.body.devices, new.pub = old.pub ∧ new.label = old.label
      ∧ (old.revokedAt.isSome → new.revokedAt = old.revokedAt) := by
  simp only [PolicyState.validateInherited, except_bind_eq_ok, orBail_eq_ok, bailIf_eq_ok] at h
  obtain ⟨new, hnew, ⟨⟩, hpub, ⟨⟩, hlabel, ⟨⟩, hrev, -⟩ := h
  push Not at hpub hlabel hrev
  exact ⟨new, (PolicyState.device_mem hnew).1, hpub, hlabel, hrev⟩

/-- A revocation is inherited or made by this policy. -/
theorem validateRevocation_ok {policy parent : PolicyState} {d : DeviceRecord} {g : Nat}
    (h : policy.validateRevocation parent d = .ok ()) (hg : d.revokedAt = some g) :
    g = policy.body.generation
      ∨ ∃ old ∈ parent.body.devices, old.pub.deviceId = d.pub.deviceId
        ∧ old.revokedAt = some g := by
  simp only [PolicyState.validateRevocation, bailIf_eq_ok] at h
  by_cases hgen : d.revokedAt = some policy.body.generation
  · exact .inl (by rw [hg] at hgen; exact Option.some.inj hgen)
  · right
    -- not its own generation, so the parent has the same revocation
    have hany : (parent.device d.pub.deviceId).any (fun old =>
        old.revokedAt = d.revokedAt && old.revokedAt.isSome) = true := by
      by_contra hnot
      exact h ⟨by rw [hg]; rfl, hnot, hgen⟩
    cases hold : parent.device d.pub.deviceId with
    | none => rw [hold] at hany; cases hany
    | some old =>
      rw [hold] at hany
      simp only [Option.any_some, Bool.and_eq_true, decide_eq_true_eq] at hany
      obtain ⟨hmem, hid⟩ := PolicyState.device_mem hold
      exact ⟨old, hmem, hid, by rw [hany.1, hg]⟩

/-- **What `validateSuccessor` establishes.** -/
theorem policySuccessor_ok {policy parent : PolicyState}
    (h : policy.validateSuccessor P parent = .ok ()) : Succeeds P policy parent := by
  simp only [PolicyState.validateSuccessor, except_bind_eq_ok, bailIf_eq_ok] at h
  obtain ⟨⟨⟩, hroot, ⟨⟩, hgen, ⟨⟩, hprev, ⟨⟩, -, ⟨⟩, hsigned, ⟨⟩, hinherited, ⟨⟩, hrevoked, -⟩ := h
  push Not at hroot hgen hprev
  exact {
    root := hroot
    generation := (checkedAdd_eq_some.mp hgen).1.symm
    previous := hprev
    signed := verifyAgainstAdmins_ok hsigned
    persists := fun d hd => validateInherited_ok (forM_eq_ok.mp hinherited d hd)
    revocation := fun d hd g hg => validateRevocation_ok (forM_eq_ok.mp hrevoked d hd) hg }

end GitE2EE

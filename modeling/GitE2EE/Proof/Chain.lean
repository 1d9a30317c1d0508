import GitE2EE.Proof.Opened

/-!
# Authenticated chains

`Authentic` is what `chainFrom` guarantees about the list it returns, with one
constructor for genesis and one for each entry above another: the entry was read
from somewhere (`Read`), its predecessor link opens to the key of the entry below,
and it passed `verifyEntry` on top of the entries below. Every property of a whole
chain is an induction on it.

What a read guarantees is a parameter, `M`, that may depend on the state the walk
ends in; a walk only asks that later states keep it (`ReaderSpec`).
-/

namespace GitE2EE

open Wire Effect

variable {σ : Type} {P : Primitives} {root : Text}

/-- A manifest that was read and opened with its key. -/
def Read (P : Primitives) (M : Text → Material → Prop) (u : Unverified) : Prop :=
  ∃ name m, M name m ∧ u.id = m.id ∧ openManifest P m.encrypted u.generationKey = .ok u.opened

/-- What `chainFrom` accepts, newest first. -/
inductive Authentic (P : Primitives) (root : Text) (M : Text → Material → Prop) :
    List OpenedState → Prop where
  | genesis {u : Unverified} {s : OpenedState} :
      Read P M u → verifyEntry P root [] u = .ok s → Authentic P root M [s]
  | step {u : Unverified} {s p : OpenedState} {chain : List OpenedState} :
      Read P M u →
      unwrapPredecessorKey P u.generationKey u.opened.manifest p.header = .ok p.generationKey →
      verifyEntry P root (p :: chain) u = .ok s →
      Authentic P root M (p :: chain) → Authentic P root M (s :: p :: chain)

/-- The pack ids of a chain, newest entry first. -/
def packIds (chain : List OpenedState) : List Text :=
  chain.flatMap fun s => s.manifest.newPacks.map PackDescriptor.id

@[simp] theorem packIds_cons (s : OpenedState) (chain : List OpenedState) :
    packIds (s :: chain) = s.manifest.newPacks.map PackDescriptor.id ++ packIds chain := rfl

/-! ## Authentication -/

theorem verifyEntry_ok {chain : List OpenedState} {u : Unverified} {s : OpenedState}
    (h : verifyEntry P root chain u = .ok s) :
    ∃ parentPolicy, selectPolicy P root chain u.opened.manifest = .ok (s.policy, parentPolicy)
      ∧ verifyManifest P u.opened s.policy parentPolicy u.generationKey = .ok ()
      ∧ s.id = u.id ∧ s.manifest = u.opened.manifest ∧ s.header = u.opened.header
      ∧ s.generationKey = u.generationKey ∧ s.verifiedSigner = u.opened.claimedSignerId := by
  simp only [verifyEntry, except_bind_eq_ok] at h
  obtain ⟨⟨policy, parentPolicy⟩, hsel, ⟨⟩, hver, hs⟩ := h
  cases hs
  exact ⟨parentPolicy, hsel, hver, rfl, rfl, rfl, rfl, rfl⟩

theorem insertPackIds_ok {packs : List PackDescriptor} {seen seen' : List Text}
    (h : insertPackIds seen packs = .ok seen') (hnd : seen.Nodup) :
    seen' = (packs.map PackDescriptor.id).reverse ++ seen ∧ seen'.Nodup := by
  induction packs generalizing seen with
  | nil => cases h; exact ⟨rfl, hnd⟩
  | cons pack rest ih =>
    simp only [insertPackIds, except_bind_eq_ok, bailIf_eq_ok] at h
    obtain ⟨⟨⟩, hnew, hrest⟩ := h
    obtain ⟨heq, hnd'⟩ := ih hrest (List.nodup_cons.mpr ⟨hnew, hnd⟩)
    exact ⟨by simp [heq], hnd'⟩

/-- Opened manifests, newest first, whose predecessor links open downwards. -/
inductive Walk (P : Primitives) (M : Text → Material → Prop) : List Unverified → Prop where
  | genesis {u : Unverified} : Read P M u → Walk P M [u]
  | step {u v : Unverified} {rest : List Unverified} :
      Read P M u →
      unwrapPredecessorKey P u.generationKey u.opened.manifest v.opened.header
        = .ok v.generationKey →
      Walk P M (v :: rest) → Walk P M (u :: v :: rest)

theorem Walk.read {M : Text → Material → Prop} {u : Unverified} {rest : List Unverified}
    (h : Walk P M (u :: rest)) : Read P M u := by
  cases h <;> assumption

theorem Walk.tail {M : Text → Material → Prop} {u : Unverified} {rest : List Unverified}
    (h : Walk P M (u :: rest)) : rest = [] ∨ Walk P M rest := by
  cases h with
  | genesis _ => exact .inl rfl
  | step _ _ h => exact .inr h

/-- The state of `verifyEntries` between two entries: `chain` authenticates `below`,
and `seen` is its pack ids. -/
structure Verifying (P : Primitives) (root : Text) (M : Text → Material → Prop)
    (chain : List OpenedState) (seen : List Text) (below : List Unverified) : Prop where
  /-- Nothing yet, or an authentic chain whose newest entry is the last one checked. -/
  authentic : (chain = [] ∧ below = []) ∨
    ∃ s c u b, chain = s :: c ∧ below = u :: b ∧ Authentic P root M chain
      ∧ s.header = u.opened.header ∧ s.generationKey = u.generationKey ∧ s.id = u.id
  seen_perm : seen.Perm (packIds chain)
  seen_nodup : seen.Nodup
  length : chain.length = below.length

theorem verifying_step {M : Text → Material → Prop} {chain : List OpenedState}
    {seen seen' : List Text} {below : List Unverified} {u : Unverified} {s : OpenedState}
    (h : Verifying P root M chain seen below) (hw : Walk P M (u :: below))
    (hpacks : insertPackIds seen u.opened.manifest.newPacks = .ok seen')
    (hs : verifyEntry P root chain u = .ok s) :
    Verifying P root M (s :: chain) seen' (u :: below) := by
  obtain ⟨_, -, -, hid, hm, hh, hk, -⟩ := verifyEntry_ok hs
  obtain ⟨hseen, hnd⟩ := insertPackIds_ok hpacks h.seen_nodup
  refine ⟨.inr ⟨s, chain, u, below, rfl, rfl, ?_, hh, hk, hid⟩, ?_, hnd, by simp [h.length]⟩
  · rcases h.authentic with ⟨rfl, rfl⟩ | ⟨p, c, v, b, rfl, rfl, hp, hph, hpk, -⟩
    · exact .genesis hw.read hs
    · cases hw with
      | step hread hlink _ => exact .step hread (by rw [hph, hpk]; exact hlink) hs hp
  · have hperm : seen'.Perm (s.manifest.newPacks.map PackDescriptor.id ++ packIds chain) := by
      rw [hseen, hm]
      exact (List.reverse_perm _).append h.seen_perm
    simpa [packIds] using hperm

/-- The loop keeps `Verifying`, from the entries checked to all of them. -/
theorem verifyEntries_ok {M : Text → Material → Prop} {above : List Unverified}
    {chain out : List OpenedState} {seen : List Text} {below : List Unverified}
    (h : Verifying P root M chain seen below)
    (hw : above.reverse ++ below = [] ∨ Walk P M (above.reverse ++ below))
    (hout : verifyEntries P root chain seen above = .ok out) :
    ∃ seen', Verifying P root M out seen' (above.reverse ++ below) := by
  induction above generalizing chain seen below with
  | nil => cases hout; exact ⟨seen, h⟩
  | cons u rest ih =>
    simp only [verifyEntries, except_bind_eq_ok] at hout
    obtain ⟨seen', hpacks, s, hs, hrest⟩ := hout
    have hassoc : (u :: rest).reverse ++ below = rest.reverse ++ (u :: below) := by simp
    rw [hassoc] at hw ⊢
    have hwu : Walk P M (u :: below) := by
      rcases hw with hw | hw
      · simp at hw
      · exact walk_suffix hw
    exact ih (verifying_step h hwu hpacks hs) hw hrest
where
  /-- A nonempty suffix of a walk is a walk. -/
  walk_suffix {M : Text → Material → Prop} {front : List Unverified} {u : Unverified}
      {below : List Unverified} (h : Walk P M (front ++ u :: below)) : Walk P M (u :: below) := by
    induction front with
    | nil => exact h
    | cons v front ih =>
      rcases h.tail with hnil | htail
      · simp at hnil
      · exact ih htail

/-- **Authentication of a walk.** -/
theorem verifyOpenedChain_ok {M : Text → Material → Prop} {u : Unverified}
    {rest : List Unverified} {chain : List OpenedState} (hw : Walk P M (u :: rest))
    (h : verifyOpenedChain P root (u :: rest) = .ok chain) :
    Authentic P root M chain ∧ (packIds chain).Nodup ∧ chain.length = rest.length + 1
      ∧ ∃ s c, chain = s :: c ∧ s.id = u.id ∧ s.header = u.opened.header
        ∧ s.generationKey = u.generationKey := by
  have h0 : Verifying P root M [] [] [] :=
    ⟨.inl ⟨rfl, rfl⟩, by simp [packIds], List.nodup_nil, rfl⟩
  obtain ⟨seen, hv⟩ := verifyEntries_ok h0 (.inr (by simpa using hw)) h
  have hrev : (u :: rest).reverse.reverse ++ ([] : List Unverified) = u :: rest := by simp
  rw [hrev] at hv
  rcases hv.authentic with ⟨-, hnil⟩ | ⟨s, c, v, b, rfl, hb, ha, hsh, hsk, hsid⟩
  · cases hnil
  · cases hb
    exact ⟨ha, hv.seen_perm.nodup_iff.mp hv.seen_nodup, by simpa using hv.length,
      s, c, rfl, hsid, hsh, hsk⟩

/-! ## The walk -/

/-- What a proof about a walk needs to know of where the manifests come from. -/
structure ReaderSpec (readMaterial : Text → Action Error σ Material)
    (charge : ManifestHeader → Nat → Action Error σ Unit) (Later : σ → σ → Prop)
    (M : σ → Text → Material → Prop) : Prop where
  refl : ∀ s, Later s s
  trans : ∀ ⦃a b c⦄, Later a b → Later b c → Later a c
  read_later : ∀ name s, Later s (readMaterial name s).2
  charge_later : ∀ header n s, Later s (charge header n s).2
  read_ok : ∀ {name s m s'}, readMaterial name s = (.ok m, s') → M s' name m
  keep : ∀ {s s' name m}, Later s s' → M s name m → M s' name m

theorem Read.mono {M M' : Text → Material → Prop} {u : Unverified}
    (hM : ∀ name m, M name m → M' name m) (h : Read P M u) : Read P M' u := by
  obtain ⟨name, m, hm, hu⟩ := h
  exact ⟨name, m, hM name m hm, hu⟩

section

variable {readMaterial : Text → Action Error σ Material}
variable {charge : ManifestHeader → Nat → Action Error σ Unit}
variable {Later : σ → σ → Prop} {M : σ → Text → Material → Prop}

/-- The manifests one run of the loop visits, newest first, with the states between. -/
inductive Visits (P : Primitives) (readMaterial : Text → Action Error σ Material)
    (charge : ManifestHeader → Nat → Action Error σ Unit) :
    σ → Unverified → List Unverified → σ → Prop where
  | genesis {s : σ} {u : Unverified} :
      u.opened.manifest.previous = none → u.opened.manifest.generation = 0 →
      Visits P readMaterial charge s u [u] s
  | step {s s₁ s₂ s₃ : σ} {u : Unverified} {rest : List Unverified} {previousId : Text}
      {m : Material} {opened : OpenedManifest} {parentKey : SecretKey} :
      u.opened.manifest.previous = some previousId →
      readMaterial previousId s = (.ok m, s₁) →
      charge m.header m.encrypted.length s₁ = (.ok (), s₂) →
      unwrapPredecessorKey P u.generationKey u.opened.manifest m.header = .ok parentKey →
      openManifest P m.encrypted parentKey = .ok opened → opened.header = m.header →
      Visits P readMaterial charge s₂ ⟨m.id, opened, parentKey⟩ rest s₃ →
      Visits P readMaterial charge s u (u :: rest) s₃

theorem Visits.head {s s' : σ} {u : Unverified} {us : List Unverified}
    (h : Visits P readMaterial charge s u us s') : ∃ rest, us = u :: rest := by
  cases h <;> exact ⟨_, rfl⟩

/-- **The loop returns what it visits**, if the fuel lasts and no id comes twice. -/
theorem chainLoop_eq_ok {fuel : Nat} {seen : List Text} {u : Unverified} {us : List Unverified}
    {s s' : σ} :
    chainLoop P readMaterial charge fuel seen u s = (.ok us, s') ↔
      Visits P readMaterial charge s u us s' ∧ us.length ≤ fuel
        ∧ (us.map Unverified.id).Nodup ∧ ∀ v ∈ us, v.id ∉ seen := by
  induction fuel generalizing seen u us s with
  | zero =>
    constructor
    · -- a loop that returns has taken the steps of a visit, each to a name it had not seen
      intro h; cases h
    · rintro ⟨h, hlen, -⟩
      obtain ⟨rest, rfl⟩ := h.head
      simp at hlen
  | succ fuel ih =>
    constructor
    · intro h
      unfold chainLoop at h
      split at h
      · cases h
      rename_i hnew
      cases hprev : u.opened.manifest.previous with
      | none =>
        simp only [hprev] at h
        split at h
        · cases h
        · rename_i hgen
          push Not at hgen
          cases h
          exact ⟨.genesis hprev hgen, by simp, by simp, by simpa using hnew⟩
      | some previousId =>
        simp only [hprev, Action.bind_eq_ok, Action.lift_eq_ok, orInvalid_eq_ok] at h
        obtain ⟨m, s₁, hread, ⟨⟩, s₂, hcharge, parentKey, _, ⟨hkey, rfl⟩, opened, _, ⟨hopen, rfl⟩,
          h⟩ := h
        split at h
        · cases h
        rename_i hheader
        push Not at hheader
        obtain ⟨rest, s₃, hrest, hus⟩ := Action.bind_eq_ok.mp h
        cases hus
        obtain ⟨hvisits, hlen, hnd, hseen⟩ := ih.mp hrest
        refine ⟨.step hprev hread hcharge hkey hopen hheader hvisits, by simpa using hlen,
          List.nodup_cons.mpr ⟨fun hmem => ?_, hnd⟩, fun v hv => ?_⟩
        · obtain ⟨v, hv, hid⟩ := List.mem_map.mp hmem
          exact hseen v hv (by rw [hid]; exact List.mem_cons_self)
        · rcases List.mem_cons.mp hv with rfl | hv
          · exact hnew
          · exact fun hmem => hseen v hv (List.mem_cons_of_mem _ hmem)
    · -- and a visit without repetition is what the loop does, given a round for each entry
      rintro ⟨h, hlen, hnd, hseen⟩
      cases h with
      | genesis hprev hgen =>
        unfold chainLoop
        rw [if_neg (hseen u List.mem_cons_self)]
        simp only [hprev]
        rw [if_neg (by simpa using hgen)]
        rfl
      | @step _ s₁ s₂ _ _ rest previousId m opened parentKey hprev hread hcharge hkey hopen hheader
          hvisits =>
        obtain ⟨hnotin, hnd'⟩ := List.nodup_cons.mp hnd
        have hrest : chainLoop P readMaterial charge fuel (u.id :: seen)
          ⟨m.id, opened, parentKey⟩ s₂
            = (.ok rest, s') := by
          refine ih.mpr ⟨hvisits, by simpa using hlen, hnd', fun v hv hmem => ?_⟩
          rcases List.mem_cons.mp hmem with heq | hmem
          · exact hnotin (heq ▸ List.mem_map_of_mem hv)
          · exact hseen v (List.mem_cons_of_mem _ hv) hmem
        unfold chainLoop
        rw [if_neg (hseen u List.mem_cons_self)]
        simp only [hprev, Action.bind_eq_ok, Action.lift_eq_ok, orInvalid_eq_ok]
        refine ⟨m, s₁, hread, (), s₂, hcharge, parentKey, s₂, ⟨hkey, rfl⟩, opened, s₂,
          ⟨hopen, rfl⟩, ?_⟩
        rw [if_neg (by simpa using hheader)]
        exact Action.bind_eq_ok.mpr ⟨rest, s', hrest, rfl⟩

/-- A predecessor is exactly one generation below. -/
theorem generation_predecessor {u : Unverified} {m : Material} {opened : OpenedManifest}
    {parentKey : SecretKey}
    (hkey : unwrapPredecessorKey P u.generationKey u.opened.manifest m.header = .ok parentKey)
    (hopen : openManifest P m.encrypted parentKey = .ok opened)
    (hheader : opened.header = m.header) :
    opened.manifest.generation + 1 = u.opened.manifest.generation := by
  rw [(opens_of_openManifest hopen).generation, hheader]
  exact (unwrapPredecessorKey_ok hkey).1

/-- A run visits one manifest for each generation. -/
theorem Visits.length_eq {s s' : σ} {u : Unverified} {us : List Unverified}
    (h : Visits P readMaterial charge s u us s') :
    us.length = u.opened.manifest.generation + 1 := by
  induction h with
  | genesis _ hgen => simp [hgen]
  | step _ _ _ hkey hopen hheader _ ih =>
    rw [List.length_cons, ih]
    exact congrArg (· + 1) (generation_predecessor hkey hopen hheader)

/-- **The fuel never runs out**: with more than the generation of the opened manifest,
the loop returns the same outcome, errors included, whatever the fuel is. -/
theorem chainLoop_fuel {fuel more : Nat} {seen : List Text} {u : Unverified} {s : σ}
    {encrypted : Bytes} (hopen : openManifest P encrypted u.generationKey = .ok u.opened)
    (hfuel : u.opened.manifest.generation < fuel) :
    chainLoop P readMaterial charge (fuel + more) seen u s
      = chainLoop P readMaterial charge fuel seen u s := by
  induction fuel generalizing seen u s encrypted with
  | zero => exact absurd hfuel (Nat.not_lt_zero _)
  | succ fuel ih =>
    rw [Nat.succ_add]
    unfold chainLoop
    split
    · rfl
    cases hprev : u.opened.manifest.previous with
    | none => rfl
    | some previousId =>
      simp only
      refine Action.bind_congr_ok fun m s₁ hread => Action.bind_congr_ok fun _ s₂ _ =>
        Action.bind_congr_ok fun parentKey s₃ hkey =>
          Action.bind_congr_ok fun opened s₄ hopened => ?_
      replace hkey := orInvalid_eq_ok.mp (Action.lift_eq_ok.mp hkey).1
      replace hopened := orInvalid_eq_ok.mp (Action.lift_eq_ok.mp hopened).1
      split
      · rfl
      rename_i hheader
      push Not at hheader
      -- the key link makes the generation go down by one, and with it the fuel that is needed
      have hgen := generation_predecessor hkey hopened hheader
      refine Action.bind_congr_left ?_
      exact ih (u := ⟨m.id, opened, parentKey⟩) hopened (by simp only; omega)

theorem Visits.walk (spec : ReaderSpec readMaterial charge Later M) {u : Unverified}
    {us : List Unverified} {s s' : σ} (h : Visits P readMaterial charge s u us s')
    (hu : Read P (M s) u) : Later s s' ∧ Walk P (M s') us := by
  induction h with
  | genesis _ _ => exact ⟨spec.refl _, .genesis hu⟩
  | @step s s₁ s₂ s₃ u rest previousId m opened parentKey _ hread hcharge hkey hopen hheader hvisits
      ih =>
    have h₁ : Later s s₁ := by have := spec.read_later previousId s; rwa [hread] at this
    have h₂ : Later s₁ s₂ := by
      have := spec.charge_later m.header m.encrypted.length s₁; rwa [hcharge] at this
    obtain ⟨h₃, hwalk⟩ := ih ⟨previousId, m, spec.keep h₂ (spec.read_ok hread), rfl, hopen⟩
    obtain ⟨rest', rfl⟩ := hvisits.head
    have hlater := spec.trans h₁ (spec.trans h₂ h₃)
    exact ⟨hlater, .step (hu.mono fun _ _ => spec.keep hlater) (by rw [hheader]; exact hkey) hwalk⟩

theorem openHead_eq_ok {key : KeyFile} {head : Text} {u : Unverified} {s s' : σ} :
    openHead P key readMaterial charge head s = (.ok u, s') ↔
      ∃ m s₁, readMaterial head s = (.ok m, s₁)
        ∧ charge m.header m.encrypted.length s₁ = (.ok (), s')
        ∧ unwrapGenerationKey P m.header key = .ok u.generationKey
        ∧ openManifest P m.encrypted u.generationKey = .ok u.opened ∧ u.id = m.id := by
  unfold openHead
  constructor
  · intro h
    obtain ⟨m, s₁, hread, h⟩ := Action.bind_eq_ok.mp h
    obtain ⟨⟨⟩, s₂, hcharge, h⟩ := Action.bind_eq_ok.mp h
    obtain ⟨generationKey, s₃, hunwrap, h⟩ := Action.bind_eq_ok.mp h
    obtain ⟨opened, s₄, hlift, h⟩ := Action.bind_eq_ok.mp h
    obtain ⟨hkey, rfl⟩ := Action.lift_eq_ok.mp hunwrap
    obtain ⟨hopen, rfl⟩ := Action.lift_eq_ok.mp hlift
    obtain ⟨rfl, rfl⟩ := Action.pure_eq_ok.mp h
    exact ⟨m, s₁, hread, hcharge, hkey, orInvalid_eq_ok.mp hopen, rfl⟩
  · obtain ⟨id, opened, generationKey⟩ := u
    rintro ⟨m, s₁, hread, hcharge, hkey, hopen, rfl⟩
    exact Action.bind_eq_ok.mpr ⟨m, s₁, hread, Action.bind_eq_ok.mpr ⟨(), s', hcharge,
      Action.bind_eq_ok.mpr ⟨generationKey, s', Action.lift_eq_ok.mpr ⟨hkey, rfl⟩,
      Action.bind_eq_ok.mpr ⟨opened, s', Action.lift_eq_ok.mpr ⟨orInvalid_eq_ok.mpr hopen, rfl⟩,
      rfl⟩⟩⟩⟩

/-- **When `chainFrom` returns**, and what. The key file matters in two places only:
the envelope of the head, and the root that genesis is checked against. -/
theorem chainFrom_eq_ok {key : KeyFile} {head : Text} {chain : List OpenedState} {s s' : σ} :
    chainFrom P key readMaterial charge head s = (.ok chain, s') ↔
      ∃ m s₁ s₂ u us, readMaterial head s = (.ok m, s₁)
        ∧ charge m.header m.encrypted.length s₁ = (.ok (), s₂)
        ∧ unwrapGenerationKey P m.header key = .ok u.generationKey
        ∧ openManifest P m.encrypted u.generationKey = .ok u.opened ∧ u.id = m.id
        ∧ Visits P readMaterial charge s₂ u us s' ∧ (us.map Unverified.id).Nodup
        ∧ verifyOpenedChain P key.repositoryRoot us = .ok chain := by
  unfold chainFrom
  constructor
  · intro h
    obtain ⟨u, s₂, hhead, h⟩ := Action.bind_eq_ok.mp h
    obtain ⟨us, s₃, hloop, h⟩ := Action.bind_eq_ok.mp h
    obtain ⟨hverify, rfl⟩ := Action.lift_eq_ok.mp h
    obtain ⟨m, s₁, hread, hcharge, hkey, hopen, hid⟩ := openHead_eq_ok.mp hhead
    obtain ⟨hvisits, -, hnd, -⟩ := chainLoop_eq_ok.mp hloop
    exact ⟨m, s₁, s₂, u, us, hread, hcharge, hkey, hopen, hid, hvisits, hnd,
      orInvalid_eq_ok.mp hverify⟩
  · rintro ⟨m, s₁, s₂, u, us, hread, hcharge, hkey, hopen, hid, hvisits, hnd, hverify⟩
    exact Action.bind_eq_ok.mpr ⟨u, s₂,
      openHead_eq_ok.mpr ⟨m, s₁, hread, hcharge, hkey, hopen, hid⟩,
      Action.bind_eq_ok.mpr ⟨us, s', chainLoop_eq_ok.mpr
        ⟨hvisits, Nat.le_of_eq hvisits.length_eq, hnd, fun _ _ => List.not_mem_nil⟩,
        Action.lift_eq_ok.mpr ⟨orInvalid_eq_ok.mpr hverify, rfl⟩⟩⟩

/-- **What `chainFrom` returns.** -/
theorem chainFrom_ok (spec : ReaderSpec readMaterial charge Later M) {key : KeyFile}
    {head : Text} {chain : List OpenedState} {s s' : σ}
    (h : chainFrom P key readMaterial charge head s = (.ok chain, s')) :
    Later s s' ∧ Authentic P key.repositoryRoot (M s') chain ∧ (packIds chain).Nodup
      ∧ ∃ m first rest, M s' head m ∧ chain = first :: rest ∧ first.id = m.id := by
  obtain ⟨m, s₁, s₂, u, us, hread, hcharge, -, hopen, hid, hvisits, -, hverify⟩ :=
    chainFrom_eq_ok.mp h
  have h₁ : Later s s₁ := by have := spec.read_later head s; rwa [hread] at this
  have h₂ : Later s₁ s₂ := by
    have := spec.charge_later m.header m.encrypted.length s₁; rwa [hcharge] at this
  have hM := spec.keep h₂ (spec.read_ok hread)
  obtain ⟨h₃, hwalk⟩ := hvisits.walk spec ⟨head, m, hM, hid, hopen⟩
  obtain ⟨rest, rfl⟩ := hvisits.head
  obtain ⟨ha, hnd, -, first, c, rfl, hfirst, -⟩ := verifyOpenedChain_ok hwalk hverify
  exact ⟨spec.trans h₁ (spec.trans h₂ h₃), ha, hnd, m, first, c, spec.keep h₃ hM, rfl,
    hfirst.trans hid⟩

end

/-- Any reader at all, with nothing known about what it reads. -/
theorem readerSpec_any (readMaterial : Text → Action Error σ Material)
    (charge : ManifestHeader → Nat → Action Error σ Unit) :
    ReaderSpec readMaterial charge (fun _ _ => True) (fun _ _ _ => True) :=
  ⟨fun _ => trivial, fun _ _ _ _ _ => trivial, fun _ _ => trivial, fun _ _ _ => trivial,
    fun _ => trivial, fun _ _ => trivial⟩

end GitE2EE

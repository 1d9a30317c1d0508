import GitE2EE.Model.Repository
import GitE2EE.Proof.Shape

/-!
# Every authentic chain is accepted

The converse of `chainFrom_ok`. If the objects a reader serves (`M`) make up an
authentic chain with distinct pack ids, then `chainFrom` returns that chain, for
every key file that the envelopes of the head open for. Together the two say that
what a walk accepts depends on the objects alone, and not on the reader, the state
it reads in, or the budget it is charged against.
-/

namespace GitE2EE

open Wire Effect

variable {σ : Type} {P : Primitives} {root : Text}

/-! ## Authentication, once more -/

theorem insertPackIds_eq_ok {packs : List PackDescriptor} {seen seen' : List Text} :
    insertPackIds seen packs = .ok seen' ↔
      seen' = (packs.map PackDescriptor.id).reverse ++ seen
        ∧ (packs.map PackDescriptor.id).Nodup ∧ ∀ pack ∈ packs, pack.id ∉ seen := by
  induction packs generalizing seen with
  | nil =>
    constructor
    · intro h; cases h; simp
    · rintro ⟨rfl, -⟩; rfl
  | cons pack rest ih =>
    simp only [insertPackIds, except_bind_eq_ok, bailIf_eq_ok, ih]
    constructor
    · rintro ⟨⟨⟩, hnew, rfl, hnd, hfresh⟩
      refine ⟨by simp, List.nodup_cons.mpr ⟨fun hmem => ?_, hnd⟩, fun p hp => ?_⟩
      · obtain ⟨p, hp, hid⟩ := List.mem_map.mp hmem
        exact hfresh p hp (by rw [hid]; exact List.mem_cons_self)
      · rcases List.mem_cons.mp hp with rfl | hp
        · exact hnew
        · exact fun hmem => hfresh p hp (List.mem_cons_of_mem _ hmem)
    · rintro ⟨rfl, hnd, hfresh⟩
      obtain ⟨hnotin, hnd⟩ := List.nodup_cons.mp hnd
      refine ⟨(), hfresh pack List.mem_cons_self, by simp, hnd, fun p hp hmem => ?_⟩
      rcases List.mem_cons.mp hmem with hid | hmem
      · exact hnotin (hid ▸ List.mem_map_of_mem hp)
      · exact hfresh p (List.mem_cons_of_mem _ hp) hmem

/-- The pack ids seen once the entries, oldest first, have been checked. -/
def seenAfter (seen : List Text) : List Unverified → List Text
  | [] => seen
  | u :: rest =>
    seenAfter ((u.opened.manifest.newPacks.map PackDescriptor.id).reverse ++ seen) rest

theorem mem_seenAfter {seen : List Text} {us : List Unverified} {id : Text}
    (h : id ∈ seenAfter seen us) :
    id ∈ seen ∨ ∃ u ∈ us, ∃ pack ∈ u.opened.manifest.newPacks, pack.id = id := by
  induction us generalizing seen with
  | nil => exact .inl h
  | cons u rest ih =>
    rcases ih h with hseen | ⟨v, hv, hpack⟩
    · rcases List.mem_append.mp hseen with hu | hseen
      · obtain ⟨pack, hpack, hid⟩ := List.mem_map.mp (List.mem_reverse.mp hu)
        exact .inr ⟨u, List.mem_cons_self, pack, hpack, hid⟩
      · exact .inl hseen
    · exact .inr ⟨v, List.mem_cons_of_mem _ hv, hpack⟩

/-- One more entry on top of what the loop already accepted. -/
theorem verifyEntries_snoc {us : List Unverified} {u : Unverified} {below chain : List OpenedState}
    {seen seen' : List Text} {s : OpenedState}
    (hus : verifyEntries P root below seen us = .ok chain)
    (hpacks : insertPackIds (seenAfter seen us) u.opened.manifest.newPacks = .ok seen')
    (hu : verifyEntry P root chain u = .ok s) :
    verifyEntries P root below seen (us ++ [u]) = .ok (s :: chain) := by
  induction us generalizing below seen with
  | nil =>
    cases hus
    simp only [List.nil_append, verifyEntries, except_bind_eq_ok]
    exact ⟨seen', hpacks, s, hu, rfl⟩
  | cons v rest ih =>
    simp only [verifyEntries, except_bind_eq_ok] at hus
    obtain ⟨seen₁, hv, t, ht, hrest⟩ := hus
    obtain rfl := (insertPackIds_eq_ok.mp hv).1
    simp only [List.cons_append, verifyEntries, except_bind_eq_ok]
    exact ⟨_, hv, t, ht, ih hrest hpacks⟩

/-! ## The walk down an authentic chain -/

/-- A relation between names and manifests that is a store of immutable objects. -/
structure Archive (P : Primitives) (M : Text → Material → Prop) : Prop where
  id : ∀ {name m}, M name m → m.id = name
  unique : ∀ {name m m'}, M name m → M name m' → m = m'
  peek : ∀ {name m}, M name m → peekManifestHeader P m.encrypted = .ok m.header

/-- The reader serves everything in `M`, as long as its state is ready for that many
more reads. -/
def Serves (readMaterial : Text → Action Error σ Material)
    (charge : ManifestHeader → Nat → Action Error σ Unit) (M : Text → Material → Prop)
    (Ready : Nat → σ → Prop) : Prop :=
  ∀ ⦃n s name m⦄, Ready (n + 1) s → M name m → ∃ s₁ s₂, readMaterial name s = (.ok m, s₁)
    ∧ charge m.header m.encrypted.length s₁ = (.ok (), s₂) ∧ Ready n s₂

/-- The entries of a chain as the walk meets them. -/
structure Replayed (P : Primitives) (root : Text) (M : Text → Material → Prop)
    (chain : List OpenedState) (u : Unverified) (rest : List Unverified) : Prop where
  read : Read P M u
  entries : (u :: rest).map (fun v => (v.id, v.opened.manifest)) = entriesOf chain
  head : ∃ s below, chain = s :: below ∧ s.header = u.opened.header
    ∧ s.generationKey = u.generationKey
  verified : verifyEntries P root [] [] (u :: rest).reverse = .ok chain

theorem Read.header {M : Text → Material → Prop} (hM : Archive P M) {u : Unverified}
    (h : Read P M u) : ∃ m, M u.id m ∧ u.id = m.id ∧ u.opened.header = m.header
      ∧ openManifest P m.encrypted u.generationKey = .ok u.opened := by
  obtain ⟨name, m, hm, hid, hopen⟩ := h
  have hpeek := (opens_of_openManifest hopen).peek
  rw [hM.peek hm] at hpeek
  refine ⟨m, ?_, hid, (Except.ok.inj hpeek).symm, hopen⟩
  rw [hid, hM.id hm]
  exact hm

theorem replayed_of_authentic {readMaterial : Text → Action Error σ Material}
    {charge : ManifestHeader → Nat → Action Error σ Unit} {M : Text → Material → Prop}
    {Ready : Nat → σ → Prop} (hM : Archive P M)
    (hserves : Serves readMaterial charge M Ready) {chain : List OpenedState}
    (h : Authentic P root M chain) (hpacks : (packIds chain).Nodup) :
    ∃ u rest, Replayed P root M chain u rest ∧ ∀ n s, Ready (rest.length + n) s →
      ∃ s', Visits P readMaterial charge s u (u :: rest) s' ∧ Ready n s' := by
  induction h with
  | @genesis u s hread hverify =>
    obtain ⟨_, -, -, hid, hm, hh, hk, -⟩ := verifyEntry_ok hverify
    have hgenesis := genesis_of_verifyEntry hread hverify
    refine ⟨u, [], ⟨hread, by simp [entriesOf, hid, hm], ⟨s, [], rfl, hh, hk⟩, ?_⟩,
      fun n st hready => ⟨st, .genesis (hm ▸ hgenesis.previous) (hm ▸ hgenesis.generation), ?_⟩⟩
    · have hnone : u.opened.manifest.newPacks = [] := by rw [← hm]; exact hgenesis.newPacks
      have hempty : verifyEntries P root [] [] [] = .ok [] := rfl
      have hinsert : insertPackIds (seenAfter [] []) u.opened.manifest.newPacks = .ok [] := by
        rw [hnone]
        rfl
      exact verifyEntries_snoc hempty hinsert hverify
    · simpa using hready
  | @step u s p chain hread hlink hverify hbelow ih =>
    obtain ⟨_, -, -, hid, hm, hh, hk, -⟩ := verifyEntry_ok hverify
    have hextends := extends_of_verifyEntry hread hlink hverify
    rw [packIds_cons, hm] at hpacks
    obtain ⟨hnd, hnd', hdisjoint⟩ := List.nodup_append.mp hpacks
    obtain ⟨v, rest, ⟨hv, hentries, ⟨p', below, hcons, hph, hpk⟩, hverified⟩, hvisits⟩ := ih hnd'
    cases hcons
    obtain ⟨m, hvm, hvid, hheader, hopen⟩ := hv.header hM
    -- the entry that the walk visits next is the one the chain has below
    have hvp : v.id = p.id := by
      simp only [List.map_cons, entriesOf, List.cons.injEq, Prod.mk.injEq] at hentries
      exact hentries.1.1
    refine ⟨u, v :: rest, ⟨hread, ?_, ⟨s, p :: chain, rfl, hh, hk⟩, ?_⟩, fun n st hready => ?_⟩
    · rw [List.map_cons, hentries, entriesOf, entriesOf, List.map_cons, ← hid, ← hm]
      rfl
    · rw [List.reverse_cons]
      refine verifyEntries_snoc hverified
        (insertPackIds_eq_ok.mpr ⟨rfl, hnd, fun pack hpack hmem => ?_⟩) hverify
      -- a pack seen below is a pack of the chain below
      rcases mem_seenAfter hmem with hnil | ⟨w, hw, pack', hpack', hsame⟩
      · cases hnil
      · have hw' : (w.id, w.opened.manifest) ∈ entriesOf (p :: chain) := by
          rw [← hentries]
          exact List.mem_map_of_mem (List.mem_reverse.mp hw)
        obtain ⟨e, he, heq⟩ := List.mem_map.mp hw'
        refine hdisjoint _ (List.mem_map_of_mem hpack) _
          (List.mem_flatMap.mpr ⟨e, he, ?_⟩) hsame.symm
        rw [(Prod.mk.inj heq).2]
        exact List.mem_map_of_mem hpack'
    · have hready' : Ready (rest.length + n + 1) st := by
        simpa [Nat.add_right_comm] using hready
      obtain ⟨s₁, s₂, hread₁, hcharge, hready₂⟩ := hserves hready' hvm
      obtain ⟨s', hrest, hready₃⟩ := hvisits n s₂ hready₂
      have hprevious : u.opened.manifest.previous = some v.id := by
        rw [← hm, hextends.previous, hvp]
      refine ⟨s', .step hprevious hread₁ hcharge ?_ hopen hheader ?_, hready₃⟩
      · rw [← hheader, ← hph, hlink, hpk]
      · rw [← hvid]
        exact hrest

/-- Every entry of an authentic chain is in the archive under its id. -/
theorem authentic_stored {M : Text → Material → Prop} (hM : Archive P M)
    {chain : List OpenedState} (h : Authentic P root M chain) :
    ∀ s ∈ chain, ∃ m, M s.id m ∧ m.header = s.header := by
  have stored : ∀ {below : List OpenedState} {u : Unverified} {s : OpenedState}, Read P M u →
      verifyEntry P root below u = .ok s → ∃ m, M s.id m ∧ m.header = s.header := by
    intro below u s hread hverify
    obtain ⟨_, -, -, hid, -, hh, -⟩ := verifyEntry_ok hverify
    obtain ⟨m, hm, -, hheader, -⟩ := hread.header hM
    exact ⟨m, by rw [hid]; exact hm, by rw [hh, hheader]⟩
  induction h with
  | genesis hread hverify =>
    intro s hs
    rw [List.mem_singleton.mp hs]
    exact stored hread hverify
  | step hread _ hverify _ ih =>
    intro s hs
    rcases List.mem_cons.mp hs with rfl | hs
    · exact stored hread hverify
    · exact ih s hs

/-- The ids of an authentic chain are distinct, because its generations are. -/
theorem authentic_ids_nodup {M : Text → Material → Prop} (hM : Archive P M)
    {chain : List OpenedState} (h : Authentic P root M chain) :
    (chain.map OpenedState.id).Nodup := by
  have hstored := authentic_stored hM h
  have hchained := authentic_chained h
  clear h
  induction chain with
  | nil => exact List.nodup_nil
  | cons s back ih =>
    cases hchained with
    | genesis _ => exact List.nodup_singleton _
    | @step _ p back hext hrest =>
      refine List.nodup_cons.mpr ⟨fun hmem => ?_,
        ih (fun t ht => hstored t (List.mem_cons_of_mem _ ht)) hrest⟩
      obtain ⟨t, ht, hid⟩ := List.mem_map.mp hmem
      obtain ⟨m, hm, hs⟩ := hstored s List.mem_cons_self
      obtain ⟨m', hm', ht'⟩ := hstored t (List.mem_cons_of_mem _ ht)
      rw [hid] at hm'
      -- one name has one header, but the generations of two entries differ
      have hheader : s.header = t.header := by rw [← hs, ← ht', hM.unique hm hm']
      obtain ⟨newer, older, heq⟩ := List.append_of_mem ht
      have hgs := chained_generation (Chained.step hext hrest)
      rw [heq] at hrest hgs
      have hgt := chained_generation hrest.suffix
      have hsame : s.manifest.generation = t.manifest.generation := by
        rw [hext.generation_header, hheader,
          ← (hrest.entryOk t (by simp)).generation_header]
      simp only [List.length_append, List.length_cons] at hgs
      omega

/-- **Every authentic chain is accepted**, by every reader that serves its objects and
for every key file that the envelopes of its head open for. -/
theorem chainFrom_of_authentic {readMaterial : Text → Action Error σ Material}
    {charge : ManifestHeader → Nat → Action Error σ Unit} {M : Text → Material → Prop}
    {Ready : Nat → σ → Prop} (hM : Archive P M) (hserves : Serves readMaterial charge M Ready)
    {head : OpenedState} {below : List OpenedState}
    (h : Authentic P root M (head :: below)) (hpacks : (packIds (head :: below)).Nodup)
    {key : KeyFile} (hroot : key.repositoryRoot = root)
    (hkey : unwrapGenerationKey P head.header key = .ok head.generationKey) {n : Nat} {s : σ}
    (hready : Ready ((head :: below).length + n) s) :
    ∃ s', chainFrom P key readMaterial charge head.id s = (.ok (head :: below), s')
      ∧ Ready n s' := by
  obtain ⟨u, rest, ⟨hread, hentries, ⟨p, c, hcons, hh, hk⟩, hverified⟩, hvisits⟩ :=
    replayed_of_authentic hM hserves h hpacks
  cases hcons
  obtain ⟨m, hm, hid, hheader, hopen⟩ := hread.header hM
  have hids : (u :: rest).map Unverified.id = (head :: below).map OpenedState.id := by
    have := congrArg (List.map Prod.fst) hentries
    simpa [entriesOf, Function.comp_def] using this
  have hlength : rest.length = below.length := by simpa using congrArg List.length hids
  have huid : u.id = head.id := (List.cons.inj hids).1
  rw [List.length_cons, ← hlength, Nat.add_right_comm] at hready
  rw [huid] at hm
  obtain ⟨s₁, s₂, hread₁, hcharge, hready₂⟩ := hserves hready hm
  obtain ⟨s', hrest, hready₃⟩ := hvisits n s₂ hready₂
  refine ⟨s', chainFrom_eq_ok.mpr ⟨m, s₁, s₂, u, u :: rest, hread₁, hcharge, ?_, hopen, hid, hrest,
    ?_, ?_⟩, hready₃⟩
  · rw [← hheader, ← hh, hkey, hk]
  · rw [hids]
    exact authentic_ids_nodup hM h
  · rw [hroot]
    exact hverified

end GitE2EE

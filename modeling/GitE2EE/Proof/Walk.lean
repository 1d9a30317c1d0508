import GitE2EE.Lib.Spec
import GitE2EE.Model.Recovery
import GitE2EE.Proof.Accepted

/-!
# What a walk costs

The walk of `chain_from` once more, with a hook wherever a key is used on a manifest and
with the two errors it should never return as parameters. With hooks that do nothing it
is the walk itself (`walkFrom_eq`); with hooks that write a log, the log says what was
read, what was paid, and what keys were used on, in which order.

Whatever the storage answers, each step of the walk goes down one generation. So it reads
no more manifests than the head has generations, and never meets one twice if equal ids
name equal bytes.
-/

namespace GitE2EE

open Wire Effect

/-! ## The walk with hooks -/

section

variable {σ : Type} (P : Primitives) (key : KeyFile)
variable (readMaterial : Text → Action Error σ Material)
variable (charge : ManifestHeader → Nat → Action Error σ Unit)
variable (use : Material → Action Error σ Unit) (cycle early : Error)

/-- `chainLoop` with `use` before each use of a key on a manifest. -/
def walkLoop : Nat → List Text → Unverified → Action Error σ (List Unverified)
  | 0, _, _ => Action.fail (.msg "manifest walk bound exceeded")
  | fuel + 1, seen, entry => do
    if entry.id ∈ seen then
      Action.fail cycle
    else match entry.opened.manifest.previous with
    | none =>
      if entry.opened.manifest.generation ≠ 0 then Action.fail early
      else pure [entry]
    | some previousId => do
      let parent ← readMaterial previousId
      charge parent.header parent.encrypted.length
      use parent
      let parentKey ← Action.lift (orInvalid
        (unwrapPredecessorKey P entry.generationKey entry.opened.manifest parent.header))
      use parent
      let opened ← Action.lift (orInvalid (openManifest P parent.encrypted parentKey))
      if opened.header ≠ parent.header then
        Action.fail (provenInvalid (.msg "predecessor manifest header changed while opening"))
      else do
        let rest ← walkLoop fuel (entry.id :: seen) ⟨parent.id, opened, parentKey⟩
        pure (entry :: rest)

/-- `openHead` with the same hook. -/
def walkHead (head : Text) : Action Error σ Unverified := do
  let material ← readMaterial head
  charge material.header material.encrypted.length
  use material
  let generationKey ← Action.lift (unwrapGenerationKey P material.header key)
  use material
  let opened ← Action.lift (orInvalid (openManifest P material.encrypted generationKey))
  pure ⟨material.id, opened, generationKey⟩

/-- `chainFrom` with the same hook, and `more` fuel than it has. -/
def walkFrom (more : Nat) (head : Text) : Action Error σ (List OpenedState) := do
  let entry ← walkHead P key readMaterial charge use head
  let unverified ← walkLoop P readMaterial charge use cycle early
    (entry.opened.manifest.generation + 1 + more) [] entry
  Action.lift (orInvalid (verifyOpenedChain P key.repositoryRoot unverified))

end

/-- The error for a manifest met twice. -/
def cycleError : Error := provenInvalid (.msg "manifest chain contains a cycle")

/-- The error for a walk that ends above genesis. -/
def earlyEndError : Error := provenInvalid (.msg "manifest chain terminated above generation zero")

/-- What a material is made of: the bytes are any, the header is theirs. -/
def bytesMaterial {σ : Type} (P : Primitives) (read : Text → Action Error σ Bytes) (id : Text) :
    Action Error σ Material := do
  let bytes ← read id
  let header ← Action.lift (orInvalid (peekManifestHeader P bytes))
  pure ⟨id, bytes, header⟩

/-! ## The log -/

inductive Event where
  | read (id : Text)
  | charged (header : ManifestHeader) (byteCount : Nat)
  | keyUsed (material : Material)

/-- A state and what happened so far, latest first. -/
structure Logged (σ : Type) where
  inner : σ
  events : List Event

namespace Logged

variable {σ α : Type}

def log (e : Event) : Action Error (Logged σ) Unit :=
  Action.modify fun s => { s with events := e :: s.events }

def inside (x : Action Error σ α) : Action Error (Logged σ) α :=
  Action.zoom inner (fun s l => { l with inner := s }) x

variable (readMaterial : Text → Action Error σ Material)
variable (charge : ManifestHeader → Nat → Action Error σ Unit)

/-- A read counts, whether it returns or fails. -/
def read (id : Text) : Action Error (Logged σ) Material := do
  log (.read id)
  inside (readMaterial id)

/-- A charge counts once it went through. -/
def charged (header : ManifestHeader) (byteCount : Nat) : Action Error (Logged σ) Unit := do
  inside (charge header byteCount)
  log (.charged header byteCount)

def keyUsed (material : Material) : Action Error (Logged σ) Unit := log (.keyUsed material)

end Logged

/-! ## The hooks change nothing -/

section

variable {σ : Type} {P : Primitives} {readMaterial : Text → Action Error σ Material}
  {charge : ManifestHeader → Nat → Action Error σ Unit}

/-- Without a hook, `walkLoop` is `chainLoop`. -/
theorem walkLoop_eq (fuel : Nat) (seen : List Text) (u : Unverified) :
    walkLoop P readMaterial charge (fun _ => pure ()) cycleError earlyEndError fuel seen u
      = chainLoop P readMaterial charge fuel seen u := by
  induction fuel generalizing seen u with
  | zero => rfl
  | succ fuel ih =>
    unfold walkLoop chainLoop
    simp only [pure_bind, ih]
    rfl

theorem walkFrom_eq {key : KeyFile} (head : Text) :
    walkFrom P key readMaterial charge (fun _ => pure ()) cycleError earlyEndError 0 head
      = chainFrom P key readMaterial charge head := by
  unfold walkFrom chainFrom walkHead openHead
  simp only [pure_bind, walkLoop_eq, Nat.add_zero]

variable {τ : Type} {view : τ → σ} {read' : Text → Action Error τ Material}
  {charge' : ManifestHeader → Nat → Action Error τ Unit} {use : Material → Action Error σ Unit}
  {use' : Material → Action Error τ Unit} {cycle early : Error}

/-- The walk on a state with more in it. -/
theorem walkLoop_mirrors (hread : ∀ id, Mirrors view (read' id) (readMaterial id))
    (hcharge : ∀ header n, Mirrors view (charge' header n) (charge header n))
    (huse : ∀ m, Mirrors view (use' m) (use m)) (fuel : Nat) (seen : List Text) (u : Unverified) :
    Mirrors view (walkLoop P read' charge' use' cycle early fuel seen u)
      (walkLoop P readMaterial charge use cycle early fuel seen u) := by
  induction fuel generalizing seen u with
  | zero => exact .fail
  | succ fuel ih =>
    unfold walkLoop
    refine .ite .fail ?_
    cases u.opened.manifest.previous with
    | none => exact .ite .fail .pure
    | some previousId =>
      refine (hread previousId).bind fun parent => (hcharge _ _).bind fun _ =>
        (huse parent).bind fun _ => Mirrors.lift.bind fun parentKey => (huse parent).bind fun _ =>
        Mirrors.lift.bind fun opened => .ite .fail ?_
      exact (ih _ _).bind fun rest => .pure

theorem walkFrom_mirrors {key : KeyFile} (hread : ∀ id, Mirrors view (read' id) (readMaterial id))
    (hcharge : ∀ header n, Mirrors view (charge' header n) (charge header n))
    (huse : ∀ m, Mirrors view (use' m) (use m)) (more : Nat) (head : Text) :
    Mirrors view (walkFrom P key read' charge' use' cycle early more head)
      (walkFrom P key readMaterial charge use cycle early more head) := by
  unfold walkFrom walkHead
  refine Mirrors.bind ?_ fun entry =>
    (walkLoop_mirrors hread hcharge huse _ _ _).bind fun unverified => .lift
  exact (hread head).bind fun material => (hcharge _ _).bind fun _ => (huse material).bind fun _ =>
    Mirrors.lift.bind fun generationKey => (huse material).bind fun _ =>
    Mirrors.lift.bind fun opened => .pure

end

namespace Logged

variable {σ α : Type}

theorem inside_mirrors (x : Action Error σ α) : Mirrors inner (inside x) x := fun _ => rfl

theorem log_mirrors (e : Event) : Mirrors (σ := Logged σ) inner (log e) (pure ()) := fun _ => rfl

theorem read_mirrors (readMaterial : Text → Action Error σ Material) (id : Text) :
    Mirrors inner (read readMaterial id) (readMaterial id) := fun _ => rfl

theorem charged_mirrors (charge : ManifestHeader → Nat → Action Error σ Unit)
    (header : ManifestHeader) (n : Nat) :
    Mirrors inner (charged charge header n) (charge header n) := by
  have h := (inside_mirrors (charge header n)).bind fun _ =>
    log_mirrors (σ := σ) (.charged header n)
  rw [bind_pure_unit] at h
  exact h

end Logged

/-! ## One generation down at each step -/

section

variable {σ : Type} {P : Primitives} {readMaterial : Text → Action Error σ Material}
  {charge : ManifestHeader → Nat → Action Error σ Unit} {use : Material → Action Error σ Unit}

/-- **The walk ends**: the fuel does not run out, and no walk ends above genesis. -/
theorem walkLoop_ends {cycle early early' : Error} {fuel more : Nat} {seen : List Text}
    {u : Unverified} {s : σ} {encrypted : Bytes}
    (hopen : openManifest P encrypted u.generationKey = .ok u.opened)
    (hfuel : u.opened.manifest.generation < fuel) :
    walkLoop P readMaterial charge use cycle early (fuel + more) seen u s
      = walkLoop P readMaterial charge use cycle early' fuel seen u s := by
  induction fuel generalizing seen u s encrypted with
  | zero => exact absurd hfuel (Nat.not_lt_zero _)
  | succ fuel ih =>
    rw [Nat.succ_add]
    unfold walkLoop
    split
    · rfl
    cases hprev : u.opened.manifest.previous with
    | none =>
      -- an opened manifest without a predecessor is of generation zero: no early end
      have hgen := (opens_of_openManifest hopen).genesis.mpr hprev
      simp only
      rw [if_neg (not_not.mpr hgen), if_neg (not_not.mpr hgen)]
    | some previousId =>
      simp only
      refine Action.bind_congr_ok fun m s₁ hread => Action.bind_congr_ok fun _ s₂ _ =>
        Action.bind_congr_ok fun _ s₃ _ => Action.bind_congr_ok fun parentKey s₄ hkey =>
        Action.bind_congr_ok fun _ s₅ _ => Action.bind_congr_ok fun opened s₆ hopened => ?_
      replace hkey := orInvalid_eq_ok.mp (Action.lift_eq_ok.mp hkey).1
      replace hopened := orInvalid_eq_ok.mp (Action.lift_eq_ok.mp hopened).1
      split
      · rfl
      rename_i hheader
      push Not at hheader
      -- the key link gives the predecessor the generation before, which is what bounds the fuel
      have hgen := generation_predecessor hkey hopened hheader
      refine Action.bind_congr_left ?_
      exact ih (u := ⟨m.id, opened, parentKey⟩) hopened (by simp only; omega)

/-- Every id names one generation, however often it is read. -/
def Names (readMaterial : Text → Action Error σ Material) (generation : Text → Nat) : Prop :=
  ∀ id s m s', readMaterial id s = (.ok m, s') → m.id = id ∧ m.header.generation = generation id

/-- **No manifest comes twice** where ids name contents: what was seen is of a later
generation. -/
theorem walkLoop_acyclic {generation : Text → Nat} (hnames : Names readMaterial generation)
    {cycle cycle' early : Error} {fuel : Nat} {seen : List Text} {u : Unverified} {s : σ}
    (hu : generation u.id = u.opened.manifest.generation)
    (hseen : ∀ id ∈ seen, u.opened.manifest.generation < generation id) :
    walkLoop P readMaterial charge use cycle early fuel seen u s
      = walkLoop P readMaterial charge use cycle' early fuel seen u s := by
  induction fuel generalizing seen u s with
  | zero => rfl
  | succ fuel ih =>
    unfold walkLoop
    -- what has been seen has a greater generation, and a name has one generation only
    have hnew : u.id ∉ seen := by
      intro hmem
      have := hseen u.id hmem
      omega
    rw [if_neg hnew, if_neg hnew]
    cases hprev : u.opened.manifest.previous with
    | none => rfl
    | some previousId =>
      simp only
      refine Action.bind_congr_ok fun m s₁ hread => Action.bind_congr_ok fun _ s₂ _ =>
        Action.bind_congr_ok fun _ s₃ _ => Action.bind_congr_ok fun parentKey s₄ hkey =>
        Action.bind_congr_ok fun _ s₅ _ => Action.bind_congr_ok fun opened s₆ hopened => ?_
      replace hkey := orInvalid_eq_ok.mp (Action.lift_eq_ok.mp hkey).1
      replace hopened := orInvalid_eq_ok.mp (Action.lift_eq_ok.mp hopened).1
      split
      · rfl
      rename_i hheader
      push Not at hheader
      have hgen := generation_predecessor hkey hopened hheader
      obtain ⟨hid, hm⟩ := hnames previousId s m s₁ hread
      refine Action.bind_congr_left (ih (u := ⟨m.id, opened, parentKey⟩) ?_ fun id hid => ?_)
      · rw [hid, ← hm, (opens_of_openManifest hopened).generation, hheader]
      · rcases List.mem_cons.mp hid with rfl | hid
        · simp only
          omega
        · have := hseen id hid
          simp only
          omega

end

/-! ## What a walk keeps -/

section

variable {σ : Type} {P : Primitives} {readMaterial : Text → Action Error σ Material}
  {charge : ManifestHeader → Nat → Action Error σ Unit} {use : Material → Action Error σ Unit}

/-- What is known along a walk, by the hooks: before `n` more reads, after one of them,
and once it is paid for. -/
structure WalkSpec (readMaterial : Text → Action Error σ Material)
    (charge : ManifestHeader → Nat → Action Error σ Unit) (use : Material → Action Error σ Unit)
    (Before : Nat → σ → Prop) (After Paid : Nat → Material → σ → Prop) (End : σ → Prop) :
    Prop where
  read : ∀ n id, Spec (Before (n + 1)) (readMaterial id) (After n) End
  charge : ∀ n m, Spec (After n m) (charge m.header m.encrypted.length) (fun _ => Paid n m) End
  use : ∀ n m, Spec (Paid n m) (use m) (fun _ => Paid n m) End
  next : ∀ n m s, Paid n m s → Before n s
  stop : ∀ n s, Before n s → End s

variable {Before : Nat → σ → Prop} {After Paid : Nat → Material → σ → Prop} {End : σ → Prop}

theorem WalkSpec.walkLoop (spec : WalkSpec readMaterial charge use Before After Paid End)
    {cycle early : Error} {fuel : Nat} {seen : List Text} {u : Unverified} {encrypted : Bytes}
    (hopen : openManifest P encrypted u.generationKey = .ok u.opened) :
    Spec (Before u.opened.manifest.generation)
      (walkLoop P readMaterial charge use cycle early fuel seen u) (fun _ => End) End := by
  induction fuel generalizing seen u encrypted with
  | zero => exact .fail (spec.stop _)
  | succ fuel ih =>
    unfold GitE2EE.walkLoop
    split
    · exact .fail (spec.stop _)
    cases hprev : u.opened.manifest.previous with
    | none =>
      simp only
      split
      · exact .fail (spec.stop _)
      · exact .pure (spec.stop _)
    | some previousId =>
      -- a manifest with a predecessor is not of generation zero
      obtain ⟨n, hn⟩ : ∃ n, u.opened.manifest.generation = n + 1 := by
        refine Nat.exists_eq_succ_of_ne_zero fun h0 => ?_
        rw [(opens_of_openManifest hopen).genesis.mp h0] at hprev
        cases hprev
      simp only [hn]
      have hend : ∀ m s, Paid n m s → End s := fun m s h => spec.stop n s (spec.next n m s h)
      refine (spec.read n previousId).bind _ fun m => (spec.charge n m).bind _ fun _ =>
        (spec.use n m).bind _ fun _ => ?_
      refine Spec.bind (fun parentKey s => unwrapPredecessorKey P u.generationKey u.opened.manifest
        m.header = .ok parentKey ∧ Paid n m s) (.lift (fun parentKey hkey s hs => ?_) (hend m))
        fun parentKey => .fact fun hkey => (spec.use n m).bind _ fun _ => ?_
      · exact ⟨orInvalid_eq_ok.mp hkey, hs⟩
      refine Spec.bind (fun opened s => openManifest P m.encrypted parentKey = .ok opened
        ∧ Paid n m s) (.lift (fun opened hopened s hs => ?_) (hend m))
        fun opened => .fact fun hopened => ?_
      · exact ⟨orInvalid_eq_ok.mp hopened, hs⟩
      split
      · exact .fail (hend m)
      rename_i hheader
      push Not at hheader
      have hgen : opened.manifest.generation = n := by
        have := generation_predecessor hkey hopened hheader
        omega
      refine Spec.bind (fun _ => End) ?_ fun rest => .pure fun s hs => hs
      have hrest := @ih (u.id :: seen) ⟨m.id, opened, parentKey⟩ _ hopened
      simp only [hgen] at hrest
      exact hrest.weaken (spec.next n m) (fun _ _ h => h) fun _ h => h

/-- The whole walk: the first read decides how many follow. -/
theorem WalkSpec.walkFrom (spec : WalkSpec readMaterial charge use Before After Paid End)
    {key : KeyFile} {cycle early : Error} {more : Nat} {head : Text} {Start : σ → Prop}
    (hread : Spec Start (readMaterial head) (fun m s => peekManifestHeader P
      m.encrypted = .ok m.header
      ∧ After m.header.generation m s) End) :
    Spec Start (walkFrom P key readMaterial charge use cycle early more head)
      (fun _ => End) End := by
  unfold GitE2EE.walkFrom walkHead
  have hend : ∀ n m s, Paid n m s → End s := fun n m s h => spec.stop n s (spec.next n m s h)
  refine Spec.bind (fun u s => (∃ encrypted, openManifest P encrypted u.generationKey
    = .ok u.opened)
      ∧ Before u.opened.manifest.generation s) ?_ fun u => .fact fun ⟨encrypted, hopen⟩ =>
    (spec.walkLoop hopen).bind _ fun unverified => .lift (fun _ _ _ h => h) fun _ h => h
  refine hread.bind _ fun m => .fact fun hpeek => ?_
  refine (spec.charge _ m).bind _ fun _ => (spec.use _ m).bind _ fun _ => ?_
  refine Spec.bind (fun _ => Paid m.header.generation m) (.lift (fun _ _ _ h => h) (hend _ m))
    fun generationKey => (spec.use _ m).bind _ fun _ => ?_
  refine Spec.bind (fun opened s => openManifest P m.encrypted generationKey = .ok opened
    ∧ Paid m.header.generation m s) (.lift (fun opened hopened s hs => ?_) (hend _ m))
    fun opened => .fact fun hopened => .pure fun s hs => ⟨⟨m.encrypted, hopened⟩, ?_⟩
  · exact ⟨orInvalid_eq_ok.mp hopened, hs⟩
  · -- the generation peeked at before any key was used is the one that was opened
    have hopens := opens_of_openManifest hopened
    have hheader : opened.header = m.header := Except.ok.inj (hopens.peek.symm.trans hpeek)
    simp only [hopens.generation, hheader]
    exact spec.next _ m s hs

end

/-! ## What the log says -/

namespace Event

/-- The reads in a log. -/
def reads : List Event → Nat
  | [] => 0
  | .read _ :: events => reads events + 1
  | .charged _ _ :: events => reads events
  | .keyUsed _ :: events => reads events

/-- The manifests keys were used on, each once for the charge that came before. -/
def opened : List Event → List Material
  | .keyUsed m :: .charged _ _ :: events => m :: opened events
  | .keyUsed _ :: events => opened events
  | .charged _ _ :: events => opened events
  | .read _ :: events => opened events
  | [] => []

/-- What was charged, in bytes and in operations. -/
def paid : List Event → Nat × Nat
  | [] => (0, 0)
  | .charged header n :: events =>
    ((paid events).1 + n, (paid events).2 + (2 * header.generationKeyEnvelopes.length + 1))
  | .read _ :: events => paid events
  | .keyUsed _ :: events => paid events

/-- What the manifests keys were used on come to, in bytes and in operations. -/
def cost : List Material → Nat × Nat
  | [] => (0, 0)
  | m :: rest => ((cost rest).1 + m.encrypted.length,
    (cost rest).2 + (2 * m.header.generationKeyEnvelopes.length + 1))

/-- Before a key is used on a manifest, that manifest is charged, and nothing comes in
between but another use of a key on it. -/
inductive Orderly : List Event → Prop where
  | nil : Orderly []
  | read {id : Text} {events : List Event} : Orderly events → Orderly (.read id :: events)
  | charged {header : ManifestHeader} {n : Nat} {events : List Event} :
      Orderly events → Orderly (.charged header n :: events)
  | first {m : Material} {events : List Event} :
      Orderly events → Orderly (.keyUsed m :: .charged m.header m.encrypted.length :: events)
  | again {m : Material} {events : List Event} :
      Orderly (.keyUsed m :: events) → Orderly (.keyUsed m :: .keyUsed m :: events)

/-- Every manifest a key was used on is counted. -/
theorem Orderly.mem_opened {events : List Event} (h : Orderly events) {m : Material}
    (hm : .keyUsed m ∈ events) : m ∈ opened events := by
  induction h with
  | nil => cases hm
  | read _ ih | charged _ ih =>
    rcases List.mem_cons.mp hm with h | hm
    · cases h
    · exact ih hm
  -- a first use of a key comes right after its charge; a second one follows a first
  | first _ ih =>
    rcases List.mem_cons.mp hm with h | hm
    · cases h
      exact List.mem_cons_self
    · rcases List.mem_cons.mp hm with h | hm
      · cases h
      · exact List.mem_cons_of_mem _ (ih hm)
  | again _ ih =>
    rcases List.mem_cons.mp hm with h | hm
    · cases h
      exact ih List.mem_cons_self
    · exact ih hm

/-- What keys were used on was paid for. -/
theorem Orderly.cost_le {events : List Event} (h : Orderly events) :
    (cost (opened events)).1 ≤ (paid events).1 ∧ (cost (opened events)).2 ≤ (paid events).2 := by
  induction h with
  | nil => exact ⟨Nat.le_refl _, Nat.le_refl _⟩
  | read _ ih => exact ih
  | charged _ ih => exact ⟨Nat.le_add_right_of_le ih.1, Nat.le_add_right_of_le ih.2⟩
  | first _ ih => exact ⟨Nat.add_le_add_right ih.1 _, Nat.add_le_add_right ih.2 _⟩
  | again _ ih => exact ih

end Event

namespace Logged

section

variable {σ : Type} {P : Primitives} {readMaterial : Text → Action Error σ Material}
  {charge : ManifestHeader → Nat → Action Error σ Unit}

/-- What a charge leaves in step with what was paid. -/
structure Ledger (readMaterial : Text → Action Error σ Material)
    (charge : ManifestHeader → Nat → Action Error σ Unit) (Balance : σ → Nat × Nat → Prop) :
    Prop where
  read : ∀ id s p, Balance s p → Balance (readMaterial id s).2 p
  charge_ok : ∀ {header n s s' p}, Balance s p → charge header n s = (.ok (), s') →
    Balance s' (p.1 + n, p.2 + (2 * header.generationKeyEnvelopes.length + 1))
  charge_error : ∀ {header n s s' p e}, Balance s p → charge header n s = (.error e, s') →
    Balance s' p

/-- At most `N` reads, in order, and paid for. -/
structure Sound (Balance : σ → Nat × Nat → Prop) (N : Nat) (l : Logged σ) : Prop where
  reads : Event.reads l.events ≤ N
  orderly : Event.Orderly l.events
  balance : Balance l.inner (Event.paid l.events)

variable {Balance : σ → Nat × Nat → Prop}

theorem spec_read (ledger : Ledger readMaterial charge Balance) {N n : Nat} (id : Text) :
    Spec (fun l => Event.reads l.events + (n + 1) ≤ N ∧ Sound Balance N l) (read readMaterial id)
      (fun _ l => Event.reads l.events + n ≤ N ∧ Sound Balance N l) (Sound Balance N) := by
  have hafter : ∀ l : Logged σ, Event.reads l.events + (n + 1) ≤ N ∧ Sound Balance N l →
      Event.reads (read readMaterial id l).2.events + n ≤ N
        ∧ Sound Balance N (read readMaterial id l).2 := by
    rintro l ⟨hn, hl⟩
    have hreads : Event.reads (read readMaterial id l).2.events = Event.reads l.events + 1 := rfl
    refine ⟨by omega, by omega, hl.orderly.read, ledger.read id l.inner _ hl.balance⟩
  refine Spec.intro (fun l hl m l' h => ?_) fun l hl e l' h => ?_
  · have := hafter l hl
    rw [h] at this
    exact this
  · have := hafter l hl
    rw [h] at this
    exact this.2

theorem inside_eq {α : Type} {x : Action Error σ α} {l l' : Logged σ} {r : Except Error α}
    (h : inside x l = (r, l')) : x l.inner = (r, l'.inner) ∧ l'.events = l.events := by
  cases h
  exact ⟨rfl, rfl⟩

theorem spec_charged (ledger : Ledger readMaterial charge Balance) {N n : Nat} (m : Material) :
    Spec (fun l => Event.reads l.events + n ≤ N ∧ Sound Balance N l)
      (charged charge m.header m.encrypted.length)
      (fun _ l => Event.reads l.events + n ≤ N ∧ Sound Balance N l
        ∧ Event.Orderly (.keyUsed m :: l.events)) (Sound Balance N) := by
  refine Spec.bind (fun _ l => Event.reads l.events + n ≤ N ∧ Event.Orderly l.events
    ∧ Balance l.inner (Event.paid (.charged m.header m.encrypted.length :: l.events))) ?_
    fun _ => ?_
  · refine Spec.intro (fun l hl _ l' h => ?_) fun l hl e l' h => ?_
    · -- a charge that succeeds is logged; a refused one leaves the log as it was
      obtain ⟨hcharge, hevents⟩ := inside_eq h
      rw [hevents]
      exact ⟨hl.1, hl.2.orderly, ledger.charge_ok hl.2.balance hcharge⟩
    · obtain ⟨hcharge, hevents⟩ := inside_eq h
      refine ⟨?_, ?_, ?_⟩
      · rw [hevents]
        exact hl.2.reads
      · rw [hevents]
        exact hl.2.orderly
      · rw [hevents]
        exact ledger.charge_error hl.2.balance hcharge
  · rintro l ⟨hn, horderly, hbalance⟩
    have hreads : Event.reads (.charged m.header m.encrypted.length :: l.events)
        = Event.reads l.events := rfl
    exact ⟨hn, ⟨by rw [hreads]; omega, horderly.charged, hbalance⟩, horderly.first⟩

/-- What the log of a walk keeps to. -/
theorem walkSpec (ledger : Ledger readMaterial charge Balance) (N : Nat) :
    WalkSpec (read readMaterial) (charged charge) keyUsed
      (fun n l => Event.reads l.events + n ≤ N ∧ Sound Balance N l)
      (fun n _ l => Event.reads l.events + n ≤ N ∧ Sound Balance N l)
      (fun n m l => Event.reads l.events + n ≤ N ∧ Sound Balance N l
        ∧ Event.Orderly (.keyUsed m :: l.events)) (Sound Balance N) where
  read n id := spec_read ledger id
  charge n m := spec_charged ledger m
  use n m := by
    rintro l ⟨hn, hl, horderly⟩
    exact ⟨hn, ⟨hl.reads, horderly, hl.balance⟩, horderly.again⟩
  next n m l h := ⟨h.1, h.2.1⟩
  stop n l h := h.2

end

end Logged

/-! ## Whole walks -/

section

variable {σ : Type} (P : Primitives) (key : KeyFile) (read : Text → Action Error σ Bytes)
  (charge : ManifestHeader → Nat → Action Error σ Unit)

/-- The generation in the header of the head. -/
def headGeneration (head : Text) (s : σ) : Nat :=
  match (bytesMaterial P read head s).1 with
  | .ok m => m.header.generation
  | .error _ => 0

/-- `chain_from` with a log, more fuel, and other errors where it never ends. -/
def loggedWalk (more : Nat) (cycle early : Error) (head : Text) :
    Action Error (Logged σ) (List OpenedState) :=
  walkFrom P key (Logged.read (bytesMaterial P read)) (Logged.charged charge) Logged.keyUsed
    cycle early more head

variable {P key read charge}

theorem bytesMaterial_ok {id : Text} {s s' : σ} {m : Material}
    (h : bytesMaterial P read id s = (.ok m, s')) :
    read id s = (.ok m.encrypted, s') ∧ peekManifestHeader P m.encrypted = .ok m.header
      ∧ m.id = id := by
  obtain ⟨bytes, s₁, hread, h⟩ := Action.bind_eq_ok.mp h
  obtain ⟨header, s₂, hlift, h⟩ := Action.bind_eq_ok.mp h
  obtain ⟨hpeek, rfl⟩ := Action.lift_eq_ok.mp hlift
  obtain ⟨rfl, rfl⟩ := Action.pure_eq_ok.mp h
  exact ⟨hread, orInvalid_eq_ok.mp hpeek, rfl⟩

/-- One walk, from wherever the log is. -/
theorem loggedWalk_sound {Balance : σ → Nat × Nat → Prop}
    (ledger : Logged.Ledger (bytesMaterial P read) charge Balance) {more : Nat}
    {cycle early : Error} {head : Text} {l : Logged σ} (horderly : Event.Orderly l.events)
    (hbalance : Balance l.inner (Event.paid l.events)) :
    Logged.Sound Balance (Event.reads l.events + (headGeneration P read head l.inner + 1))
      (loggedWalk P key read charge more cycle early head l).2 := by
  have hsound : Logged.Sound Balance
      (Event.reads l.events + (headGeneration P read head l.inner + 1)) l :=
    ⟨Nat.le_add_right _ _, horderly, hbalance⟩
  have hspec : Spec (· = l) (loggedWalk P key read charge more cycle early head)
      (fun _ => Logged.Sound Balance
        (Event.reads l.events + (headGeneration P read head l.inner + 1)))
      (Logged.Sound Balance (Event.reads l.events + (headGeneration P read head l.inner + 1))) := by
    -- the first read decides how many more there can be: one for every generation below the head's
    refine (Logged.walkSpec ledger _).walkFrom ?_
    have hread := Logged.spec_read ledger (n := headGeneration P read head l.inner)
      (N := Event.reads l.events + (headGeneration P read head l.inner + 1)) head
    refine Spec.intro ?_ ?_
    · intro l₀ hl₀ m l' h
      obtain rfl : l = l₀ := hl₀.symm
      obtain ⟨hmaterial, -⟩ := Logged.inside_eq h
      replace hmaterial : bytesMaterial P read head l.inner = (.ok m, l'.inner) := hmaterial
      have hgen : headGeneration P read head l.inner = m.header.generation := by
        rw [headGeneration, hmaterial]
      rw [← hgen]
      exact ⟨(bytesMaterial_ok hmaterial).2.1, hread.ok ⟨Nat.le_refl _, hsound⟩ h⟩
    · intro l₀ hl₀ e l' h
      obtain rfl : l = l₀ := hl₀.symm
      exact hread.error ⟨Nat.le_refl _, hsound⟩ h
  have := hspec l rfl
  cases h : loggedWalk P key read charge more cycle early head l with
  | mk r l' =>
    rw [h] at this
    cases r <;> exact this

/-- Nothing is asked of a charge that says nothing about a budget. -/
theorem ledger_any : Logged.Ledger (bytesMaterial P read) charge fun _ _ => True :=
  ⟨fun _ _ _ _ => trivial, fun _ _ => trivial, fun _ _ => trivial⟩

/-- The head opened, and what the loop starts with. -/
theorem walkHead_ok {readMaterial : Text → Action Error σ Material}
    {use : Material → Action Error σ Unit} {head : Text} {s s' : σ} {u : Unverified}
    (h : walkHead P key readMaterial charge use head s = (.ok u, s')) :
    ∃ m s₁, readMaterial head s = (.ok m, s₁)
      ∧ openManifest P m.encrypted u.generationKey = .ok u.opened ∧ u.id = m.id := by
  obtain ⟨m, s₁, hread, h⟩ := Action.bind_eq_ok.mp h
  obtain ⟨-, s₂, -, h⟩ := Action.bind_eq_ok.mp h
  obtain ⟨-, s₃, -, h⟩ := Action.bind_eq_ok.mp h
  obtain ⟨generationKey, s₄, -, h⟩ := Action.bind_eq_ok.mp h
  obtain ⟨-, s₅, -, h⟩ := Action.bind_eq_ok.mp h
  obtain ⟨opened, s₆, hopen, h⟩ := Action.bind_eq_ok.mp h
  obtain ⟨rfl, rfl⟩ := Action.pure_eq_ok.mp h
  exact ⟨m, s₁, hread, orInvalid_eq_ok.mp (Action.lift_eq_ok.mp hopen).1, rfl⟩

/-- The fuel of `chain_from` suffices, and no walk ends above genesis. -/
theorem walkFrom_ends {readMaterial : Text → Action Error σ Material}
    {use : Material → Action Error σ Unit} {cycle early early' : Error} (more : Nat) (head : Text)
    (s : σ) :
    walkFrom P key readMaterial charge use cycle early more head s
      = walkFrom P key readMaterial charge use cycle early' 0 head s := by
  unfold walkFrom
  refine Action.bind_congr_ok fun u s₁ hhead => Action.bind_congr_left ?_
  obtain ⟨m, -, -, hopen, -⟩ := walkHead_ok hhead
  exact walkLoop_ends hopen (Nat.lt_succ_self _)

/-- No walk over ids that name contents meets one twice. -/
theorem walkFrom_acyclic {readMaterial : Text → Action Error σ Material}
    {use : Material → Action Error σ Unit} {generation : Text → Nat}
    (hnames : Names readMaterial generation)
    (hpeek : ∀ id s m s', readMaterial id s = (.ok m, s') →
      peekManifestHeader P m.encrypted = .ok m.header)
    {cycle cycle' early : Error} (more : Nat) (head : Text) (s : σ) :
    walkFrom P key readMaterial charge use cycle early more head s
      = walkFrom P key readMaterial charge use cycle' early more head s := by
  unfold walkFrom
  refine Action.bind_congr_ok fun u s₁ hhead => Action.bind_congr_left ?_
  obtain ⟨m, s₂, hread, hopen, hid⟩ := walkHead_ok hhead
  obtain ⟨hmid, hgen⟩ := hnames head s m s₂ hread
  have hopens := opens_of_openManifest hopen
  have hheader : u.opened.header = m.header :=
    Except.ok.inj (hopens.peek.symm.trans (hpeek head s m s₂ hread))
  refine walkLoop_acyclic hnames ?_ fun id hmem => by cases hmem
  rw [hid, hmid, ← hgen, hopens.generation, hheader]

/-- What is read under an id is always the same. -/
def ContentAddressed (read : Text → Action Error σ Bytes) (content : Text → Bytes) : Prop :=
  ∀ id s bytes s', read id s = (.ok bytes, s') → bytes = content id

theorem ContentAddressed.names {content : Text → Bytes} (h : ContentAddressed read content) :
    Names (bytesMaterial P read) fun id =>
      match peekManifestHeader P (content id) with
      | .ok header => header.generation
      | .error _ => 0 := by
  intro id s m s' hm
  obtain ⟨hread, hpeek, hid⟩ := bytesMaterial_ok hm
  rw [h id s _ s' hread] at hpeek
  refine ⟨hid, ?_⟩
  simp only [hpeek]

/-- **One walk**, whatever the storage answers and whatever is charged. -/
structure BoundedWalk (P : Primitives) (key : KeyFile) (read : Text → Action Error σ Bytes)
    (charge : ManifestHeader → Nat → Action Error σ Unit) (head : Text) (s : σ) : Prop where
  /-- The log is of the walk that `chain_from` does. -/
  same : chainFrom P key (bytesMaterial P read) charge head s
    = ((loggedWalk P key read charge 0 cycleError earlyEndError head ⟨s, []⟩).1,
      (loggedWalk P key read charge 0 cycleError earlyEndError head ⟨s, []⟩).2.inner)
  reads : Event.reads
      (loggedWalk P key read charge 0 cycleError earlyEndError head ⟨s, []⟩).2.events
    ≤ headGeneration P read head s + 1
  orderly : Event.Orderly
    (loggedWalk P key read charge 0 cycleError earlyEndError head ⟨s, []⟩).2.events
  /-- More fuel, or another error for a walk that ends above genesis, changes nothing. -/
  ends : ∀ more early, loggedWalk P key read charge more cycleError early head ⟨s, []⟩
    = loggedWalk P key read charge 0 cycleError earlyEndError head ⟨s, []⟩
  /-- Nor does another error for a cycle, where ids name contents. -/
  acyclic : ∀ content, ContentAddressed read content → ∀ cycle,
    loggedWalk P key read charge 0 cycle earlyEndError head ⟨s, []⟩
      = loggedWalk P key read charge 0 cycleError earlyEndError head ⟨s, []⟩

theorem boundedWalk (P : Primitives) (key : KeyFile) (read : Text → Action Error σ Bytes)
    (charge : ManifestHeader → Nat → Action Error σ Unit) (head : Text) (s : σ) :
    BoundedWalk P key read charge head s := by
  have hsound : Logged.Sound (fun _ _ => True) _
      (loggedWalk P key read charge 0 cycleError earlyEndError head ⟨s, []⟩).2 :=
    loggedWalk_sound ledger_any .nil trivial
  refine ⟨?_, ?_, hsound.orderly, fun more early => walkFrom_ends more head _,
    fun content hcontent cycle => ?_⟩
  · rw [← walkFrom_eq]
    have hmirrors : Mirrors Logged.inner (loggedWalk P key read charge 0 cycleError earlyEndError
        head) _ := walkFrom_mirrors (Logged.read_mirrors _) (Logged.charged_mirrors _)
      (fun m => Logged.log_mirrors _) 0 head
    exact hmirrors ⟨s, []⟩
  · have := hsound.reads
    simpa [Event.reads] using this
  · have hnames : Names (Logged.read (bytesMaterial P read)) _ := fun id l m l' h =>
      hcontent.names id _ m _ (Logged.inside_eq h).1
    refine walkFrom_acyclic hnames (fun id l m l' h => ?_) 0 head _
    · obtain ⟨hmaterial, -⟩ := Logged.inside_eq h
      exact (bytesMaterial_ok hmaterial).2.1

end

/-! ## Under a budget -/

section

variable {τ : Type}

/-- A reader that knows nothing of the budget. -/
def besideBudget (read : Text → Action Error τ Bytes) (id : Text) :
    Action Error (τ × RecoveryBudget) Bytes :=
  Action.zoom Prod.fst (fun t s => (t, s.2)) (read id)

def chargeBudget (header : ManifestHeader) (byteCount : Nat) :
    Action Error (τ × RecoveryBudget) Unit :=
  Action.zoom Prod.snd (fun b s => (s.1, b)) (RecoveryBudget.chargeManifest header byteCount)

/-- What was charged is in the budget, and within its limits. -/
structure WithinBudget (s : τ × RecoveryBudget) (paid : Nat × Nat) : Prop where
  bytes : paid.1 ≤ s.2.bytesRead
  operations : paid.2 ≤ s.2.cryptoOperations
  maxBytes : paid.1 ≤ MAX_RECOVERY_BYTES
  maxOperations : paid.2 ≤ MAX_RECOVERY_CRYPTO_OPERATIONS

theorem operations_eq {header : ManifestHeader} {operations : Nat}
    (h : RecoveryBudget.operations header = some operations) :
    operations = 2 * header.generationKeyEnvelopes.length + 1 := by
  obtain ⟨twice, htwice, hadd⟩ := Option.bind_eq_some_iff.mp h
  unfold checkedMul at htwice
  split at htwice
  · cases htwice
    rw [← (checkedAdd_eq_some.mp hadd).1, Nat.mul_comm]
  · cases htwice

/-- **What a charge does**: it is within the limits, or it fails and gives nothing back. -/
theorem spec_chargeManifest (header : ManifestHeader) (n : Nat) (b : RecoveryBudget) :
    Spec (· = b) (RecoveryBudget.chargeManifest header n)
      (fun _ b' => b'.bytesRead = b.bytesRead + n
        ∧ b'.cryptoOperations = b.cryptoOperations + (2 * header.generationKeyEnvelopes.length + 1)
        ∧ b'.bytesRead ≤ MAX_RECOVERY_BYTES
        ∧ b'.cryptoOperations ≤ MAX_RECOVERY_CRYPTO_OPERATIONS)
      fun b' => b.bytesRead ≤ b'.bytesRead ∧ b.cryptoOperations ≤ b'.cryptoOperations := by
  have hread : ∀ b' : RecoveryBudget, b' = { b with bytesRead := b.bytesRead + n } →
      b.bytesRead ≤ b'.bytesRead ∧ b.cryptoOperations ≤ b'.cryptoOperations := by
    rintro b' rfl
    exact ⟨Nat.le_add_right _ _, Nat.le_refl _⟩
  have hsame : ∀ b' : RecoveryBudget, b' = b →
      b.bytesRead ≤ b'.bytesRead ∧ b.cryptoOperations ≤ b'.cryptoOperations := by
    rintro b' rfl
    exact ⟨Nat.le_refl _, Nat.le_refl _⟩
  refine Spec.bind (fun budget b' => budget = b ∧ b' = b) (fun b' h => ⟨h, h⟩) fun budget =>
    .fact ?_
  rintro rfl
  refine Spec.bind (fun bytesRead b' => bytesRead = budget.bytesRead + n ∧ b' = budget)
    (.lift (fun bytesRead h b' hb' => ?_) hsame) fun bytesRead => .fact ?_
  · exact ⟨(checkedAdd_eq_some.mp (orBail_eq_ok.mp h)).1.symm, hb'⟩
  rintro rfl
  refine Spec.bind (fun _ b' => b' = { budget with bytesRead := budget.bytesRead + n })
    (fun b' hb' => by rw [hb']; rfl) fun _ => ?_
  -- the bytes are counted before they are checked, so a refused charge keeps them
  split
  · exact .fail hread
  rename_i hbytes
  refine Spec.bind (fun operations b' => operations = 2 * header.generationKeyEnvelopes.length + 1
      ∧ b' = { budget with bytesRead := budget.bytesRead + n })
    (.lift (fun operations h b' hb' => ⟨operations_eq (orBail_eq_ok.mp h), hb'⟩) hread)
    fun operations => .fact ?_
  rintro rfl
  refine Spec.bind (fun cryptoOperations b' => cryptoOperations = budget.cryptoOperations
      + (2 * header.generationKeyEnvelopes.length + 1)
      ∧ b' = { budget with bytesRead := budget.bytesRead + n })
    (.lift (fun cryptoOperations h b' hb' => ?_) hread) fun cryptoOperations => .fact ?_
  · exact ⟨(checkedAdd_eq_some.mp (orBail_eq_ok.mp h)).1.symm, hb'⟩
  rintro rfl
  refine Spec.bind (fun _ b' => b' = ⟨budget.cryptoOperations
      + (2 * header.generationKeyEnvelopes.length + 1), budget.bytesRead + n⟩)
    (fun b' hb' => by rw [hb']; rfl) fun _ => ?_
  split
  · refine .fail ?_
    rintro b' rfl
    exact ⟨Nat.le_add_right _ _, Nat.le_add_right _ _⟩
  · rename_i hoperations
    refine .pure ?_
    rintro b' rfl
    exact ⟨rfl, rfl, Nat.le_of_not_lt hbytes, Nat.le_of_not_lt hoperations⟩

theorem ledger_budget (P : Primitives) (read : Text → Action Error τ Bytes) :
    Logged.Ledger (bytesMaterial P (besideBudget read)) chargeBudget WithinBudget where
  read id s p h := by
    -- reading does not touch the budget
    have hkeeps : Keeps (fun s s' : τ × RecoveryBudget => s'.2 = s.2)
        (bytesMaterial P (besideBudget read) id) := by
      refine Keeps.bind (fun _ _ _ hab hbc => hbc.trans hab) (fun _ => rfl) fun bytes => ?_
      exact Keeps.bind (fun _ _ _ hab hbc => hbc.trans hab) (fun _ => rfl) fun _ _ => rfl
    have hsame := hkeeps s
    exact ⟨hsame ▸ h.bytes, hsame ▸ h.operations, h.maxBytes, h.maxOperations⟩
  charge_ok := by
    intro header n s s' p h hcharge
    obtain ⟨hx, rfl⟩ := Action.zoom_eq hcharge
    obtain ⟨hbytes, hoperations, hmax, hmax'⟩ := (spec_chargeManifest header n s.2).ok rfl hx
    have h₁ := h.bytes
    have h₂ := h.operations
    refine ⟨?_, ?_, ?_, ?_⟩ <;> simp only <;> omega
  charge_error := by
    intro header n s s' p e h hcharge
    obtain ⟨hx, rfl⟩ := Action.zoom_eq hcharge
    obtain ⟨hbytes, hoperations⟩ := (spec_chargeManifest header n s.2).error rfl hx
    exact ⟨Nat.le_trans h.bytes hbytes, Nat.le_trans h.operations hoperations, h.maxBytes,
      h.maxOperations⟩

/-- Walks under one budget, one after another, whatever becomes of each. -/
def walkAll (P : Primitives) (key : KeyFile) (read : Text → Action Error τ Bytes) :
    List Text → Action Error (Logged (τ × RecoveryBudget)) Unit
  | [] => pure ()
  | head :: heads => do
    let _ ← (loggedWalk P key (besideBudget read) chargeBudget 0 cycleError earlyEndError
      head).attempt
    walkAll P key read heads

theorem walkAll_within {P : Primitives} {key : KeyFile} {read : Text → Action Error τ Bytes}
    (heads : List Text) {l : Logged (τ × RecoveryBudget)} (horderly : Event.Orderly l.events)
    (hwithin : WithinBudget l.inner (Event.paid l.events)) :
    Event.Orderly (walkAll P key read heads l).2.events
      ∧ WithinBudget (walkAll P key read heads l).2.inner
        (Event.paid (walkAll P key read heads l).2.events) := by
  induction heads generalizing l with
  | nil => exact ⟨horderly, hwithin⟩
  | cons head heads ih =>
    have hsound : Logged.Sound WithinBudget _ (loggedWalk P key (besideBudget read) chargeBudget 0
        cycleError earlyEndError head l).2 :=
      loggedWalk_sound (ledger_budget P read) horderly hwithin
    exact ih hsound.orderly hsound.balance

/-- **The walk down a chain ends on every storage.** One walk reads no more manifests than
the head has generations, and one more; it does not run out of fuel, meet a manifest twice
or stop above genesis. Whatever is walked under one budget, keys are used only on what was
charged, and what they are used on stays within the limits. -/
theorem chain_walks_bounded (P : Primitives) (key : KeyFile) :
    (∀ {σ : Type} (read : Text → Action Error σ Bytes)
      (charge : ManifestHeader → Nat → Action Error σ Unit) (head : Text) (s : σ),
      BoundedWalk P key read charge head s)
    ∧ ∀ {τ : Type} (read : Text → Action Error τ Bytes) (heads : List Text) (t : τ)
        (budget : RecoveryBudget),
      let events := (walkAll P key read heads ⟨(t, budget), []⟩).2.events
      Event.Orderly events
        ∧ (∀ m, .keyUsed m ∈ events → m ∈ Event.opened events)
        ∧ (Event.cost (Event.opened events)).1 ≤ MAX_RECOVERY_BYTES
        ∧ (Event.cost (Event.opened events)).2 ≤ MAX_RECOVERY_CRYPTO_OPERATIONS := by
  refine ⟨fun read charge head s => boundedWalk P key read charge head s,
    fun read heads t budget => ?_⟩
  have hstart : WithinBudget (t, budget) (Event.paid []) :=
    ⟨Nat.zero_le _, Nat.zero_le _, Nat.zero_le _, Nat.zero_le _⟩
  obtain ⟨horderly, hwithin⟩ : Event.Orderly (walkAll P key read heads ⟨(t, budget), []⟩).2.events
      ∧ _ := walkAll_within heads .nil hstart
  exact ⟨horderly, fun m => horderly.mem_opened,
    Nat.le_trans horderly.cost_le.1 hwithin.maxBytes,
    Nat.le_trans horderly.cost_le.2 hwithin.maxOperations⟩

end

namespace Reference

/-- A reader that finds these objects by their ids. -/
def found (objects : List Bytes) (id : Text) : Action Error Unit Bytes :=
  Action.lift (orBail (objects.find? (objectId primitives · = id)) "object not found")

theorem found_contentAddressed (objects : List Bytes) :
    ContentAddressed (found objects)
      fun id => (objects.find? (objectId primitives · = id)).getD [] := by
  intro id s bytes s' hread
  have hfind := orBail_eq_ok.mp (Action.lift_eq_ok.mp hread).1
  dsimp only
  rw [hfind, Option.getD_some]

theorem found_serves {objects : List Bytes}
    (hinj : Set.InjOn (objectId primitives) { object | object ∈ objects }) :
    Serves (bytesMaterial primitives (found objects)) unbudgeted (Shelved primitives objects)
      fun _ _ => True := by
  rintro n ⟨⟩ name m - ⟨hmem, hcheck⟩
  obtain ⟨hid, -, hname, hpeek⟩ := checkMaterial_ok hcheck
  have hfind : objects.find? (objectId primitives · = name) = some m.encrypted := by
    refine find?_eq_some_of_unique hmem (by simpa using hname) fun other hother h => ?_
    exact hinj hother hmem ((by simpa using h : objectId primitives other = name).trans hname.symm)
  have hread : found objects name () = (.ok m.encrypted, ()) :=
    Action.lift_eq_ok.mpr ⟨orBail_eq_ok.mpr hfind, rfl⟩
  refine ⟨(), (), Action.bind_eq_ok.mpr ⟨m.encrypted, (), hread, ?_⟩, rfl, trivial⟩
  refine Action.bind_eq_ok.mpr
    ⟨m.header, (), Action.lift_eq_ok.mpr ⟨orInvalid_eq_ok.mpr hpeek, rfl⟩, ?_⟩
  rw [← hid]
  rfl

/-- The generation that a walk of a sample finds at the head. -/
theorem Sample.headGeneration {n : Nat} {objects : List Bytes} {p : OpenedState}
    {chain : List OpenedState} (h : Sample n objects p chain) :
    headGeneration primitives (found objects) p.id () = n := by
  obtain ⟨m, hm, hheader⟩ := authentic_stored (shelved_archive h.injective) h.authentic p
    List.mem_cons_self
  obtain ⟨⟨⟩, -, hread, -⟩ := found_serves h.injective (n := 0) (s := ()) trivial hm
  have hentry := (authentic_chained h.authentic).entryOk p List.mem_cons_self
  rw [GitE2EE.headGeneration, hread]
  show m.header.generation = n
  rw [hheader, ← hentry.generation_header, h.generation]

end Reference

/-- A chain of two is walked from its head, alone and twice under one budget. -/
theorem chain_walks_bounded_two : ∃ objects p genesis,
    chainFrom Reference.primitives Reference.ownerKey
      (bytesMaterial Reference.primitives (Reference.found objects)) unbudgeted p.id ()
        = (.ok [p, genesis], ())
    ∧ Event.reads (loggedWalk Reference.primitives Reference.ownerKey (Reference.found objects)
      unbudgeted 0 cycleError earlyEndError p.id ⟨(), []⟩).2.events ≤ 2
    ∧ (∀ cycle, loggedWalk Reference.primitives Reference.ownerKey (Reference.found objects)
        unbudgeted 0 cycle earlyEndError p.id ⟨(), []⟩
      = loggedWalk Reference.primitives Reference.ownerKey (Reference.found objects) unbudgeted 0
        cycleError earlyEndError p.id ⟨(), []⟩)
    ∧ (Event.cost (Event.opened (walkAll Reference.primitives Reference.ownerKey
      (Reference.found objects) [p.id, p.id] ⟨((), ⟨0, 0⟩), []⟩).2.events)).2
        ≤ MAX_RECOVERY_CRYPTO_OPERATIONS := by
  obtain ⟨objects, p, chain, h, hlength, -⟩ := Reference.sample_exists 0 1 (by decide) (by decide)
  obtain ⟨genesis, rfl⟩ := List.length_eq_one_iff.mp hlength
  obtain ⟨hwalks, hbudget⟩ := chain_walks_bounded Reference.primitives Reference.ownerKey
  have hwalk := hwalks (Reference.found objects) unbudgeted p.id ()
  obtain ⟨⟨⟩, haccepted, -⟩ := chainFrom_of_authentic (shelved_archive h.injective)
    (Reference.found_serves h.injective) h.authentic h.packs_nodup rfl h.unwraps
    (n := 0) (s := ()) trivial
  refine ⟨objects, p, genesis, haccepted, ?_,
    hwalk.acyclic _ (Reference.found_contentAddressed objects), (hbudget _ _ _ _).2.2.2⟩
  have hreads := hwalk.reads
  rw [h.headGeneration] at hreads
  exact hreads

end GitE2EE

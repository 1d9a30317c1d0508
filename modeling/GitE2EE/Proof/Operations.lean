import GitE2EE.Proof.Continuity

/-!
# One operation

The specification of every operation is assembled from those of its steps: steps
that leave the floor alone (`Quiet`), the pinned chain, a publication, and the move
of the floor.
-/

namespace GitE2EE

open Wire Effect Lineage

variable {S G : Type} {P : Primitives} {root : Text}
variable {storage : Storage S} {repo : GitRepository G} {log : S → List Bytes} {key : KeyFile}

/-! ## Outcomes -/

/-- The floor did not move and the transcript only grew. -/
structure Quiet (log : S → List Bytes) (m m' : Machine S G) : Prop where
  floor : m'.floor.content = m.floor.content
  grows : Grows log m.storage m'.storage

/-- The floor moved to the head of a chain that passes through where it was. -/
structure Accepts (P : Primitives) (log : S → List Bytes) (m : Machine S G)
    (chain : List (Text × Manifest)) (m' : Machine S G) : Prop where
  grows : Grows log m.storage m'.storage
  lined : Lined P (log m'.storage) chain
  passes : PassesFloor m.floor.content chain
  floor : ∃ head rest, chain = head :: rest
    ∧ m'.floor.content = some (ContinuityFloor.at head.1 head.2)

/-- What any outcome of an operation may do to the floor. -/
def Moves (P : Primitives) (log : S → List Bytes) (m m' : Machine S G) : Prop :=
  Quiet log m m' ∨ ∃ chain, Accepts P log m chain m'

theorem Quiet.refl (m : Machine S G) : Quiet log m m := ⟨rfl, Grows.refl _⟩

theorem Quiet.trans ⦃a b c : Machine S G⦄ (h : Quiet log a b) (h' : Quiet log b c) :
    Quiet log a c := ⟨h'.floor.trans h.floor, h.grows.trans h'.grows⟩

/-- Quiet steps behind the move of the floor do not undo it. -/
theorem Accepts.quiet {m m₁ m₂ : Machine S G} {chain : List (Text × Manifest)}
    (h : Accepts P log m chain m₁) (hq : Quiet log m₁ m₂) : Accepts P log m chain m₂ := by
  obtain ⟨head, rest, heq, hfloor⟩ := h.floor
  exact ⟨h.grows.trans hq.grows, h.lined.mono hq.grows, h.passes, head, rest, heq,
    hq.floor.trans hfloor⟩

/-! ## Quiet steps -/

/-- Storage is not the floor: a step on it is quiet if the transcript only grows. -/
theorem quiet_onStorage {α : Type} {x : Action Error S α} (hx : Keeps (Grows log) x) :
    Keeps (Quiet log) (onStorage x : Action Error (Machine S G) α) :=
  fun m => ⟨rfl, hx m.storage⟩

/-- What happens in the checkout moves neither. -/
theorem quiet_onGit {α : Type} (x : Action Error G α) :
    Keeps (Quiet log) (onGit x : Action Error (Machine S G) α) :=
  fun _ => ⟨rfl, Grows.refl _⟩

theorem quiet_pure {α : Type} (a : α) :
    Keeps (Quiet log) (pure a : Action Error (Machine S G) α) := .pure Quiet.refl

theorem quiet_lift {α : Type} (r : Result α) :
    Keeps (Quiet log) (Action.lift r : Action Error (Machine S G) α) := .lift Quiet.refl

theorem quiet_bind {α β : Type} {x : Action Error (Machine S G) α}
    {f : α → Action Error (Machine S G) β} (hx : Keeps (Quiet log) x)
    (hf : ∀ a, Keeps (Quiet log) (f a)) : Keeps (Quiet log) (x >>= f) := hx.bind Quiet.trans hf

/-- An access that asks for no change makes none. -/
theorem access_id (file : FloorFile) : (FloorFile.access id file).2.content = file.content := by
  unfold FloorFile.access FloorFile.next
  cases file.faults with
  | nil => rfl
  | cons fault rest => cases fault <;> rfl

/-- Reading the floor never changes it, with or without a fault. -/
theorem floorRead_content (file : FloorFile) :
    (FloorGuard.read file).2.content = file.content := by
  have hkeeps : Keeps (fun f f' : FloorFile => f'.content = f.content) FloorGuard.read :=
    Keeps.bind (fun _ _ _ h h' => h'.trans h) (fun f => access_id f) fun _ =>
      Keeps.bind (fun _ _ _ h h' => h'.trans h) (fun _ => rfl) fun _ _ => rfl
  exact hkeeps file

theorem quiet_lockFloor : Keeps (Quiet log) (lockFloor : Action Error (Machine S G) Unit) :=
  fun m => ⟨access_id m.floor, Grows.refl _⟩

theorem quiet_floorRead :
    Keeps (Quiet log) (onFloor FloorGuard.read : Action Error (Machine S G) _) :=
  fun m => ⟨floorRead_content m.floor, Grows.refl _⟩

/-- A quiet step before the floor moves. -/
theorem spec_quiet {α : Type} {x : Action Error (Machine S G) α} (hx : Keeps (Quiet log) x)
    (m : Machine S G) : Spec (Quiet log m) x (fun _ => Quiet log m) (Moves P log m) :=
  (hx.spec fun _ _ h h' => h.trans h').weaken (fun _ h => h) (fun _ _ h => h) fun _ h => .inl h

/-- A quiet step after it moved. -/
theorem spec_accepted {α : Type} {x : Action Error (Machine S G) α} (hx : Keeps (Quiet log) x)
    (m : Machine S G) (chain : List (Text × Manifest)) :
    Spec (Accepts P log m chain) x (fun _ => Accepts P log m chain) (Moves P log m) :=
  (hx.spec fun _ _ => Accepts.quiet).weaken (fun _ h => h) (fun _ _ h => h) fun _ h => .inr ⟨_, h⟩

/-! ## Reading the floor and the chain -/

/-- A floor of another format is refused, so the one returned is the one in the file. -/
theorem checkFormat_ok {content floor : Option ContinuityFloor}
    (h : FloorGuard.read.checkFormat content = .ok floor) : floor = content := by
  cases content with
  | none => cases h; rfl
  | some f =>
    simp only [FloorGuard.read.checkFormat, except_bind_eq_ok] at h
    obtain ⟨⟨⟩, -, h⟩ := h
    exact (Except.ok.inj h).symm

/-- A floor that was read is the content of the file. -/
theorem floorRead_ok {file file' : FloorFile} {floor : Option ContinuityFloor}
    (h : FloorGuard.read file = (.ok floor, file')) : floor = file.content := by
  have hcontent := floorRead_content file
  rw [h] at hcontent
  obtain ⟨⟨⟩, f₁, -, h⟩ := Action.bind_eq_ok.mp h
  obtain ⟨f₂, f₃, hget, h⟩ := Action.bind_eq_ok.mp h
  cases hget
  obtain ⟨hcheck, rfl⟩ := Action.lift_eq_ok.mp h
  rw [checkFormat_ok hcheck, hcontent]

/-- The state behind a pinned chain. -/
structure Pins (P : Primitives) (root : Text) (log : S → List Bytes) (m : Machine S G)
    (chain : List OpenedState) (m' : Machine S G) : Prop where
  quiet : Quiet log m m'
  known : Known P root (log m'.storage) chain
  passes : PassesFloor m.floor.content (entriesOf chain)

/-- A pinned chain stays one behind a quiet step. -/
theorem Pins.step {m m₁ m₂ : Machine S G} {chain : List OpenedState}
    (h : Pins P root log m chain m₁) (hq : Quiet log m₁ m₂) : Pins P root log m chain m₂ :=
  ⟨h.quiet.trans hq, h.known.mono hq.grows, h.passes⟩

/-- A quiet step behind a pinned chain. -/
theorem spec_pinned {α : Type} {x : Action Error (Machine S G) α} (hx : Keeps (Quiet log) x)
    (m : Machine S G) (chain : List OpenedState) :
    Spec (Pins P root log m chain) x (fun _ => Pins P root log m chain) (Moves P log m) :=
  (hx.spec fun _ _ => Pins.step).weaken (fun _ h => h) (fun _ _ h => h) fun _ h => .inl h.quiet

/-- The chain that was read is one of the transcript. -/
theorem spec_currentChain (ht : Transcribed storage log) (m : Machine S G) :
    Spec (Quiet log m) (onStorage (currentChain P storage key))
      (fun chain m' => Quiet log m m' ∧ Known P key.repositoryRoot (log m'.storage) chain)
      (Moves P log m) := by
  have hkeeps : Keeps (Quiet log) (onStorage (currentChain P storage key) :
      Action Error (Machine S G) _) := quiet_onStorage
        (keeps_currentChain Grows.refl Grows.trans (ht.openObject _) ht.readHead key)
  refine .intro (fun m₁ hq chain m' h => ?_) fun m₁ hq e m' h => .inl ?_
  · -- what it returns is known, and nothing moved on the way
    have hmove := hkeeps m₁
    rw [h] at hmove
    refine ⟨hq.trans hmove, ?_⟩
    simp only [onStorage, Action.zoom, Prod.mk.injEq] at h
    obtain ⟨hr, rfl⟩ := h
    exact currentChain_ok ht (Prod.ext hr rfl)
  · have hmove := hkeeps m₁
    rw [h] at hmove
    exact hq.trans hmove

/-- The floor that was read is the one in place, because nothing moves it in between. -/
theorem spec_floorRead (m : Machine S G) :
    Spec (Quiet log m) (onFloor FloorGuard.read : Action Error (Machine S G) _)
      (fun floor m' => Quiet log m m' ∧ floor = m.floor.content) (Moves P log m) := by
  refine .intro (fun m₁ hq floor m' h => ?_) fun m₁ hq e m' h => .inl ?_
  · have hmove := (quiet_floorRead : Keeps (Quiet log) _) m₁
    rw [h] at hmove
    refine ⟨hq.trans hmove, ?_⟩
    simp only [onFloor, Action.zoom, Prod.mk.injEq] at h
    rw [floorRead_ok (Prod.ext h.1 rfl), hq.floor]
  · have hmove := (quiet_floorRead : Keeps (Quiet log) _) m₁
    rw [h] at hmove
    exact hq.trans hmove

/-- **A pinned chain passes the floor**, at the first look or after a refresh. -/
theorem spec_pinnedChain (ht : Transcribed storage log) (m : Machine S G) :
    Spec (Quiet log m) (pinnedChain P storage key)
      (fun chain => Pins P key.repositoryRoot log m chain) (Moves P log m) := by
  -- the floor is read first, so it is carried along unchanged to the check
  refine (spec_floorRead m).bind _ fun floor => Spec.bind
    (fun chain m' => floor = m.floor.content ∧ Quiet log m m'
      ∧ Known P key.repositoryRoot (log m'.storage) chain) ?_ fun chain => ?_
  · exact .intro (fun m₁ h chain m' hx => ⟨h.2, (spec_currentChain ht m).ok h.1 hx⟩)
      fun m₁ h e m' hx => (spec_currentChain ht m).error h.1 hx
  · split
    · rename_i hpinned
      refine .pure fun m' h => ⟨h.2.1, h.2.2, ?_⟩
      rw [← h.1]
      exact validatePinnedHead_ok hpinned
    · -- a stale view: refreshed once, read again
      unfold refreshedChain
      refine Spec.bind (fun _ m' => floor = m.floor.content ∧ Quiet log m m') ?_
        fun refreshed => ?_
      · have hq := spec_quiet (P := P) (quiet_onStorage (G := G) ht.refresh) m
        exact .intro (fun m₁ h _ m' hx => ⟨h.1, hq.ok h.2.1 hx⟩)
          fun m₁ h e m' hx => hq.error h.2.1 hx
      · split
        · exact .fail fun m' h => .inl h.2
        · refine Spec.bind (fun chain m' => floor = m.floor.content ∧ Quiet log m m'
            ∧ Known P key.repositoryRoot (log m'.storage) chain) ?_ fun chain => ?_
          · exact .intro (fun m₁ h chain m' hx => ⟨h.1, (spec_currentChain ht m).ok h.2 hx⟩)
              fun m₁ h e m' hx => (spec_currentChain ht m).error h.2 hx
          · refine Spec.bind (fun _ m' => Pins P key.repositoryRoot log m chain m')
              (.lift (fun _ hpinned m' h => ⟨h.2.1, h.2.2, ?_⟩) fun m' h => .inl h.2.1)
              fun _ => .pure fun m' h => h
            rw [← h.1]
            exact validatePinnedHead_ok hpinned

/-- The same with the head of the chain. -/
theorem spec_pinnedState (ht : Transcribed storage log) (m : Machine S G) :
    Spec (Quiet log m) (pinnedState P storage key)
      (fun r m' => r.2.head? = some r.1 ∧ Pins P key.repositoryRoot log m r.2 m')
      (Moves P log m) := by
  refine (spec_pinnedChain ht m).bind _ fun chain => ?_
  refine Spec.bind (fun current m' => chain.head? = some current
    ∧ Pins P key.repositoryRoot log m chain m') (.lift (fun current h m' hp => ?_)
      fun m' hp => .inl hp.quiet) fun current => .pure fun m' h => h
  exact ⟨orBail_eq_ok.mp h, hp⟩

/-! ## Moving the floor -/

/-- An access that is reported done has had its effect. -/
theorem access_ok {effect : Option ContinuityFloor → Option ContinuityFloor}
    {file file' : FloorFile} (h : FloorFile.access effect file = (.ok (), file')) :
    file'.content = effect file.content := by
  unfold FloorFile.access FloorFile.next at h
  cases hfaults : file.faults with
  | nil => rw [hfaults] at h; cases h; rfl
  | cons fault rest =>
    rw [hfaults] at h
    cases fault <;> cases h
    rfl

/-- One that failed may have had its effect, and nothing else. -/
theorem access_any (effect : Option ContinuityFloor → Option ContinuityFloor)
    (file : FloorFile) : (FloorFile.access effect file).2.content = file.content
      ∨ (FloorFile.access effect file).2.content = effect file.content := by
  unfold FloorFile.access FloorFile.next
  cases file.faults with
  | nil => exact .inr rfl
  | cons fault rest =>
    cases fault with
    | none => exact .inr rfl
    | before e => exact .inl rfl
    | after e => exact .inr rfl

/-- However it ends, the file is as it was or at `next`. -/
theorem floorAdvance_any (next : ContinuityFloor) :
    Keeps (fun f f' : FloorFile => f'.content = f.content ∨ f'.content = some next)
      (FloorGuard.advance next) := by
  -- read, compare, and write if they differ: only the last step can change the file
  refine Keeps.bind (fun _ _ _ h h' => ?_) (fun f => .inl (floorRead_content f)) fun previous => ?_
  · rcases h' with h' | h'
    · rw [h']; exact h
    · exact .inr h'
  · refine Keeps.bind (fun _ _ _ h h' => ?_) (fun f => .inl rfl) fun write => ?_
    · rcases h' with h' | h'
      · rw [h']; exact h
      · exact .inr h'
    · split
      · exact fun f => access_any (fun _ => some next) f
      · exact fun f => .inl rfl

/-- Nothing is written only if the floor is there already. -/
theorem floorAdvances_ok {previous next : ContinuityFloor} {write : Bool}
    (h : FloorGuard.advances previous next = .ok write)
    (hgen : previous.generation ≤ next.generation) : write = false → previous = next := by
  simp only [FloorGuard.advances, except_bind_eq_ok] at h
  obtain ⟨⟨⟩, -, h⟩ := h
  rw [if_neg (by omega)] at h
  simp only [except_bind_eq_ok] at h
  obtain ⟨⟨⟩, -, ⟨⟩, -, h⟩ := h
  intro hwrite
  rw [hwrite] at h
  simpa using Except.ok.inj h

/-- If it returns, the file is at `next`, unless it was ahead. -/
theorem floorAdvance_ok {next : ContinuityFloor} {file file' : FloorFile}
    (h : FloorGuard.advance next file = (.ok (), file'))
    (hgen : ∀ p, file.content = some p → p.generation ≤ next.generation) :
    file'.content = some next := by
  obtain ⟨previous, f₁, hread, h⟩ := Action.bind_eq_ok.mp h
  obtain ⟨write, f₂, hadvances, h⟩ := Action.bind_eq_ok.mp h
  obtain ⟨hwrite, rfl⟩ := Action.lift_eq_ok.mp hadvances
  have hprevious := floorRead_ok hread
  have hcontent : f₁.content = file.content := by
    have := floorRead_content file
    rwa [hread] at this
  split at h
  · exact access_ok h
  · -- without a write the floor was at `next` already
    rename_i hfalse
    cases h
    cases previous with
    | none => cases hwrite; exact absurd rfl hfalse
    | some p =>
      rw [hcontent, ← hprevious,
        floorAdvances_ok hwrite (hgen p hprevious.symm) (by simpa using hfalse)]

/-- **The floor moves to the head of a chain that passes it**, or stays if the write failed. -/
theorem spec_advanceFloor (m : Machine S G) {id : Text} {manifest : Manifest}
    {rest : List (Text × Manifest)} :
    Spec (fun m' => Quiet log m m' ∧ Lined P (log m'.storage) ((id, manifest) :: rest)
        ∧ PassesFloor m.floor.content ((id, manifest) :: rest))
      (advanceFloor id manifest) (fun _ => Accepts P log m ((id, manifest) :: rest))
      (Moves P log m) := by
  refine .intro (fun m₁ ⟨hq, hlined, hpasses⟩ _ m' h => ?_)
    fun m₁ ⟨hq, hlined, hpasses⟩ e m' h => ?_
  · simp only [advanceFloor, onFloor, Action.zoom, Prod.mk.injEq] at h
    obtain ⟨hr, rfl⟩ := h
    refine ⟨hq.grows, hlined, hpasses, (id, manifest), rest, rfl, ?_⟩
    refine floorAdvance_ok (Prod.ext hr rfl) fun p hp => ?_
    -- the pinned entry is on the chain, so it is not above its head
    obtain ⟨_, _, -, -, -, e, he, hgen, -⟩ := hpasses p (hq.floor.symm.trans hp)
    rw [← hgen]
    exact hlined.generation_le he
  · simp only [advanceFloor, onFloor, Action.zoom, Prod.mk.injEq] at h
    obtain ⟨-, rfl⟩ := h
    -- an error does not tell whether the file was written
    rcases floorAdvance_any (ContinuityFloor.at id manifest) m₁.floor with hsame | hmoved
    · exact .inl ⟨hsame.trans hq.floor, hq.grows⟩
    · exact .inr ⟨_, hq.grows, hlined, hpasses, (id, manifest), rest, rfl, hmoved⟩

/-- The head of a pinned chain is accepted as it is. -/
theorem spec_acceptHead (m : Machine S G) {current : OpenedState} {chain : List OpenedState}
    (hhead : chain.head? = some current) :
    Spec (Pins P root log m chain) (advanceFloor current.id current.manifest)
      (fun _ => Accepts P log m (entriesOf chain)) (Moves P log m) := by
  obtain ⟨rest, rfl⟩ := List.head?_eq_some_iff.mp hhead
  exact (spec_advanceFloor m).weaken (fun m' h => ⟨h.quiet, h.known.lined, h.passes⟩)
    (fun _ _ h => h) fun _ h => h

/-! ## Publishing -/

/-- Storing a manifest adds it to the transcript and removes nothing. -/
theorem keeps_sealAndStoreManifest (ht : Transcribed storage log) (coins : Coins)
    (previous : Option OpenedState) (prepared : Prepared) :
    Keeps (Grows log) (sealAndStoreManifest P storage key coins previous prepared) := by
  refine (Keeps.lift Grows.refl).bind Grows.trans fun sealed => ?_
  refine Keeps.bind Grows.trans ?_ fun _ =>
    (Keeps.lift Grows.refl).bind Grows.trans fun _ => .pure Grows.refl
  exact (ht.beginObject _).bind Grows.trans fun _ => ht.finishObject _ _ _

theorem keeps_commitManifest (ht : Transcribed storage log) (coins : Coins)
    (previous : Option OpenedState) (prepared : Prepared) :
    Keeps (Grows log) (commitManifest P storage key coins previous prepared) :=
  (keeps_sealAndStoreManifest ht coins previous prepared).bind Grows.trans fun _ =>
    (ht.compareAndSwapHead _ _).bind Grows.trans fun _ => .pure Grows.refl

/-- What the stored bytes of a prepared manifest say to a reader without the key. -/
theorem sealNext_ok (hjson : ReadsJson P) {coins : Coins} {previous : Option OpenedState}
    {prepared : Prepared} {id : Text} {encrypted : Bytes}
    (h : sealNext P key coins previous prepared = .ok (id, encrypted))
    (hgen : prepared.manifest.generation < 2 ^ 64)
    (hutf8 : ∀ t, prepared.manifest.previous = some t → isUtf8 t = true) :
    objectId P encrypted = id ∧ ∃ header, peekManifestHeader P encrypted = .ok header
      ∧ header.previous = prepared.manifest.previous
      ∧ header.generation = prepared.manifest.generation := by
  simp only [sealNext, except_bind_eq_ok] at h
  obtain ⟨⟨⟩, -, bytes, hseal, h⟩ := h
  cases h
  obtain ⟨-, parts, hsealed, rfl⟩ := sealManifest_eq_ok.mp hseal
  exact ⟨rfl, _, (hsealed.framed hgen hutf8).peek hjson, rfl, rfl⟩

/-- A manifest that was stored has its bytes in the transcript and has passed both checks. -/
theorem sealAndStoreManifest_ok (ht : Transcribed storage log) {coins : Coins}
    {previous : Option OpenedState} {prepared : Prepared} {id : Text} {s s' : S}
    (h : sealAndStoreManifest P storage key coins previous prepared s = (.ok id, s')) :
    ∃ encrypted, sealNext P key coins previous prepared = .ok (id, encrypted)
      ∧ encrypted ∈ log s' ∧ validatePosition P previous prepared = .ok ()
      ∧ selfCheck P previous prepared encrypted = .ok () := by
  obtain ⟨⟨id', encrypted⟩, s₁, hlift, h⟩ := Action.bind_eq_ok.mp h
  obtain ⟨hseal, rfl⟩ := Action.lift_eq_ok.mp hlift
  obtain ⟨⟨⟩, s₂, hput, h⟩ := Action.bind_eq_ok.mp h
  obtain ⟨⟨⟩, s₃, hself, h⟩ := Action.bind_eq_ok.mp h
  obtain ⟨hcheck, rfl⟩ := Action.lift_eq_ok.mp hself
  cases h
  obtain ⟨⟨⟩, s₄, -, hfinish⟩ := Action.bind_eq_ok.mp hput
  -- the object was in the transcript before the self-check
  have hwritten := ht.written encrypted id s₄
  rw [hfinish] at hwritten
  have hposition : validatePosition P previous prepared = .ok () := by
    simp only [sealNext, except_bind_eq_ok] at hseal
    obtain ⟨⟨⟩, hposition, -⟩ := hseal
    exact hposition
  exact ⟨encrypted, hseal, hwritten, hposition, hcheck⟩

/-- The head of a line is an object id, so it is text. -/
theorem isUtf8_of_line {objects : List Bytes} {id : Text} {l : List Text}
    (h : Line (Stored P objects) (id :: l)) : isUtf8 id = true := by
  have hstored : ∃ previous, Stored P objects id previous := by
    cases h with
    | root h => exact ⟨_, h⟩
    | step h _ => exact ⟨_, h⟩
  obtain ⟨previous, bytes, -, rfl, -⟩ := hstored
  exact isUtf8_hexEncode _

/-- A genesis manifest that was stored is a line by itself. -/
theorem sealed_genesis (ht : Transcribed storage log) (hjson : ReadsJson P) {coins : Coins}
    {prepared : Prepared} {id : Text} {s s' : S}
    (h : sealAndStoreManifest P storage key coins none prepared s = (.ok id, s')) :
    Lined P (log s') [(id, prepared.manifest)] := by
  obtain ⟨encrypted, hseal, hmem, hposition, -⟩ := sealAndStoreManifest_ok ht h
  obtain ⟨hgen, hprev, -⟩ := manifestGenesis_ok (show prepared.manifest.validateGenesis P
    prepared.policy = .ok () from hposition)
  obtain ⟨hid, header, hpeek, hprevious, -⟩ := sealNext_ok hjson hseal (by rw [hgen]; decide)
    (fun t ht' => by rw [hprev] at ht'; cases ht')
  -- one entry, whose header names no parent
  refine ⟨.root ⟨encrypted, hmem, hid, header, hpeek, by rw [hprevious, hprev]⟩, ?_⟩
  intro newer e older heq
  cases newer with
  | nil => cases heq; exact hgen
  | cons x newer => simp at heq

/-- A published successor is on top of the chain it was prepared from. -/
theorem spec_commit (ht : Transcribed storage log) (hjson : ReadsJson P) (m : Machine S G)
    {coins : Coins} {prepared : Prepared} {current : OpenedState} {chain : List OpenedState}
    (hhead : chain.head? = some current) :
    Spec (Pins P root log m chain)
      (onStorage (commitManifest P storage key coins (some current) prepared))
      (fun id m' => Quiet log m m'
        ∧ Lined P (log m'.storage) ((id, prepared.manifest) :: entriesOf chain)
        ∧ PassesFloor m.floor.content ((id, prepared.manifest) :: entriesOf chain))
      (Moves P log m) := by
  have hkeeps : Keeps (Quiet log) (onStorage (commitManifest P storage key coins (some current)
      prepared) : Action Error (Machine S G) _) :=
    quiet_onStorage (keeps_commitManifest ht coins (some current) prepared)
  refine .intro (fun m₁ hp id m' h => ?_) fun m₁ hp e m' h => .inl ?_
  · have hstep := hkeeps m₁
    rw [h] at hstep
    simp only [onStorage, Action.zoom, Prod.mk.injEq] at h
    obtain ⟨hr, rfl⟩ := h
    obtain ⟨id', s₁, hstore, hswap⟩ := Action.bind_eq_ok.mp (Prod.ext hr rfl)
    obtain ⟨⟨⟩, s₂, hcas, hpure⟩ := Action.bind_eq_ok.mp hswap
    -- the swap comes after the manifest was stored, so the manifest is still in the transcript
    have hgrows : Grows log s₁ s₂ := by
      have := ht.compareAndSwapHead (some current.id) id' s₁
      have hcas' : storage.compareAndSwapHead (some current.id) id' s₁ = (.ok (), s₂) := hcas
      rwa [hcas'] at this
    cases hpure
    obtain ⟨encrypted, hseal, hmem, hposition, -⟩ := sealAndStoreManifest_ok ht hstore
    have hsucc := manifestSuccessor_ok (show prepared.manifest.validateSuccessor P current.id
      current.manifest prepared.policy = .ok () from hposition)
    obtain ⟨rest, rfl⟩ := List.head?_eq_some_iff.mp hhead
    have hknown := hp.known.mono hstep.grows
    obtain ⟨hid, header, hpeek, hprevious, -⟩ := sealNext_ok hjson hseal hsucc.generation_lt
      (by
        intro t ht'
        rw [hsucc.pointer] at ht'
        cases ht'
        exact isUtf8_of_line hknown.line)
    -- the new manifest points at the head of the chain it was prepared from
    have hstored : Stored P (log (commitManifest P storage key coins (some current) prepared
        m₁.storage).2) id (some current.id) :=
      ⟨encrypted, hgrows hmem, hid, header, hpeek, by rw [hprevious, hsucc.pointer]⟩
    exact ⟨hp.quiet.trans hstep, hknown.lined.cons hstored hsucc.generation,
      hp.passes.cons hsucc.root hsucc.policyGeneration⟩
  · have hstep := hkeeps m₁
    rw [h] at hstep
    exact hp.quiet.trans hstep

/-! ## Packs -/

section

variable {write : Bytes → Action Error (Machine S G) Unit}

/-- Opening a pack is quiet if what takes the plaintext is. -/
theorem quiet_openSegments (hwrite : ∀ bytes, Keeps (Quiet log) (write bytes))
    (packKey : SecretKey) (nonce : StreamNonce) (aad : Bytes) (count segment remaining : Nat)
    (reader : Reader) (consumed : Bytes) :
    Keeps (Quiet log)
      (openSegments P write packKey nonce aad count segment remaining reader consumed) := by
  induction count generalizing segment remaining reader consumed with
  | zero => exact quiet_pure _
  | succ count ih =>
    exact quiet_bind (quiet_lift _) fun _ => quiet_bind (hwrite _) fun _ => ih _ _ _ _

theorem quiet_openPackStream (hwrite : ∀ bytes, Keeps (Quiet log) (write bytes))
    (packKey : SecretKey) (ciphertext : Reader) (baseAad : Bytes) (plaintextSize : Nat)
    (expectedId : Text) : Keeps (Quiet log)
      (openPackStream P write packKey ciphertext baseAad plaintextSize expectedId) := by
  unfold openPackStream
  refine quiet_bind (quiet_lift _) fun a => ?_
  obtain ⟨header, reader, nonce, expectedSize⟩ := a
  exact quiet_bind (quiet_openSegments hwrite _ _ _ _ _ _ _ _) fun _ => quiet_lift _

/-- A pack of the chain is one object that is read. -/
theorem quiet_openChainPack (ht : Transcribed storage log)
    (hwrite : ∀ bytes, Keeps (Quiet log) (write bytes)) (entry : OpenedState)
    (descriptor : PackDescriptor) :
    Keeps (Quiet log) (openChainPack P storage write entry descriptor) := by
  unfold openChainPack
  exact quiet_bind (quiet_onStorage (ht.openObject _ _)) fun _ =>
    quiet_bind (quiet_lift _) fun _ =>
    quiet_bind (quiet_openPackStream hwrite _ _ _ _ _) fun _ => quiet_pure _

end

theorem quiet_forEach {α : Type} {step : α → Action Error (Machine S G) Unit}
    (h : ∀ a, Keeps (Quiet log) (step a)) (xs : List α) :
    Keeps (Quiet log) (forEach step xs) := by
  induction xs with
  | nil => exact quiet_pure _
  | cons a rest ih => exact quiet_bind (h a) fun _ => ih

/-- Importing packs reads objects and feeds Git. -/
theorem quiet_importChainPacks (ht : Transcribed storage log) (chain : List OpenedState)
    (afterGeneration : Option Nat) :
    Keeps (Quiet log) (importChainPacks P storage repo chain afterGeneration) := by
  refine quiet_forEach (fun entry => ?_) _
  split
  · exact quiet_pure _
  · refine quiet_forEach (fun descriptor => ?_) _
    exact quiet_bind (quiet_onGit _) fun _ =>
      quiet_bind (quiet_openChainPack ht (fun _ => quiet_onGit _) _ _) fun _ => quiet_onGit _

/-- So does the second import, when the first does not connect. -/
theorem quiet_ensureImported (ht : Transcribed storage log) (current : OpenedState)
    (chain : List OpenedState) (progress : CheckoutProgress) :
    Keeps (Quiet log) (ensureImported P storage repo current chain progress) := by
  refine quiet_bind (quiet_importChainPacks ht _ _) fun _ =>
    quiet_bind (quiet_onGit _) fun connected => ?_
  split
  · exact quiet_pure _
  · exact quiet_bind (quiet_importChainPacks ht _ _) fun _ => quiet_onGit _

theorem quiet_countPacks (ht : Transcribed storage log) (entry : OpenedState) (count : Nat)
    (packs : List PackDescriptor) :
    Keeps (Quiet log) (countPacks P storage entry count packs : Action Error (Machine S G) _) := by
  induction packs generalizing count with
  | nil => exact quiet_pure _
  | cons descriptor rest ih =>
    exact quiet_bind (quiet_openChainPack ht (fun _ => quiet_pure _) _ _) fun _ => ih _

/-- Verifying opens every pack and keeps nothing of it. -/
theorem quiet_countChainPacks (ht : Transcribed storage log) (count : Nat)
    (chain : List OpenedState) :
    Keeps (Quiet log) (countChainPacks P storage count chain : Action Error (Machine S G) _) := by
  induction chain generalizing count with
  | nil => exact quiet_pure _
  | cons entry rest ih => exact quiet_bind (quiet_countPacks ht _ _ _) fun _ => ih _

/-- A push stores its pack before anything is published. -/
theorem quiet_storePacks (ht : Transcribed storage log) (draws : Draws) (current : OpenedState)
    (generation : Nat) (packRefs : RefMap) :
    Keeps (Quiet log) (storePacks P storage repo draws current generation packRefs) := by
  unfold storePacks
  split
  · exact quiet_pure _
  · refine quiet_bind ?_ fun _ => quiet_pure _
    exact quiet_bind (quiet_onGit _) fun _ => quiet_bind (quiet_lift _) fun _ =>
      quiet_bind (quiet_onGit _) fun _ => quiet_bind (quiet_onStorage (ht.beginObject _)) fun _ =>
      quiet_bind (quiet_lift _) fun _ => quiet_bind (quiet_onGit _) fun _ =>
      quiet_bind (quiet_onStorage (ht.finishObject _ _ _)) fun _ => quiet_pure _

/-! ## The operations -/

section

variable (ht : Transcribed storage log) (hjson : ReadsJson P) (m : Machine S G)

include ht

/-- What listing asks for accepts the head it returns. -/
theorem spec_pinnedHead : Spec (Quiet log m) (pinnedHead P storage key)
    (fun accepted => Accepts P log m accepted.chain) (Moves P log m) :=
  (spec_quiet quiet_lockFloor m).bind _ fun _ => (spec_pinnedState ht m).bind _ fun _ =>
    Spec.fact fun hhead => (spec_acceptHead m hhead).bind _ fun _ => .pure fun _ h => h

theorem spec_listDevices : Spec (Quiet log m) (listDevices P storage key)
    (fun accepted => Accepts P log m accepted.chain) (Moves P log m) :=
  (spec_pinnedHead ht m).bind _ fun _ => .pure fun _ h => h

theorem spec_currentManifest : Spec (Quiet log m) (currentManifest P storage key)
    (fun accepted => Accepts P log m accepted.chain) (Moves P log m) :=
  (spec_pinnedHead ht m).bind _ fun _ => .pure fun _ h => h

/-- Observing accepts the head, and notes it in the checkout afterwards. -/
theorem spec_observeManifest : Spec (Quiet log m) (observeManifest P storage repo key)
    (fun accepted => Accepts P log m accepted.chain) (Moves P log m) :=
  (spec_quiet quiet_lockFloor m).bind _ fun _ => (spec_quiet (quiet_onGit _) m).bind _ fun _ =>
    (spec_pinnedState ht m).bind _ fun r => Spec.fact fun hhead =>
    (spec_pinned (quiet_lift _) m r.2).bind _ fun _ => (spec_acceptHead m hhead).bind _ fun _ =>
    (spec_accepted (quiet_onGit _) m _).bind _ fun _ => .pure fun _ h => h

/-- A fetch accepts the head once its packs are in. -/
theorem spec_importPacks : Spec (Quiet log m) (importPacks P storage repo key)
    (fun accepted => Accepts P log m accepted.chain) (Moves P log m) :=
  (spec_quiet quiet_lockFloor m).bind _ fun _ => (spec_quiet (quiet_onGit _) m).bind _ fun _ =>
    (spec_pinnedState ht m).bind _ fun r => Spec.fact fun hhead =>
    (spec_pinned (quiet_lift _) m r.2).bind _ fun _ =>
    (spec_pinned (quiet_onGit _) m r.2).bind _ fun _ =>
    (spec_pinned (quiet_ensureImported ht _ _ _) m r.2).bind _ fun _ =>
    (spec_acceptHead m hhead).bind _ fun _ =>
    (spec_accepted (quiet_onGit _) m _).bind _ fun _ => .pure fun _ h => h

/-- Verification accepts the head once every pack has opened. -/
theorem spec_verifyCiphertext :
    Spec (Quiet log m) (verifyCiphertext P storage key : Action Error (Machine S G) _)
      (fun accepted => Accepts P log m accepted.chain) (Moves P log m) :=
  (spec_quiet quiet_lockFloor m).bind _ fun _ => (spec_pinnedState ht m).bind _ fun r =>
    Spec.fact fun hhead => (spec_pinned (quiet_countChainPacks ht _ _) m r.2).bind _ fun _ =>
    (spec_pinned (quiet_lift _) m r.2).bind _ fun _ =>
    (spec_acceptHead m hhead).bind _ fun _ => .pure fun _ h => h

include hjson

/-- A change of the members accepts the manifest it has published. -/
theorem spec_changePolicy (nextDevices : OpenedState → Result (List DeviceRecord))
    (draws : Draws) : Spec (Quiet log m) (changePolicy P storage key nextDevices draws)
      (fun accepted => Accepts P log m accepted.chain) (Moves P log m) :=
  (spec_quiet quiet_lockFloor m).bind _ fun _ => (spec_pinnedState ht m).bind _ fun r =>
    Spec.fact fun hhead => (spec_pinned (quiet_lift _) m r.2).bind _ fun _ =>
    (spec_commit ht hjson m hhead).bind _ fun _ => (spec_advanceFloor m).bind _ fun _ =>
    .pure fun _ h => h

/-- A publication of refs accepts its manifest before it notes it in the checkout. -/
theorem spec_publishRefs (draws : Draws) {current : OpenedState} {chain : List OpenedState}
    (hhead : chain.head? = some current) (nextRefs packRefs : RefMap) :
    Spec (Pins P root log m chain)
      (publishRefs P storage repo key draws current chain nextRefs packRefs)
      (fun accepted => Accepts P log m accepted.chain) (Moves P log m) :=
  (spec_pinned (quiet_lift _) m chain).bind _ fun _ =>
    (spec_pinned (quiet_storePacks ht _ _ _ _) m chain).bind _ fun _ =>
    (spec_pinned (quiet_lift _) m chain).bind _ fun _ =>
    (spec_commit ht hjson m hhead).bind _ fun _ => (spec_advanceFloor m).bind _ fun _ =>
    (spec_accepted (quiet_onGit _) m _).bind _ fun _ => .pure fun _ h => h

/-- A push that reports a head accepted the chain behind it; one that reports an error
for its publication is treated like a failure. -/
theorem spec_push (pushes : List RefPush) (mode : PushMode) (draws : Draws) :
    Spec (Quiet log m) (push P storage repo key pushes mode draws)
      (fun accepted m' => match accepted.value.publication with
        | .ok _ => Accepts P log m accepted.chain m'
        | .error _ => Moves P log m m') (Moves P log m) := by
  refine (spec_quiet quiet_lockFloor m).bind _ fun _ => (spec_pinnedState ht m).bind _ fun r =>
    Spec.fact fun hhead => (spec_pinned (quiet_lift _) m r.2).bind _ fun _ =>
    (spec_pinned (quiet_lift _) m r.2).bind _ fun _ =>
    (spec_pinned (quiet_onGit _) m r.2).bind _ fun batch => ?_
  -- a failed publication is a value here: the push itself returns
  refine Spec.bind (fun publication m' => match publication with
    | .ok accepted => Accepts P log m accepted.chain m'
    | .error _ => Moves P log m m') ?_ fun publication => .pure fun m' h => ?_
  · unfold pushPublication
    split
    · exact (spec_acceptHead m hhead).bind _ fun _ => .pure fun _ h => h
    · exact .attempt ((spec_publishRefs ht hjson m draws hhead _ _).weaken (fun _ h => h)
        (fun _ _ h => h) fun _ h _ => h)
  · cases publication with
    | ok accepted => exact h
    | error e => exact h

/-- Initialization starts a chain, on a machine that pins nothing. -/
theorem spec_initializeRepository (ownerLabel : Text) (draws : Draws) :
    Spec (Quiet log m) (initializeRepository P storage key ownerLabel draws)
      (fun accepted => Accepts P log m accepted.chain) (Moves P log m) := by
  -- the floor is empty, or `prepareGenesis` gives up
  have hread : Spec (Quiet log m) (onFloor FloorGuard.read : Action Error (Machine S G) _)
      (fun floor m' => floor = m.floor.content ∧ Quiet log m m') (Moves P log m) :=
    (spec_floorRead m).weaken (fun _ h => h) (fun _ _ h => ⟨h.2, h.1⟩) fun _ h => h
  have hstore : ∀ prepared, Spec (Quiet log m)
      (onStorage (sealAndStoreManifest P storage key draws.coins none prepared))
      (fun id m' => Quiet log m m' ∧ Lined P (log m'.storage) [(id, prepared.manifest)])
      (Moves P log m) := by
    intro prepared
    have hkeeps : Keeps (Grows log)
        (sealAndStoreManifest P storage key draws.coins none prepared) :=
      keeps_sealAndStoreManifest ht draws.coins none prepared
    have hquiet := spec_quiet (P := P) (quiet_onStorage (G := G) hkeeps) m
    refine .intro (fun m₁ hq id m' h => ⟨hquiet.ok hq h, ?_⟩) fun m₁ hq e m' h => hquiet.error hq h
    simp only [onStorage, Action.zoom, Prod.mk.injEq] at h
    obtain ⟨hr, rfl⟩ := h
    exact sealed_genesis ht hjson (Prod.ext hr rfl)
  have hprepare : Spec (Quiet log m) (prepareGenesis P storage key ownerLabel draws)
      (fun r m' => m.floor.content = none ∧ Quiet log m m'
        ∧ Lined P (log m'.storage) [(r.2, r.1.manifest)]) (Moves P log m) := by
    refine (spec_quiet quiet_lockFloor m).bind _ fun _ =>
      (spec_quiet (quiet_onStorage ht.readHead) m).bind _ fun _ =>
      (spec_quiet (quiet_lift _) m).bind _ fun _ => hread.bind _ fun floor =>
      Spec.fact fun hfloor => ?_
    refine Spec.bind (fun _ m' => m.floor.content = none ∧ Quiet log m m') ?_ fun _ =>
      Spec.fact fun hnone => (spec_quiet (quiet_lift _) m).bind _ fun prepared =>
      (hstore prepared).bind _ fun id => .pure fun m' h => ⟨hnone, h⟩
    refine .lift (fun _ hnone m' h => ⟨?_, h⟩) fun m' h => .inl h
    rw [bailIf_eq_ok] at hnone
    rw [← hfloor]
    simpa using hnone
  refine hprepare.mapError.bind _ fun r => Spec.fact fun hnone => ?_
  refine Spec.bind (fun _ m' => Quiet log m m' ∧ Lined P (log m'.storage) [(r.2, r.1.manifest)])
    ?_ fun _ => ?_
  · refine Spec.mapError (.intro (fun m₁ h _ m' hx => ?_) fun m₁ h e m' hx => .inl ?_)
    · have hstep := quiet_onStorage (G := G) (ht.compareAndSwapHead none r.2) m₁
      rw [hx] at hstep
      exact ⟨h.1.trans hstep, h.2.mono hstep.grows⟩
    · have hstep := quiet_onStorage (G := G) (ht.compareAndSwapHead none r.2) m₁
      rw [hx] at hstep
      exact h.1.trans hstep
  · -- every chain passes an empty floor
    have hpasses : PassesFloor m.floor.content [(r.2, r.1.manifest)] := by
      intro f hf
      rw [hnone] at hf
      cases hf
    exact ((spec_advanceFloor m).mapError.weaken (fun m' h => ⟨h.1, h.2, hpasses⟩)
      (fun _ _ h => h) fun _ h => h).bind _ fun _ => .pure fun _ h => h

end

end GitE2EE

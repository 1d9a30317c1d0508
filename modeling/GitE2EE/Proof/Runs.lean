import GitE2EE.Proof.Operations

/-!
# Sequences of operations

Any operations of one machine, in any order, on any backends and checkouts, that
share the floor of one repository root. A run keeps for each operation its outcome
and where the floor stood afterwards.
-/

namespace GitE2EE

open Wire Effect Lineage

variable {S G : Type} {P : Primitives}

/-- The operations that read or publish storage state. -/
inductive Operation where
  | observeManifest
  | importPacks
  | push (pushes : List RefPush) (mode : PushMode) (draws : Draws)
  | addDevice (pub : PublicDevice) (label : Text) (roles : DeviceRoles) (draws : Draws)
  | revokeDevice (deviceId : Text) (draws : Draws)
  | listDevices
  | currentManifest
  | verifyCiphertext
  | initializeRepository (ownerLabel : Text) (draws : Draws)

/-- What a call may fail with. -/
inductive CallError where
  | operation (error : Error)
  | initialization (error : InitializeError)

/-- One call on this machine. -/
structure Call (S G : Type) where
  storage : Storage S
  repo : GitRepository G
  key : KeyFile
  operation : Operation

/-- The chain a push reports, if its publication succeeded. -/
def reportedChain (accepted : Accepted PushOutcome) : Result (List (Text × Manifest)) :=
  accepted.value.publication.map fun _ => accepted.chain

/-- Runs a call. It returns the chain the operation accepted, newest first. -/
def Call.run (P : Primitives) (call : Call S G) :
    Action CallError (Machine S G) (List (Text × Manifest)) :=
  match call.operation with
  | .observeManifest => Action.mapError .operation
      (Accepted.chain <$> observeManifest P call.storage call.repo call.key)
  | .importPacks => Action.mapError .operation
      (Accepted.chain <$> importPacks P call.storage call.repo call.key)
  | .push pushes mode draws => Action.mapError .operation (do
      let accepted ← push P call.storage call.repo call.key pushes mode draws
      Action.lift (reportedChain accepted))
  | .addDevice pub label roles draws => Action.mapError .operation
      (Accepted.chain <$> addDevice P call.storage call.key pub label roles draws)
  | .revokeDevice deviceId draws => Action.mapError .operation
      (Accepted.chain <$> revokeDevice P call.storage call.key deviceId draws)
  | .listDevices => Action.mapError .operation
      (Accepted.chain <$> listDevices P call.storage call.key)
  | .currentManifest => Action.mapError .operation
      (Accepted.chain <$> currentManifest P call.storage call.key)
  | .verifyCiphertext => Action.mapError .operation
      (Accepted.chain <$> verifyCiphertext P call.storage call.key)
  | .initializeRepository ownerLabel draws => Action.mapError .initialization
      (Accepted.chain <$> initializeRepository P call.storage call.key ownerLabel draws)

/-- One operation of a run: its outcome, and the floor it left. -/
structure Done where
  outcome : Except CallError (List (Text × Manifest))
  floor : Option ContinuityFloor

/-- Calls in sequence. A failed call is followed by the next one all the same. -/
def runCalls (P : Primitives) : List (Call S G) → Machine S G → List Done × Machine S G
  | [], m => ([], m)
  | call :: rest, m =>
    let after := call.run P m
    let later := runCalls P rest after.2
    (⟨after.1, after.2.floor.content⟩ :: later.1, later.2)

/-- The call on a machine that keeps a transcript. -/
def Call.logged (call : Call S G) : Call (S × List Bytes) G where
  storage := call.storage.logged
  repo := call.repo
  key := call.key
  operation := call.operation

/-- The machine with an empty transcript. -/
def Machine.logged (m : Machine S G) : Machine (S × List Bytes) G :=
  ⟨(m.storage, []), m.floor, m.git⟩

/-! ## One call -/

theorem spec_map {ε σ α β : Type} {pre : σ → Prop} {err : σ → Prop} {f : α → β}
    {post : β → σ → Prop} {x : Action ε σ α} (h : Spec pre x (fun a => post (f a)) err) :
    Spec pre (f <$> x) post err :=
  h.bind _ fun _ => .pure fun _ h => h

/-- **Every call**, however it ends. -/
theorem spec_call {log : S → List Bytes} (hjson : ReadsJson P) (call : Call S G)
    (ht : Transcribed call.storage log) (m : Machine S G) :
    Spec (Quiet log m) (call.run P) (fun chain => Accepts P log m chain) (Moves P log m) := by
  unfold Call.run
  cases call.operation with
  | observeManifest => exact (spec_map (spec_observeManifest ht m)).mapError
  | importPacks => exact (spec_map (spec_importPacks ht m)).mapError
  | addDevice pub label roles draws => exact (spec_map (spec_changePolicy ht hjson m _ _)).mapError
  | revokeDevice deviceId draws => exact (spec_map (spec_changePolicy ht hjson m _ _)).mapError
  | listDevices => exact (spec_map (spec_listDevices ht m)).mapError
  | currentManifest => exact (spec_map (spec_currentManifest ht m)).mapError
  | verifyCiphertext => exact (spec_map (spec_verifyCiphertext ht m)).mapError
  | initializeRepository ownerLabel draws =>
    exact (spec_map (spec_initializeRepository ht hjson m _ _)).mapError
  | push pushes mode draws =>
    refine ((spec_push ht hjson m pushes mode draws).bind _ fun accepted => ?_).mapError
    -- a publication that failed is the failure of the call
    cases hpublication : accepted.value.publication with
    | ok id =>
      simp only [reportedChain, hpublication]
      exact .lift (fun chain h m' hm => by cases h; exact hm) fun m' hm => .inr ⟨_, hm⟩
    | error e =>
      simp only [reportedChain, hpublication]
      exact .lift (fun chain h => by cases h) fun m' hm => hm

/-! ## Runs -/

/-- The head of a successful operation is on the chain of a later one: at its own
generation, and not above the later head in either generation. -/
def StaysOn (earlier later : List (Text × Manifest)) : Prop :=
  ∀ id manifest rest id' manifest' rest', earlier = (id, manifest) :: rest →
    later = (id', manifest') :: rest' →
    (∃ found, later.find? (fun e => e.2.generation = manifest.generation) = some (id, found))
      ∧ manifest.generation ≤ manifest'.generation
      ∧ manifest.policyGeneration ≤ manifest'.policyGeneration

/-- The heads of the successful operations of a run lie on one chain, and the floor is
at the last of them. -/
structure Continuous (done : List Done) : Prop where
  ordered : done.Pairwise fun earlier later => ∀ c c', earlier.outcome = .ok c →
    later.outcome = .ok c' → StaysOn c c'
  floor : ∀ d ∈ done, ∀ c, d.outcome = .ok c → ∃ id manifest rest, c = (id, manifest) :: rest
    ∧ d.floor = some (ContinuityFloor.at id manifest)

/-- What the floor remembers of the operations before: `heads` are the heads they
accepted. -/
inductive Remembers (P : Primitives) (objects : List Bytes) (heads : List (Text × Manifest)) :
    Option ContinuityFloor → Prop where
  | nothing : heads = [] → Remembers P objects heads none
  | floor {head : Text × Manifest} {rest : List (Text × Manifest)} :
      Lined P objects (head :: rest) →
      (∀ h ∈ heads, (∃ e ∈ head :: rest, e.1 = h.1 ∧ e.2.generation = h.2.generation)
        ∧ h.2.policyGeneration ≤ head.2.policyGeneration) →
      Remembers P objects heads (some (ContinuityFloor.at head.1 head.2))

section

variable {objects : List Bytes} {log : S → List Bytes} {heads : List (Text × Manifest)}

/-- A chain that passes through the floor carries every head the floor remembers. -/
theorem Remembers.onto (hR : Functional (Stored P objects)) {floor : Option ContinuityFloor}
    (h : Remembers P objects heads floor) {head : Text × Manifest}
    {rest : List (Text × Manifest)} (hlined : Lined P objects (head :: rest))
    (hpasses : PassesFloor floor (head :: rest)) :
    ∀ x ∈ heads, (∃ e ∈ head :: rest, e.1 = x.1 ∧ e.2.generation = x.2.generation)
      ∧ x.2.policyGeneration ≤ head.2.policyGeneration := by
  intro x hx
  cases h with
  | nothing hnil => rw [hnil] at hx; cases hx
  | @floor pinned below hlined' hall =>
    obtain ⟨head', rest', heq, -, hpolicy, e, he, -, hid⟩ := hpasses _ rfl
    cases heq
    obtain ⟨⟨y, hy, hyid, hygen⟩, hxpolicy⟩ := hall x hx
    have hmem : pinned.1 ∈ (head :: rest).map Prod.fst := by
      have : e.1 = pinned.1 := hid
      rw [← this]
      exact List.mem_map_of_mem he
    obtain ⟨z, hz, hzid, hzgen⟩ := hlined.contains hR hlined' hmem hy
    exact ⟨⟨z, hz, hzid.trans hyid, hzgen.trans hygen⟩, Nat.le_trans hxpolicy hpolicy⟩

theorem Remembers.accepts (hR : Functional (Stored P objects)) {m m' : Machine S G}
    {chain : List (Text × Manifest)} (h : Remembers P objects heads m.floor.content)
    (ha : Accepts P log m chain m') (hsub : log m'.storage ⊆ objects) :
    ∃ head rest, chain = head :: rest ∧ Lined P objects chain
      ∧ m'.floor.content = some (ContinuityFloor.at head.1 head.2)
      ∧ ∀ x ∈ heads, (∃ e ∈ chain, e.1 = x.1 ∧ e.2.generation = x.2.generation)
        ∧ x.2.policyGeneration ≤ head.2.policyGeneration := by
  obtain ⟨head, rest, rfl, hfloor⟩ := ha.floor
  have hlined := ha.lined.mono hsub
  exact ⟨head, rest, rfl, hlined, hfloor, h.onto hR hlined ha.passes⟩

theorem Remembers.moves (hR : Functional (Stored P objects)) {m m' : Machine S G}
    (h : Remembers P objects heads m.floor.content) (hm : Moves P log m m')
    (hsub : log m'.storage ⊆ objects) : Remembers P objects heads m'.floor.content := by
  rcases hm with hq | ⟨chain, ha⟩
  · rw [hq.floor]
    exact h
  · obtain ⟨head, rest, rfl, hlined, hfloor, hall⟩ := h.accepts hR ha hsub
    rw [hfloor]
    exact .floor hlined hall

/-- A later chain that carries an earlier head. -/
def Carries (P : Primitives) (objects : List Bytes) (x : Text × Manifest)
    (chain : List (Text × Manifest)) : Prop :=
  ∃ head rest, chain = head :: rest ∧ Lined P objects chain
    ∧ (∃ e ∈ chain, e.1 = x.1 ∧ e.2.generation = x.2.generation)
    ∧ x.2.policyGeneration ≤ head.2.policyGeneration

theorem Carries.staysOn {x : Text × Manifest} {below chain : List (Text × Manifest)}
    (h : Carries P objects x chain) : StaysOn (x :: below) chain := by
  rintro id manifest rest id' manifest' rest' heq rfl
  cases heq
  obtain ⟨head, rest'', heq', hlined, ⟨e, he, hid, hgen⟩, hpolicy⟩ := h
  cases heq'
  refine ⟨⟨e.2, ?_⟩, ?_, hpolicy⟩
  · have hfind := hlined.find_eq he
    rw [hgen] at hfind
    rw [hfind]
    exact congrArg some (Prod.ext hid rfl)
  · rw [← hgen]
    exact hlined.generation_le he

/-- What one call does to the transcript. -/
theorem call_grows (hjson : ReadsJson P) {call : Call S G} (ht : Transcribed call.storage log)
    (m : Machine S G) : Grows log m.storage (call.run P m).2.storage := by
  have hspec := spec_call hjson call ht m
  cases hrun : call.run P m with
  | mk r m' =>
    cases r with
    | ok chain => exact (hspec.ok (Quiet.refl m) hrun).grows
    | error e =>
      rcases hspec.error (Quiet.refl m) hrun with hq | ⟨chain, ha⟩
      · exact hq.grows
      · exact ha.grows

theorem runCalls_grows (hjson : ReadsJson P) {calls : List (Call S G)}
    (ht : ∀ call ∈ calls, Transcribed call.storage log) (m : Machine S G) :
    Grows log m.storage (runCalls P calls m).2.storage := by
  induction calls generalizing m with
  | nil => exact Grows.refl _
  | cons call rest ih =>
    exact (call_grows hjson (ht call List.mem_cons_self) m).trans
      (ih (fun c hc => ht c (List.mem_cons_of_mem _ hc)) _)

/-- The run from any state whose floor remembers `heads`: every later chain carries
them, and the run is continuous. -/
theorem runCalls_continuous (hjson : ReadsJson P) (hR : Functional (Stored P objects))
    {calls : List (Call S G)} (ht : ∀ call ∈ calls, Transcribed call.storage log)
    {m : Machine S G} (hm : Remembers P objects heads m.floor.content)
    (hsub : log (runCalls P calls m).2.storage ⊆ objects) :
    Continuous (runCalls P calls m).1
      ∧ ∀ d ∈ (runCalls P calls m).1, ∀ c, d.outcome = .ok c →
        ∀ x ∈ heads, Carries P objects x c := by
  induction calls generalizing m heads with
  | nil => exact ⟨⟨.nil, fun d hd => by cases hd⟩, fun d hd => by cases hd⟩
  | cons call rest ih =>
    have htail : ∀ c ∈ rest, Transcribed c.storage log := fun c hc =>
      ht c (List.mem_cons_of_mem _ hc)
    have hspec := spec_call hjson call (ht call List.mem_cons_self) m
    have hafter : log (call.run P m).2.storage ⊆ objects :=
      List.Subset.trans (runCalls_grows hjson htail _) hsub
    cases hrun : call.run P m with
    | mk r m' =>
      rw [hrun] at hafter
      have hrest : runCalls P (call :: rest) m
          = (⟨r, m'.floor.content⟩ :: (runCalls P rest m').1, (runCalls P rest m').2) := by
        simp only [runCalls, hrun]
      rw [hrest] at hsub ⊢
      cases r with
      | error e =>
        -- the floor may have moved, but only along a chain that carries every head
        have hm' := hm.moves hR (hspec.error (Quiet.refl m) hrun) hafter
        obtain ⟨⟨hordered, hfloor⟩, hcarries⟩ := ih htail hm' hsub
        refine ⟨⟨List.pairwise_cons.mpr ⟨fun d _ c c' hc => (by cases hc), hordered⟩, ?_⟩, ?_⟩
        · intro d hd c hc
          rcases List.mem_cons.mp hd with rfl | hd
          · cases hc
          · exact hfloor d hd c hc
        · intro d hd c hc
          rcases List.mem_cons.mp hd with rfl | hd
          · cases hc
          · exact hcarries d hd c hc
      | ok chain =>
        obtain ⟨head, below, rfl, hlined, hfloor', hall⟩ :=
          hm.accepts hR (hspec.ok (Quiet.refl m) hrun) hafter
        -- heads, (∃ e ∈ head
        have hself : ∀ x ∈ head :: heads, (∃ e ∈ head :: below, e.1 = x.1
            ∧ e.2.generation = x.2.generation)
            ∧ x.2.policyGeneration ≤ head.2.policyGeneration := by
          intro x hx
          rcases List.mem_cons.mp hx with rfl | hx
          · exact ⟨⟨x, List.mem_cons_self, rfl, rfl⟩, Nat.le_refl _⟩
          · exact hall x hx
        have hm' : Remembers P objects (head :: heads) m'.floor.content := by
          rw [hfloor']
          exact .floor hlined hself
        obtain ⟨⟨hordered, hfloor⟩, hcarries⟩ := ih htail hm' hsub
        refine ⟨⟨List.pairwise_cons.mpr ⟨fun d hd c c' hc hc' => ?_, hordered⟩, ?_⟩, ?_⟩
        · cases hc
          exact (hcarries d hd c' hc' head List.mem_cons_self).staysOn
        · intro d hd c hc
          rcases List.mem_cons.mp hd with rfl | hd
          · cases hc
            exact ⟨head.1, head.2, below, rfl, hfloor'⟩
          · exact hfloor d hd c hc
        · intro d hd c hc x hx
          rcases List.mem_cons.mp hd with rfl | hd
          · cases hc
            exact ⟨head, below, rfl, hlined, hall x hx⟩
          · exact hcarries d hd c hc x (List.mem_cons_of_mem _ hx)

end

end GitE2EE

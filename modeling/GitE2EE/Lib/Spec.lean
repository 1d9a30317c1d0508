import GitE2EE.Lib.Action

/-!
# Pre- and postconditions of actions

An action that fails still leaves a state behind, so a specification has two
postconditions: one for the value and the state of a return, and one for the state
of a failure. Throughout a sequence the failure postcondition stays the same, which
is what lets the rules compose: it is proved once for each step that can fail.
-/

namespace Effect

variable {ε σ τ α β : Type}

/-- From states satisfying `pre`, a return satisfies `post` and a failure `err`. -/
def Spec (pre : σ → Prop) (x : Action ε σ α) (post : α → σ → Prop) (err : σ → Prop) : Prop :=
  ∀ s, pre s → match x s with
    | (.ok a, s') => post a s'
    | (.error _, s') => err s'

namespace Spec

variable {pre : σ → Prop} {post : α → σ → Prop} {err : σ → Prop}

/-- What is known after a return. -/
theorem ok {x : Action ε σ α} (h : Spec pre x post err) {s s' : σ} {a : α} (hs : pre s)
    (hx : x s = (.ok a, s')) : post a s' := by
  have := h s hs
  rw [hx] at this
  exact this

/-- What is known after a failure. -/
theorem error {x : Action ε σ α} (h : Spec pre x post err) {s s' : σ} {e : ε} (hs : pre s)
    (hx : x s = (.error e, s')) : err s' := by
  have := h s hs
  rw [hx] at this
  exact this

/-- A specification by its two outcomes. -/
theorem intro {x : Action ε σ α}
    (hok : ∀ s, pre s → ∀ a s', x s = (.ok a, s') → post a s')
    (herr : ∀ s, pre s → ∀ e s', x s = (.error e, s') → err s') : Spec pre x post err := by
  intro s hs
  cases hx : x s with
  | mk r s' =>
    cases r with
    | ok a => exact hok s hs a s' hx
    | error e => exact herr s hs e s' hx

/-- A sequence, by what holds in the middle. -/
theorem bind (mid : α → σ → Prop) {x : Action ε σ α} {f : α → Action ε σ β}
    {post : β → σ → Prop} (hx : Spec pre x mid err) (hf : ∀ a, Spec (mid a) (f a) post err) :
    Spec pre (x >>= f) post err := by
  intro s hs
  have h := hx s hs
  show match (match x s with
    | (.ok a, s') => f a s'
    | (.error e, s') => (.error e, s')) with
    | (.ok b, s') => post b s'
    | (.error _, s') => err s'
  cases hr : x s with
  | mk r s' =>
    rw [hr] at h
    cases r with
    | ok a => exact hf a s' h
    | error e => exact h

/-- A fact about no state in particular, known before. -/
theorem fact {p : Prop} {x : Action ε σ α} (h : p → Spec pre x post err) :
    Spec (fun s => p ∧ pre s) x post err := fun s hs => h hs.1 s hs.2

theorem pure {a : α} (h : ∀ s, pre s → post a s) :
    Spec pre (Pure.pure a : Action ε σ α) post err := fun s hs => h s hs

/-- A pure check: what it establishes is available afterwards. -/
theorem lift {r : Except ε α} (hok : ∀ a, r = .ok a → ∀ s, pre s → post a s)
    (herr : ∀ s, pre s → err s) : Spec pre (Action.lift r) post err := by
  intro s hs
  cases r with
  | ok a => exact hok a rfl s hs
  | error e => exact herr s hs

theorem fail {e : ε} (herr : ∀ s, pre s → err s) :
    Spec pre (Action.fail e : Action ε σ α) post err := fun s hs => herr s hs

/-- Going on after a failure: the outcome is a value. -/
theorem attempt {x : Action ε σ α} {post' : Except ε α → σ → Prop}
    (h : Spec pre x (fun a => post' (.ok a)) (fun s => ∀ e, post' (.error e) s)) :
    Spec pre (Action.attempt x) post' err := by
  intro s hs
  have := h s hs
  show post' (x s).1 (x s).2
  cases hx : x s with
  | mk r s' =>
    rw [hx] at this
    cases r with
    | ok a => exact this
    | error e => exact this e

theorem mapError {ε' : Type} {wrap : ε → ε'} {x : Action ε σ α} (h : Spec pre x post err) :
    Spec pre (Action.mapError wrap x) post err := by
  intro s hs
  have := h s hs
  unfold Action.mapError
  cases hx : x s with
  | mk r s' =>
    rw [hx] at this
    cases r <;> exact this

/-- The rule of consequence. -/
theorem weaken {pre' : σ → Prop} {post' : α → σ → Prop} {err' : σ → Prop} {x : Action ε σ α}
    (h : Spec pre x post err) (hpre : ∀ s, pre' s → pre s) (hpost : ∀ a s, post a s → post' a s)
    (herr : ∀ s, err s → err' s) : Spec pre' x post' err' := by
  refine intro (fun s hs a s' hx => hpost a s' (h.ok (hpre s hs) hx)) fun s hs e s' hx => ?_
  exact herr s' (h.error (hpre s hs) hx)

end Spec

/-! ## Steps that respect a relation -/

/-- However it ends, `x` moves the state along `R`. -/
def Keeps (R : σ → σ → Prop) (x : Action ε σ α) : Prop := ∀ s, R s (x s).2

namespace Keeps

variable {R : σ → σ → Prop}

theorem pure (hrefl : ∀ s, R s s) {a : α} : Keeps R (Pure.pure a : Action ε σ α) :=
  fun s => hrefl s

theorem lift (hrefl : ∀ s, R s s) {r : Except ε α} : Keeps R (Action.lift r : Action ε σ α) :=
  fun s => hrefl s

theorem fail (hrefl : ∀ s, R s s) {e : ε} : Keeps R (Action.fail e : Action ε σ α) :=
  fun s => hrefl s

theorem bind (htrans : ∀ ⦃a b c⦄, R a b → R b c → R a c) {x : Action ε σ α}
    {f : α → Action ε σ β} (hx : Keeps R x) (hf : ∀ a, Keeps R (f a)) : Keeps R (x >>= f) := by
  intro s
  have h := hx s
  show R s (match x s with
    | (.ok a, s') => f a s'
    | (.error e, s') => (.error e, s')).2
  cases hr : x s with
  | mk r s' =>
    rw [hr] at h
    cases r with
    | ok a => exact htrans h (hf a s')
    | error e => exact h

theorem attempt {x : Action ε σ α} (h : Keeps R x) : Keeps R (Action.attempt x) := h

/-- A specification from a relation, when nothing is asked of the value. -/
theorem spec {R : σ → σ → Prop} {x : Action ε σ α} (h : Keeps R x) {pre post : σ → Prop}
    (hstep : ∀ s s', pre s → R s s' → post s') : Spec pre x (fun _ => post) post := by
  intro s hs
  have hmove := hstep s (x s).2 hs (h s)
  cases hx : x s with
  | mk r s' =>
    rw [hx] at hmove
    cases r <;> exact hmove

end Keeps

/-! ## Steps that only look -/

/-- `x` leaves the state as it is. -/
def Looks (x : Action ε σ α) : Prop := ∀ s, (x s).2 = s

namespace Looks

theorem pure {a : α} : Looks (Pure.pure a : Action ε σ α) := fun _ => rfl

theorem lift {r : Except ε α} : Looks (Action.lift r : Action ε σ α) := fun _ => rfl

theorem fail {e : ε} : Looks (Action.fail e : Action ε σ α) := fun _ => rfl

theorem get : Looks (Action.get : Action ε σ σ) := fun _ => rfl

theorem bind {x : Action ε σ α} {f : α → Action ε σ β} (hx : Looks x) (hf : ∀ a, Looks (f a)) :
    Looks (x >>= f) := by
  intro s
  have h := hx s
  rcases Action.bind_cases x f s with ⟨a, s₁, hs, heq⟩ | ⟨e, s₁, hs, heq⟩
  · rw [hs] at h
    rw [heq, hf a s₁]
    exact h
  · rw [hs] at h
    rw [heq]
    exact h

theorem ite {c : Prop} [Decidable c] {x y : Action ε σ α} (hx : Looks x) (hy : Looks y) :
    Looks (if c then x else y) := by
  split
  · exact hx
  · exact hy

theorem eq {x : Action ε σ α} (h : Looks x) (s : σ) : x s = ((x s).1, s) := Prod.ext rfl (h s)

end Looks

/-! ## Steps seen through a view -/

/-- `y` is `x`, on states with less in them. -/
def Mirrors (view : σ → τ) (x : Action ε σ α) (y : Action ε τ α) : Prop :=
  ∀ s, y (view s) = ((x s).1, view (x s).2)

namespace Mirrors

variable {view : σ → τ}

theorem pure {a : α} : Mirrors view (Pure.pure a : Action ε σ α) (Pure.pure a) := fun _ => rfl

theorem lift {r : Except ε α} : Mirrors view (Action.lift r) (Action.lift r) := fun _ => rfl

theorem fail {e : ε} : Mirrors view (Action.fail e : Action ε σ α) (Action.fail e) := fun _ => rfl

theorem bind {x : Action ε σ α} {y : Action ε τ α} {f : α → Action ε σ β} {g : α → Action ε τ β}
    (hxy : Mirrors view x y) (hfg : ∀ a, Mirrors view (f a) (g a)) :
    Mirrors view (x >>= f) (y >>= g) := by
  intro s
  show (match y (view s) with
    | (.ok a, t) => g a t
    | (.error e, t) => (.error e, t)) = ((match x s with
    | (.ok a, s') => f a s'
    | (.error e, s') => (.error e, s')).1, view (match x s with
    | (.ok a, s') => f a s'
    | (.error e, s') => (.error e, s')).2)
  rw [hxy s]
  cases hx : x s with
  | mk r s' =>
    cases r with
    | ok a => exact hfg a s'
    | error e => rfl

theorem attempt {x : Action ε σ α} {y : Action ε τ α} (h : Mirrors view x y) :
    Mirrors view (Action.attempt x) (Action.attempt y) := by
  intro s
  simp only [Action.attempt, h s]

theorem mapError {ε' : Type} {wrap : ε → ε'} {x : Action ε σ α} {y : Action ε τ α}
    (h : Mirrors view x y) : Mirrors view (Action.mapError wrap x) (Action.mapError wrap y) := by
  intro s
  simp only [Action.mapError, h s]

/-- Both branches of a test that does not look at the state. -/
theorem ite {c : Prop} [Decidable c] {x x' : Action ε σ α} {y y' : Action ε τ α}
    (h : Mirrors view x y) (h' : Mirrors view x' y') :
    Mirrors view (if c then x else x') (if c then y else y') := by
  split
  · exact h
  · exact h'

end Mirrors

end Effect

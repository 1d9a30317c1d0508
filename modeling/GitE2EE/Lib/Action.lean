import Mathlib.Algebra.Order.Ring.Nat
import Mathlib.Data.List.Forall2

/-!
# Steps that fail and steps that change state

A pure check is an `Except`. An operation on the world is an `Action`: it returns
a value or an error, and the state it leaves behind is the state at that point
either way, because nothing rolls a file or a remote back when a later step fails.

Callers never unfold a sequence of steps. They peel it: a sequence that returned
did so because each of its steps did (`bind_eq_ok`).
-/

namespace Effect

variable {ε σ α β : Type}

/-! ## Pure checks -/

theorem except_bind_eq_ok {x : Except ε α} {f : α → Except ε β} {b : β} :
    (x >>= f) = .ok b ↔ ∃ a, x = .ok a ∧ f a = .ok b := by
  cases x with
  | error e => simp [bind, Except.bind]
  | ok a => simp [bind, Except.bind]

/-- A loop of checks passes when each check does. -/
theorem forM_eq_ok {xs : List α} {f : α → Except ε Unit} :
    xs.forM f = .ok () ↔ ∀ x ∈ xs, f x = .ok () := by
  induction xs with
  | nil => simp [pure, Except.pure]
  | cons x xs ih =>
    show (f x >>= fun _ => xs.forM f) = .ok () ↔ _
    rw [except_bind_eq_ok]
    constructor
    · rintro ⟨⟨⟩, hx, hrest⟩ y hy
      rcases List.mem_cons.mp hy with rfl | hy
      · exact hx
      · exact ih.mp hrest y hy
    · intro h
      exact ⟨(), h x (by simp), ih.mpr fun y hy => h y (by simp [hy])⟩

/-- A list is mapped when each of its elements is. -/
theorem mapM_eq_ok {xs : List α} {f : α → Except ε β} {ys : List β} :
    xs.mapM f = .ok ys ↔ List.Forall₂ (fun x y => f x = .ok y) xs ys := by
  induction xs generalizing ys with
  | nil =>
    rw [List.mapM_nil, List.forall₂_nil_left_iff]
    exact ⟨fun h => by cases h; rfl, fun h => by rw [h]; rfl⟩
  | cons x xs ih =>
    rw [List.mapM_cons, except_bind_eq_ok, List.forall₂_cons_left_iff]
    constructor
    · rintro ⟨y, hy, h⟩
      obtain ⟨rest, hrest, h⟩ := except_bind_eq_ok.mp h
      cases h
      exact ⟨y, rest, hy, ih.mp hrest, rfl⟩
    · rintro ⟨y, rest, hy, hrest, rfl⟩
      exact ⟨y, hy, except_bind_eq_ok.mpr ⟨rest, ih.mpr hrest, rfl⟩⟩

/-- Every element on the right of a pointwise relation has a partner on the left. -/
theorem forall₂_exists_left {R : α → β → Prop} {xs : List α} {ys : List β} {y : β}
    (h : List.Forall₂ R xs ys) (hy : y ∈ ys) : ∃ x ∈ xs, R x y := by
  induction h with
  | nil => cases hy
  | cons hxy _ ih =>
    rcases List.mem_cons.mp hy with rfl | hy
    · exact ⟨_, List.mem_cons_self, hxy⟩
    · obtain ⟨x, hx, hr⟩ := ih hy
      exact ⟨x, List.mem_cons_of_mem _ hx, hr⟩

/-! ## Actions -/

/-- A step that returns or fails, and leaves a state either way. -/
def Action (ε σ α : Type) : Type := σ → Except ε α × σ

namespace Action

instance : Monad (Action ε σ) where
  pure a := fun s => (.ok a, s)
  bind x f := fun s =>
    match x s with
    | (.ok a, s') => f a s'
    | (.error e, s') => (.error e, s')

theorem bind_assoc' {γ : Type} (x : Action ε σ α) (f : α → Action ε σ β)
    (g : β → Action ε σ γ) : (x >>= f) >>= g = x >>= fun a => f a >>= g := by
  funext s
  show (match (match x s with
    | (.ok a, s') => f a s'
    | (.error e, s') => (.error e, s')) with
    | (.ok b, s') => g b s'
    | (.error e, s') => (.error e, s')) = match x s with
    | (.ok a, s') => (f a >>= g) s'
    | (.error e, s') => (.error e, s')
  cases x s with
  | mk r s' => cases r <;> rfl

instance : LawfulMonad (Action ε σ) := by
  refine .mk' _ (fun x => ?_) (fun _ _ => rfl) bind_assoc'
  funext s
  show (match x s with
    | (.ok a, s') => (.ok a, s')
    | (.error e, s') => (.error e, s')) = x s
  cases x s with
  | mk r s' => cases r <;> rfl

/-- A pure check inside an action. -/
def lift (r : Except ε α) : Action ε σ α := fun s => (r, s)

instance : MonadLift (Except ε) (Action ε σ) where
  monadLift r := lift r

def fail (e : ε) : Action ε σ α := lift (.error e)

def get : Action ε σ σ := fun s => (.ok s, s)

def modify (f : σ → σ) : Action ε σ Unit := fun s => (.ok (), f s)

/-- The outcome of `x` as a value, for callers that go on after an error. -/
def attempt (x : Action ε σ α) : Action ε σ (Except ε α) := fun s => (.ok (x s).1, (x s).2)

/-- An action with its errors wrapped. -/
def mapError {ε' : Type} (wrap : ε → ε') (x : Action ε σ α) : Action ε' σ α :=
  fun s => ((x s).1.mapError wrap, (x s).2)

/-- An action on one part of the state. -/
def zoom {τ : Type} (view : σ → τ) (update : τ → σ → σ) (x : Action ε τ α) : Action ε σ α :=
  fun s => ((x (view s)).1, update (x (view s)).2 s)

@[simp] theorem pure_apply (a : α) (s : σ) : (pure a : Action ε σ α) s = (.ok a, s) := rfl

@[simp] theorem lift_apply (r : Except ε α) (s : σ) : (lift r : Action ε σ α) s = (r, s) := rfl

theorem lift_ok (a : α) : (lift (.ok a) : Action ε σ α) = pure a := rfl

@[simp] theorem attempt_apply (x : Action ε σ α) (s : σ) :
    attempt x s = (.ok (x s).1, (x s).2) := rfl

/-- **A sequence that returned, step by step.** -/
theorem bind_eq_ok {x : Action ε σ α} {f : α → Action ε σ β} {b : β} {s s₂ : σ} :
    (x >>= f) s = (.ok b, s₂) ↔ ∃ a s₁, x s = (.ok a, s₁) ∧ f a s₁ = (.ok b, s₂) := by
  show (match x s with
    | (.ok a, s') => f a s'
    | (.error e, s') => (.error e, s')) = _ ↔ _
  cases hx : x s with
  | mk r s₁ =>
    cases r with
    | error e => simp
    | ok a => simp

/-- A sequence whose first step failed. -/
theorem bind_of_error {x : Action ε σ α} {f : α → Action ε σ β} {s s' : σ} {e : ε}
    (h : x s = (.error e, s')) : (x >>= f) s = (.error e, s') := by
  show (match x s with
    | (.ok a, s') => f a s'
    | (.error e, s') => (.error e, s')) = _
  rw [h]

/-- A sequence whose first step returned. -/
theorem bind_of_ok {x : Action ε σ α} {f : α → Action ε σ β} {s s' : σ} {a : α}
    (h : x s = (.ok a, s')) : (x >>= f) s = f a s' := by
  show (match x s with
    | (.ok a, s') => f a s'
    | (.error e, s') => (.error e, s')) = _
  rw [h]

/-- **A sequence, by its first step**: it goes on from what that returned, or ends where
that failed. -/
theorem bind_cases (x : Action ε σ α) (f : α → Action ε σ β) (s : σ) :
    (∃ a s₁, x s = (.ok a, s₁) ∧ (x >>= f) s = f a s₁)
    ∨ ∃ e s₁, x s = (.error e, s₁) ∧ (x >>= f) s = (.error e, s₁) := by
  cases hx : x s with
  | mk r s₁ =>
    cases r with
    | ok a => exact .inl ⟨a, s₁, rfl, bind_of_ok hx⟩
    | error e => exact .inr ⟨e, s₁, rfl, bind_of_error hx⟩

/-- Two sequences agree when what follows does, wherever the first step returns. -/
theorem bind_congr_ok {x : Action ε σ α} {f g : α → Action ε σ β} {s : σ}
    (h : ∀ a s₁, x s = (.ok a, s₁) → f a s₁ = g a s₁) : (x >>= f) s = (x >>= g) s := by
  show (match x s with
    | (.ok a, s') => f a s'
    | (.error e, s') => (.error e, s')) = (match x s with
    | (.ok a, s') => g a s'
    | (.error e, s') => (.error e, s'))
  cases hx : x s with
  | mk r s₁ =>
    cases r with
    | error e => rfl
    | ok a => exact h a s₁ hx

/-- Two sequences agree when their first steps do. -/
theorem bind_congr_left {x y : Action ε σ α} {f : α → Action ε σ β} {s : σ} (h : x s = y s) :
    (x >>= f) s = (y >>= f) s := by
  show (match x s with
    | (.ok a, s') => f a s'
    | (.error e, s') => (.error e, s')) = (match y s with
    | (.ok a, s') => f a s'
    | (.error e, s') => (.error e, s'))
  rw [h]

theorem zoom_eq {τ : Type} {view : σ → τ} {update : τ → σ → σ} {x : Action ε τ α} {s s' : σ}
    {r : Except ε α} (h : zoom view update x s = (r, s')) :
    x (view s) = (r, (x (view s)).2) ∧ s' = update (x (view s)).2 s := by
  cases h
  exact ⟨rfl, rfl⟩

theorem lift_eq_ok {r : Except ε α} {a : α} {s s₁ : σ} :
    (lift r : Action ε σ α) s = (.ok a, s₁) ↔ r = .ok a ∧ s = s₁ := by
  simp only [lift, Prod.mk.injEq]

theorem pure_eq_ok {a b : α} {s s₁ : σ} :
    (pure a : Action ε σ α) s = (.ok b, s₁) ↔ a = b ∧ s = s₁ := by
  simp only [pure_apply, Prod.mk.injEq, Except.ok.injEq]

end Action

end Effect

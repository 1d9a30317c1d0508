import Mathlib.Algebra.Order.Ring.Nat
import Mathlib.Data.List.Basic
import Mathlib.Logic.Function.Basic

/-!
# Threads in any interleaving

A thread is a program cut at its system calls: it is finished, or it makes one call
and goes on with the reply. A pool runs threads over one state. Each move lets one
thread make one call, with whatever outcome the platform has for it, or stops a thread
for good between two calls.

Threads are specified against interference. A discipline says what holds in every
state and what the other threads may do to the state between two calls of this one;
an assertion is stable when that cannot break it. `Meets` is the triple of a thread,
and it asks of every call that it keeps the invariant and does to the others only what
they allow. What every thread of a pool meets, every run of the pool keeps
(`Meets.run`).
-/

namespace Effect

variable {Op : Type} {Reply : Op → Type} {ε α β : Type}

/-- A program that calls the system and goes on with the reply. -/
inductive Thread (Op : Type) (Reply : Op → Type) (ε α : Type) : Type where
  | done (result : Except ε α)
  | call (op : Op) (next : Reply op → Thread Op Reply ε α)

namespace Thread

/-- The thread `f` goes on from whatever `x` ends with, be it an error. -/
def andThen (f : Except ε α → Thread Op Reply ε β) : Thread Op Reply ε α → Thread Op Reply ε β
  | done result => f result
  | call op next => call op fun reply => (next reply).andThen f

instance : Monad (Thread Op Reply ε) where
  pure a := done (.ok a)
  bind x f := x.andThen fun
    | .ok a => f a
    | .error e => done (.error e)

/-- One call. -/
def perform (op : Op) : Thread Op Reply ε (Reply op) := call op fun reply => done (.ok reply)

def lift (result : Except ε α) : Thread Op Reply ε α := done result

def fail (e : ε) : Thread Op Reply ε α := done (.error e)

/-- The outcome of `x` as a value, for callers that go on after an error. -/
def attempt (x : Thread Op Reply ε α) : Thread Op Reply ε (Except ε α) :=
  x.andThen fun result => done (.ok result)

end Thread

/-- What the calls of thread `i` do. The choice stands for everything the platform
decides: that a call fails, or how far it got. A call that has to wait has no outcome. -/
structure Platform (ι Op : Type) (Reply : Op → Type) (χ σ : Type) where
  perform : ι → χ → (op : Op) → σ → Option (Reply op × σ)
  /-- What the platform does when the thread is stopped. -/
  halt : ι → σ → σ

inductive Move (ι χ : Type) where
  | step (thread : ι) (choice : χ)
  | halt (thread : ι)

/-- Threads over one state. A stopped thread is gone. -/
structure Pool (ι Op : Type) (Reply : Op → Type) (ε α σ : Type) where
  state : σ
  threads : ι → Option (Thread Op Reply ε α)

variable {ι χ σ : Type} (P : Platform ι Op Reply χ σ)

namespace Pool

variable [DecidableEq ι]

def step (pool : Pool ι Op Reply ε α σ) : Move ι χ → Option (Pool ι Op Reply ε α σ)
  | .step i choice =>
    match pool.threads i with
    | some (.call op next) =>
      match P.perform i choice op pool.state with
      | some (reply, state) => some ⟨state, Function.update pool.threads i (some (next reply))⟩
      | none => none
    | _ => none
  | .halt i =>
    match pool.threads i with
    | some (.call _ _) => some ⟨P.halt i pool.state, Function.update pool.threads i none⟩
    | _ => none

def run (pool : Pool ι Op Reply ε α σ) : List (Move ι χ) → Option (Pool ι Op Reply ε α σ)
  | [] => some pool
  | move :: moves =>
    match pool.step P move with
    | some next => next.run moves
    | none => none

/-- **What a step can do**: one thread makes its call, or one thread is stopped. -/
theorem step_cases {pool next : Pool ι Op Reply ε α σ} {move : Move ι χ}
    (h : pool.step P move = some next) :
    (∃ i choice op k reply, move = .step i choice ∧ pool.threads i = some (.call op k)
      ∧ P.perform i choice op pool.state = some (reply, next.state)
      ∧ next.threads = Function.update pool.threads i (some (k reply)))
    ∨ ∃ i, move = .halt i ∧ next.state = P.halt i pool.state
      ∧ next.threads = Function.update pool.threads i none := by
  cases move with
  | step i choice =>
    left
    simp only [step] at h
    split at h
    · rename_i op k hthread
      split at h
      · rename_i reply state hperform
        cases h
        exact ⟨i, choice, op, k, reply, rfl, hthread, hperform, rfl⟩
      · cases h
    · cases h
  | halt i =>
    right
    simp only [step] at h
    split at h
    · cases h
      exact ⟨i, rfl, rfl, rfl⟩
    · cases h

/-- **Invariants of runs**: what the start has and every step keeps. -/
theorem run_induction {motive : Pool ι Op Reply ε α σ → Prop} {pool : Pool ι Op Reply ε α σ}
    (hstart : motive pool)
    (hstep : ∀ p move q, motive p → p.step P move = some q → motive q)
    {moves : List (Move ι χ)} {last : Pool ι Op Reply ε α σ}
    (h : pool.run P moves = some last) : motive last := by
  induction moves generalizing pool with
  | nil =>
    cases h
    exact hstart
  | cons move moves ih =>
    simp only [run] at h
    split at h
    · rename_i next hnext
      exact ih (hstep pool move next hstart hnext) h
    · cases h

/-- A run, cut in two. -/
theorem run_append {pool : Pool ι Op Reply ε α σ} (before after : List (Move ι χ)) :
    pool.run P (before ++ after) = (pool.run P before).bind (·.run P after) := by
  induction before generalizing pool with
  | nil => rfl
  | cons move before ih =>
    simp only [List.cons_append, run]
    cases pool.step P move with
    | none => rfl
    | some next => exact ih

/-- A run and its last move. -/
theorem run_concat {pool : Pool ι Op Reply ε α σ} (before : List (Move ι χ)) (move : Move ι χ) :
    pool.run P (before ++ [move]) = (pool.run P before).bind (·.step P move) := by
  rw [run_append]
  congr 1
  funext mid
  simp only [run]
  cases mid.step P move with
  | none => rfl
  | some next => rfl

end Pool

/-! ## Specifications under interference -/

/-- What every state satisfies, and what a thread allows the others to do. -/
structure Discipline (ι σ : Type) where
  inv : σ → Prop
  rely : ι → σ → σ → Prop

variable (D : Discipline ι σ)

/-- No step that thread `i` allows the others breaks the assertion. -/
def Discipline.Stable (i : ι) (assertion : σ → Prop) : Prop :=
  ∀ s s', D.inv s → D.inv s' → D.rely i s s' → assertion s → assertion s'

/-- From states satisfying `pre`, thread `i` keeps the invariant and what the others
rely on at each of its calls, and ends with `post`. -/
def Meets (i : ι) (post : Except ε α → σ → Prop) :
    Thread Op Reply ε α → (σ → Prop) → Prop
  | .done result, pre => ∀ s, D.inv s → pre s → post result s
  | .call op next, pre => ∀ s, D.inv s → pre s → ∀ choice reply s',
      P.perform i choice op s = some (reply, s') →
        D.inv s' ∧ (∀ j, j ≠ i → D.rely j s s')
          ∧ ∃ mid, D.Stable i mid ∧ mid s' ∧ Meets i post (next reply) mid

namespace Meets

variable {P D} {i : ι} {post : Except ε α → σ → Prop} {pre : σ → Prop}

theorem done {result : Except ε α} (h : ∀ s, D.inv s → pre s → post result s) :
    Meets P D i post (.done result : Thread Op Reply ε α) pre := h

theorem pure {a : α} (h : ∀ s, D.inv s → pre s → post (.ok a) s) :
    Meets P D i post (pure a : Thread Op Reply ε α) pre := h

theorem fail {e : ε} (h : ∀ s, D.inv s → pre s → post (.error e) s) :
    Meets P D i post (Thread.fail e : Thread Op Reply ε α) pre := h

theorem lift {result : Except ε α} (h : ∀ s, D.inv s → pre s → post result s) :
    Meets P D i post (Thread.lift result : Thread Op Reply ε α) pre := h

/-- A stronger precondition. -/
theorem weaken {x : Thread Op Reply ε α} {pre' : σ → Prop} (h : Meets P D i post x pre)
    (himp : ∀ s, D.inv s → pre' s → pre s) : Meets P D i post x pre' := by
  cases x with
  | done result => exact fun s hs hp => h s hs (himp s hs hp)
  | call op next => exact fun s hs hp => h s hs (himp s hs hp)

/-- A value of the state at the start, fixed for the whole thread. -/
theorem fix {κ : Type} {x : Thread Op Reply ε α} {pre : κ → σ → Prop}
    (h : ∀ a, Meets P D i post x (pre a)) : Meets P D i post x fun s => ∃ a, pre a s := by
  cases x with
  | done result => exact fun s hs ⟨a, hp⟩ => h a s hs hp
  | call op next => exact fun s hs ⟨a, hp⟩ => h a s hs hp

/-- A fact that does not depend on the state. -/
theorem fact {x : Thread Op Reply ε α} {p : Prop} (h : p → Meets P D i post x pre) :
    Meets P D i post x fun s => p ∧ pre s := by
  cases x with
  | done result => exact fun s hs ⟨hp, hpre⟩ => h hp s hs hpre
  | call op next => exact fun s hs ⟨hp, hpre⟩ => h hp s hs hpre

/-- A sequence, by what holds in the middle. -/
theorem andThen (mid : Except ε α → σ → Prop) {post : Except ε β → σ → Prop}
    {x : Thread Op Reply ε α} {f : Except ε α → Thread Op Reply ε β} (hx : Meets P D i mid x pre)
    (hf : ∀ result, Meets P D i post (f result) (mid result)) :
    Meets P D i post (x.andThen f) pre := by
  induction x generalizing pre with
  | done result => exact (hf result).weaken hx
  | call op next ih =>
    intro s hs hp choice reply s' hperform
    obtain ⟨hinv, hrely, p, hstable, hp', hnext⟩ := hx s hs hp choice reply s' hperform
    exact ⟨hinv, hrely, p, hstable, hp', ih reply hnext⟩

theorem bind (mid : α → σ → Prop) {post : Except ε β → σ → Prop}
    {x : Thread Op Reply ε α} {f : α → Thread Op Reply ε β}
    (hx : Meets P D i (fun
      | .ok a => mid a
      | .error e => post (.error e)) x pre)
    (hf : ∀ a, Meets P D i post (f a) (mid a)) : Meets P D i post (x >>= f) pre := by
  refine andThen _ hx fun result => ?_
  cases result with
  | ok a => exact hf a
  | error e => exact done fun _ _ h => h

theorem attempt {post : Except ε (Except ε α) → σ → Prop} {x : Thread Op Reply ε α}
    (h : Meets P D i (fun result => post (.ok result)) x pre) :
    Meets P D i post x.attempt pre :=
  andThen _ h fun _ => done fun _ _ h => h

/-- One call, by what it does in every state it may be made in. -/
theorem perform {op : Op} {post : Except ε (Reply op) → σ → Prop}
    (hstep : ∀ s, D.inv s → pre s → ∀ choice reply s',
      P.perform i choice op s = some (reply, s') →
        D.inv s' ∧ (∀ j, j ≠ i → D.rely j s s') ∧ post (.ok reply) s')
    (hstable : ∀ reply, D.Stable i (post (.ok reply))) :
    Meets P D i post (Thread.perform op : Thread Op Reply ε (Reply op)) pre := by
  intro s hs hp choice reply s' hperform
  obtain ⟨hinv, hrely, hpost⟩ := hstep s hs hp choice reply s' hperform
  exact ⟨hinv, hrely, _, hstable reply, hpost, fun _ _ h => h⟩

/-- A weaker postcondition. -/
theorem mono {post' : Except ε α → σ → Prop} {x : Thread Op Reply ε α}
    (h : Meets P D i post x pre) (himp : ∀ result s, D.inv s → post result s → post' result s) :
    Meets P D i post' x pre := by
  induction x generalizing pre with
  | done result => exact fun s hs hp => himp result s hs (h s hs hp)
  | call op next ih =>
    intro s hs hp choice reply s' hperform
    obtain ⟨hinv, hrely, p, hstable, hp', hnext⟩ := h s hs hp choice reply s' hperform
    exact ⟨hinv, hrely, p, hstable, hp', ih reply hnext⟩

end Meets

/-- Every thread is at a point of a program it is proved to run. -/
structure Disciplined (post : ι → Except ε α → σ → Prop) (pool : Pool ι Op Reply ε α σ) :
    Prop where
  inv : D.inv pool.state
  meets : ∀ i x, pool.threads i = some x →
    ∃ pre, D.Stable i pre ∧ pre pool.state ∧ Meets P D i (post i) x pre

variable {P D}

/-- One move: the thread that moved is at its next point, the others are left what they
rely on. -/
theorem Disciplined.step [DecidableEq ι] {post : ι → Except ε α → σ → Prop}
    (hhalt : ∀ i s, D.inv s → D.inv (P.halt i s) ∧ ∀ j, j ≠ i → D.rely j s (P.halt i s))
    {pool next : Pool ι Op Reply ε α σ} {move : Move ι χ} (h : Disciplined P D post pool)
    (hstep : pool.step P move = some next) : Disciplined P D post next := by
  rcases Pool.step_cases P hstep with
    ⟨i, choice, op, k, reply, -, hthread, hperform, hthreads⟩ | ⟨i, -, hstate, hthreads⟩
  · obtain ⟨pre, -, hpre, hmeets⟩ := h.meets i _ hthread
    obtain ⟨hinv, hrely, mid, hmid, hmid', hnext⟩ :=
      hmeets pool.state h.inv hpre choice reply next.state hperform
    refine ⟨hinv, fun j x hx => ?_⟩
    rw [hthreads] at hx
    by_cases hj : j = i
    · subst hj
      rw [Function.update_self] at hx
      cases hx
      exact ⟨mid, hmid, hmid', hnext⟩
    · rw [Function.update_of_ne hj] at hx
      obtain ⟨p, hstable, hp, hm⟩ := h.meets j x hx
      exact ⟨p, hstable, hstable _ _ h.inv hinv (hrely j hj) hp, hm⟩
  · obtain ⟨hinv, hrely⟩ := hhalt i pool.state h.inv
    rw [← hstate] at hinv hrely
    refine ⟨hinv, fun j x hx => ?_⟩
    rw [hthreads] at hx
    by_cases hj : j = i
    · subst hj
      rw [Function.update_self] at hx
      cases hx
    · rw [Function.update_of_ne hj] at hx
      obtain ⟨p, hstable, hp, hm⟩ := h.meets j x hx
      exact ⟨p, hstable, hstable _ _ h.inv hinv (hrely j hj) hp, hm⟩

/-- **Every run of threads that meet their specifications** keeps the invariant, and a
thread that ended did so with its postcondition. -/
theorem Meets.run [DecidableEq ι] {post : ι → Except ε α → σ → Prop}
    (hhalt : ∀ i s, D.inv s → D.inv (P.halt i s) ∧ ∀ j, j ≠ i → D.rely j s (P.halt i s))
    {pool last : Pool ι Op Reply ε α σ} {moves : List (Move ι χ)}
    (h : Disciplined P D post pool) (hrun : pool.run P moves = some last) :
    D.inv last.state
      ∧ ∀ i result, last.threads i = some (.done result) → post i result last.state := by
  have hlast : Disciplined P D post last :=
    Pool.run_induction P h (fun _ _ _ hp hstep => hp.step hhalt hstep) hrun
  refine ⟨hlast.inv, fun i result hresult => ?_⟩
  obtain ⟨pre, -, hpre, hmeets⟩ := hlast.meets i _ hresult
  exact hmeets _ hlast.inv hpre

end Effect

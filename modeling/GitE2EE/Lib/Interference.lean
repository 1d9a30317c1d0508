import GitE2EE.Lib.Action
import GitE2EE.Lib.Thread
import Mathlib.Logic.Relation

/-!
# One thread against everybody else

A pool says what all threads do together. Here one thread is followed to its end, and
the others are a relation: what they may do to the state between two calls of this one
(`Runs`). That is enough for a question about a single caller, whoever else is there.

An `Adversary` settles everything the platform and the others decide, so that a thread
becomes an action on the state (`Thread.against`). It may decide as it likes, with a
memory of its own, as long as the platform has that outcome for the call; what holds of
every `Runs` therefore holds of the action against every adversary.
-/

namespace Effect

variable {Op : Type} {Reply : Op → Type} {ε α β : Type} {ι χ σ τ : Type}

namespace Thread

/-- Every call the thread may make is an allowed one. -/
def Only (allowed : Op → Prop) : Thread Op Reply ε α → Prop
  | done _ => True
  | call op next => allowed op ∧ ∀ reply, (next reply).Only allowed

/-- Every error the thread may end with is a bad one. -/
def FailsWith (bad : ε → Prop) : Thread Op Reply ε α → Prop
  | done (.ok _) => True
  | done (.error e) => bad e
  | call _ next => ∀ reply, (next reply).FailsWith bad

section

variable {allowed : Op → Prop} {bad : ε → Prop}

theorem Only.andThen {f : Except ε α → Thread Op Reply ε β} {x : Thread Op Reply ε α}
    (hx : x.Only allowed) (hf : ∀ result, (f result).Only allowed) :
    (x.andThen f).Only allowed := by
  induction x with
  | done result => exact hf result
  | call op next ih => exact ⟨hx.1, fun reply => ih reply (hx.2 reply)⟩

theorem Only.bind {f : α → Thread Op Reply ε β} {x : Thread Op Reply ε α}
    (hx : x.Only allowed) (hf : ∀ a, (f a).Only allowed) : (x >>= f).Only allowed := by
  refine hx.andThen fun result => ?_
  cases result with
  | ok a => exact hf a
  | error e => trivial

theorem Only.attempt {x : Thread Op Reply ε α} (hx : x.Only allowed) :
    x.attempt.Only allowed := hx.andThen fun _ => trivial

theorem Only.perform {op : Op} (h : allowed op) :
    (Thread.perform op : Thread Op Reply ε (Reply op)).Only allowed := ⟨h, fun _ => trivial⟩

/-- A call that is not allowed does not get allowed by what follows it. -/
theorem Only.mono {allowed' : Op → Prop} (himp : ∀ op, allowed op → allowed' op)
    {x : Thread Op Reply ε α} (h : x.Only allowed) : x.Only allowed' := by
  induction x with
  | done result => trivial
  | call op next ih => exact ⟨himp op h.1, fun reply => ih reply (h.2 reply)⟩

/-- A sequence fails where its first part does, or where what follows does. -/
theorem FailsWith.bind {f : α → Thread Op Reply ε β} {x : Thread Op Reply ε α}
    (hx : x.FailsWith bad) (hf : ∀ a, (f a).FailsWith bad) : (x >>= f).FailsWith bad := by
  induction x with
  | done result =>
    cases result with
    | ok a => exact hf a
    | error e => exact hx
  | call op next ih => exact fun reply => ih reply (hx reply)

theorem FailsWith.mono {bad' : ε → Prop} (himp : ∀ e, bad e → bad' e) {x : Thread Op Reply ε α}
    (h : x.FailsWith bad) : x.FailsWith bad' := by
  induction x with
  | done result =>
    cases result with
    | ok a => trivial
    | error e => exact himp e h
  | call op next ih => exact fun reply => ih reply (h reply)

theorem FailsWith.perform {op : Op} :
    (Thread.perform op : Thread Op Reply ε (Reply op)).FailsWith bad := fun _ => trivial

theorem FailsWith.lift {result : Except ε α} (h : ∀ e, result = .error e → bad e) :
    (Thread.lift result : Thread Op Reply ε α).FailsWith bad := by
  cases result with
  | ok a => trivial
  | error e => exact h e rfl

/-- Going on after a failure: only what goes on can fail. -/
theorem FailsWith.attempt {x : Thread Op Reply ε α} : x.attempt.FailsWith bad := by
  induction x with
  | done result => trivial
  | call op next ih => exact fun reply => ih reply

/-- Going on after a failure, with what is known of the error. -/
theorem FailsWith.attempt_bind {bad' : ε → Prop} {f : Except ε α → Thread Op Reply ε β}
    {x : Thread Op Reply ε α} (hx : x.FailsWith bad) (hok : ∀ a, (f (.ok a)).FailsWith bad')
    (herror : ∀ e, bad e → (f (.error e)).FailsWith bad') : (x.attempt >>= f).FailsWith bad' := by
  induction x with
  | done result =>
    cases result with
    | ok a => exact hok a
    | error e => exact herror e hx
  | call op next ih => exact fun reply => ih reply (hx reply)

/-- Calls and errors together. -/
def Within (allowed : Op → Prop) (bad : ε → Prop) (x : Thread Op Reply ε α) : Prop :=
  x.Only allowed ∧ x.FailsWith bad

theorem Within.bind {f : α → Thread Op Reply ε β} {x : Thread Op Reply ε α}
    (hx : x.Within allowed bad) (hf : ∀ a, (f a).Within allowed bad) :
    (x >>= f).Within allowed bad := ⟨hx.1.bind fun a => (hf a).1, hx.2.bind fun a => (hf a).2⟩

theorem Within.perform {op : Op} (h : allowed op) :
    (Thread.perform op : Thread Op Reply ε (Reply op)).Within allowed bad := ⟨.perform h, .perform⟩

theorem Within.pure {a : α} : (pure a : Thread Op Reply ε α).Within allowed bad :=
  ⟨trivial, trivial⟩

theorem Within.lift {result : Except ε α} (h : ∀ e, result = .error e → bad e) :
    (Thread.lift result : Thread Op Reply ε α).Within allowed bad := ⟨trivial, .lift h⟩

theorem Within.fail {e : ε} (h : bad e) :
    (Thread.fail e : Thread Op Reply ε α).Within allowed bad := ⟨trivial, h⟩

theorem Within.attempt_bind {bad' : ε → Prop} {f : Except ε α → Thread Op Reply ε β}
    {x : Thread Op Reply ε α} (hx : x.Within allowed bad)
    (hok : ∀ a, (f (.ok a)).Within allowed bad')
    (herror : ∀ e, bad e → (f (.error e)).Within allowed bad')
    (honly : ∀ result, (f result).Only allowed) : (x.attempt >>= f).Within allowed bad' :=
  ⟨hx.1.attempt.bind honly, hx.2.attempt_bind (fun a => (hok a).2) fun e he => (herror e he).2⟩

theorem Within.mono {allowed' : Op → Prop} (himp : ∀ op, allowed op → allowed' op)
    {x : Thread Op Reply ε α} (h : x.Within allowed bad) : x.Within allowed' bad :=
  ⟨h.1.mono himp, h.2⟩

end

/-- On every way to a marked error, all calls are allowed ones. -/
inductive Careful (allowed : Op → Prop) (marked : ε → Prop) : Thread Op Reply ε α → Prop where
  | unmarked {x : Thread Op Reply ε α} : x.FailsWith (fun e => ¬ marked e) →
      Careful allowed marked x
  | done (result : Except ε α) : Careful allowed marked (.done result)
  | call {op : Op} {next : Reply op → Thread Op Reply ε α} : allowed op →
    (∀ reply, Careful allowed marked (next reply)) → Careful allowed marked (.call op next)

theorem Careful.bind {allowed : Op → Prop} {marked : ε → Prop} {x : Thread Op Reply ε α}
    {f : α → Thread Op Reply ε β} (hx : x.Only allowed) (hf : ∀ a, Careful allowed marked (f a)) :
    Careful allowed marked (x >>= f) := by
  induction x with
  | done result =>
    cases result with
    | ok a => exact hf a
    | error e => exact .done (.error e)
  | call op next ih => exact .call hx.1 fun reply => ih reply (hx.2 reply)

end Thread

/-! ## Runs -/

variable (P : Platform ι Op Reply χ σ) (env : σ → σ → Prop) (i : ι)

/-- `Runs P env i x s result last`: from `s`, thread `i` runs `x` to its end in `last`,
while the others do what `env` says between its calls. -/
inductive Runs : Thread Op Reply ε α → σ → Except ε α → σ → Prop where
  | done (result : Except ε α) (s : σ) : Runs (.done result) s result s
  | others {x : Thread Op Reply ε α} {s s' last : σ} {result : Except ε α} :
    env s s' → Runs x s' result last → Runs x s result last
  | call {op : Op} {next : Reply op → Thread Op Reply ε α} {s s' last : σ} {choice : χ}
    {reply : Reply op} {result : Except ε α} :
    P.perform i choice op s = some (reply, s') → Runs (next reply) s' result last →
      Runs (.call op next) s result last

namespace Runs

variable {P env i}

/-- The others, then the run. -/
theorem others_star {x : Thread Op Reply ε α} {s s' last : σ} {result : Except ε α}
    (henv : Relation.ReflTransGen env s s') (h : Runs P env i x s' result last) :
    Runs P env i x s result last := by
  induction henv with
  | refl => exact h
  | tail _ hstep ih => exact ih (.others hstep h)

/-- A finished thread only watches the others. -/
theorem done_cases {result result' : Except ε α} {s last : σ}
    (h : Runs P env i (.done result : Thread Op Reply ε α) s result' last) :
    result' = result ∧ Relation.ReflTransGen env s last := by
  generalize hy : (Thread.done result : Thread Op Reply ε α) = y at h
  induction h with
  | done result s =>
    cases hy
    exact ⟨rfl, .refl⟩
  | others hstep _ ih =>
    obtain ⟨hresult, hrest⟩ := ih hy
    exact ⟨hresult, .head hstep hrest⟩
  | call _ _ _ => cases hy

/-- **A sequence, cut where its first part ends.** -/
theorem andThen_cases {x : Thread Op Reply ε α} {f : Except ε α → Thread Op Reply ε β}
    {s last : σ} {result : Except ε β} (h : Runs P env i (x.andThen f) s result last) :
    ∃ middle mid, Runs P env i x s middle mid ∧ Runs P env i (f middle) mid result last := by
  generalize hy : x.andThen f = y at h
  induction h generalizing x with
  | done result s =>
    cases x with
    | done middle =>
      have hf : f middle = .done result := hy
      exact ⟨middle, s, .done middle s, by rw [hf]; exact .done result s⟩
    | call op next => cases hy
  | others hstep _ ih =>
    obtain ⟨middle, mid, hx, hf⟩ := ih hy
    exact ⟨middle, mid, .others hstep hx, hf⟩
  | @call op next s s' last choice reply result hperform hnext ih =>
    cases x with
    | done middle =>
      have hf : f middle = .call op next := hy
      exact ⟨middle, s, .done middle s, by rw [hf]; exact .call hperform hnext⟩
    | call op' next' =>
      cases hy
      obtain ⟨middle, mid, hx, hf⟩ := ih rfl
      exact ⟨middle, mid, .call hperform hx, hf⟩

theorem bind_cases {x : Thread Op Reply ε α} {f : α → Thread Op Reply ε β} {s last : σ}
    {result : Except ε β} (h : Runs P env i (x >>= f) s result last) :
    (∃ a mid, Runs P env i x s (.ok a) mid ∧ Runs P env i (f a) mid result last)
    ∨ ∃ e mid, result = .error e ∧ Runs P env i x s (.error e) mid
      ∧ Relation.ReflTransGen env mid last := by
  obtain ⟨middle, mid, hx, hf⟩ := andThen_cases h
  cases middle with
  | ok a => exact .inl ⟨a, mid, hx, hf⟩
  | error e =>
    obtain ⟨hresult, hrest⟩ := done_cases hf
    exact .inr ⟨e, mid, hresult, hx, hrest⟩

/-- A sequence that returned, by its two parts. -/
theorem bind_ok {x : Thread Op Reply ε α} {f : α → Thread Op Reply ε β} {s last : σ} {b : β}
    (h : Runs P env i (x >>= f) s (.ok b) last) :
    ∃ a mid, Runs P env i x s (.ok a) mid ∧ Runs P env i (f a) mid (.ok b) last := by
  rcases bind_cases h with h | ⟨e, _, hresult, -⟩
  · exact h
  · cases hresult

/-- One call, with the others before and after it. -/
theorem perform_cases {op : Op} {s last : σ} {result : Except ε (Reply op)}
    (h : Runs P env i (Thread.perform op : Thread Op Reply ε (Reply op)) s result last) :
    ∃ before choice reply after, Relation.ReflTransGen env s before
      ∧ P.perform i choice op before = some (reply, after) ∧ result = .ok reply
      ∧ Relation.ReflTransGen env after last := by
  generalize hy : (Thread.perform op : Thread Op Reply ε (Reply op)) = y at h
  induction h with
  | done result s => cases hy
  | others hstep _ ih =>
    obtain ⟨before, choice, reply, after, hbefore, hrest⟩ := ih hy
    exact ⟨before, choice, reply, after, .head hstep hbefore, hrest⟩
  | call hperform hnext ih =>
    cases hy
    obtain ⟨hresult, hafter⟩ := done_cases hnext
    exact ⟨_, _, _, _, .refl, hperform, hresult, hafter⟩

/-- A call and what goes on with its reply. -/
theorem perform_bind_cases {op : Op} {f : Reply op → Thread Op Reply ε β} {s last : σ}
    {result : Except ε β}
    (h : Runs P env i ((Thread.perform op : Thread Op Reply ε (Reply op)) >>= f) s result last) :
    ∃ before choice reply after, Relation.ReflTransGen env s before
      ∧ P.perform i choice op before = some (reply, after)
      ∧ Runs P env i (f reply) after result last := by
  rcases bind_cases h with ⟨a, mid, hperform, hrest⟩ | ⟨e, mid, -, hperform, -⟩
  · obtain ⟨before, choice, reply, after, hbefore, hcall, hreply, hafter⟩ :=
      perform_cases hperform
    cases hreply
    exact ⟨before, choice, a, after, hbefore, hcall, others_star hafter hrest⟩
  · obtain ⟨_, _, _, _, -, -, hreply, -⟩ := perform_cases hperform
    cases hreply

/-- A check and what goes on with its value. -/
theorem lift_bind_cases {r : Except ε α} {f : α → Thread Op Reply ε β} {s last : σ}
    {result : Except ε β}
    (h : Runs P env i ((Thread.lift r : Thread Op Reply ε α) >>= f) s result last) :
    (∃ a, r = .ok a ∧ Runs P env i (f a) s result last)
    ∨ ∃ e, r = .error e ∧ result = .error e ∧ Relation.ReflTransGen env s last := by
  cases r with
  | ok a => exact .inl ⟨a, rfl, h⟩
  | error e =>
    obtain ⟨hresult, hrest⟩ := done_cases h
    exact .inr ⟨e, rfl, hresult, hrest⟩

/-- Going on with an outcome. -/
theorem attempt_bind_cases {x : Thread Op Reply ε α} {f : Except ε α → Thread Op Reply ε β}
    {s last : σ} {result : Except ε β} (h : Runs P env i (x.attempt >>= f) s result last) :
    ∃ outcome mid, Runs P env i x s outcome mid ∧ Runs P env i (f outcome) mid result last := by
  rcases bind_cases h with ⟨outcome, mid, hx, hrest⟩ | ⟨e, mid, -, hx, -⟩
  · obtain ⟨outcome', mid', hx, hdone⟩ := andThen_cases hx
    obtain ⟨heq, hafter⟩ := done_cases hdone
    cases heq
    exact ⟨outcome, mid', hx, others_star hafter hrest⟩
  · obtain ⟨outcome', mid', hx, hdone⟩ := andThen_cases hx
    obtain ⟨heq, -⟩ := done_cases hdone
    cases heq

/-- An error of a run is one the thread may end with. -/
theorem failsWith {bad : ε → Prop} {x : Thread Op Reply ε α} {s last : σ} {e : ε}
    (hx : x.FailsWith bad) (h : Runs P env i x s (.error e) last) : bad e := by
  generalize hresult : (Except.error e : Except ε α) = result at h
  induction h with
  | done result s =>
    subst hresult
    exact hx
  | others _ _ ih => exact ih hx hresult
  | call _ _ ih => exact ih (hx _) hresult

/-- **What every allowed call and the others keep, a run of allowed calls keeps.** -/
theorem only {allowed : Op → Prop} {R : σ → σ → Prop} (hrefl : ∀ s, R s s)
    (htrans : ∀ a b c, R a b → R b c → R a c) (henv : ∀ s s', env s s' → R s s')
    (hcall : ∀ op s choice reply s', allowed op → P.perform i choice op s = some (reply, s') →
      R s s')
    {x : Thread Op Reply ε α} {s last : σ} {result : Except ε α} (hx : x.Only allowed)
    (h : Runs P env i x s result last) : R s last := by
  induction h with
  | done result s => exact hrefl s
  | others hstep _ ih => exact htrans _ _ _ (henv _ _ hstep) (ih hx)
  | call hperform _ ih =>
    exact htrans _ _ _ (hcall _ _ _ _ _ hx.1 hperform) (ih (hx.2 _))

/-- What every allowed call and the others keep, a run that ends in a marked error keeps. -/
theorem careful {allowed : Op → Prop} {marked : ε → Prop} {R : σ → σ → Prop}
    (hrefl : ∀ s, R s s) (htrans : ∀ a b c, R a b → R b c → R a c)
    (henv : ∀ s s', env s s' → R s s')
    (hcall : ∀ op s choice reply s', allowed op → P.perform i choice op s = some (reply, s') →
      R s s')
    {x : Thread Op Reply ε α} {s last : σ} {e : ε} (hx : x.Careful allowed marked)
    (h : Runs P env i x s (.error e) last) (he : marked e) : R s last := by
  generalize hresult : (Except.error e : Except ε α) = result at h
  induction h with
  | done result s => exact hrefl s
  | others hstep _ ih => exact htrans _ _ _ (henv _ _ hstep) (ih hx hresult)
  | call hperform hrest ih =>
    subst hresult
    cases hx with
    | unmarked hx =>
      have hno := hrest.failsWith (hx _)
      exact absurd he hno
    | call hop hx => exact htrans _ _ _ (hcall _ _ _ _ _ hop hperform) (ih (hx _) rfl)

end Runs

/-! ## Following a run -/

/-- A thread followed through its next calls, with the outcome of each. -/
def Thread.play (P : Platform ι Op Reply χ σ) (i : ι) :
    List χ → Thread Op Reply ε α × σ → Option (Thread Op Reply ε α × σ)
  | [], p => some p
  | choice :: choices, (.call op next, s) =>
    match P.perform i choice op s with
    | some (reply, s') => play P i choices (next reply, s')
    | none => none
  | _ :: _, (.done _, _) => none

/-- The result of a thread that has ended. -/
def Thread.result? : Thread Op Reply ε α → Option (Except ε α)
  | done result => some result
  | call _ _ => none

theorem Runs.of_result {P : Platform ι Op Reply χ σ} {env : σ → σ → Prop} {i : ι}
    {x : Thread Op Reply ε α} {result : Except ε α} (s : σ) (h : x.result? = some result) :
    Runs P env i x s result s := by
  cases x with
  | done result' =>
    cases h
    exact .done result s
  | call op next => cases h

theorem Runs.of_play {P : Platform ι Op Reply χ σ} {env : σ → σ → Prop} {i : ι} {choices : List χ}
    {x x' : Thread Op Reply ε α} {s s' last : σ} {result : Except ε α}
    (h : Thread.play P i choices (x, s) = some (x', s')) (hrest : Runs P env i x' s' result last) :
    Runs P env i x s result last := by
  induction choices generalizing x s with
  | nil =>
    cases h
    exact hrest
  | cons choice choices ih =>
    cases x with
    | done result' => cases h
    | call op next =>
      simp only [Thread.play] at h
      split at h
      · rename_i reply after hperform
        exact .call hperform (ih h)
      · cases h

/-! ## Beside a pool -/

section

variable [DecidableEq ι]

/-- A thread outside the pool, whose calls have this outcome: before each of them, the pool
makes the next list of moves. -/
def Thread.among (P : Platform ι Op Reply χ σ) (i : ι) (choice : χ) :
    Thread Op Reply ε α → List (List (Move ι χ)) → Pool ι Op Reply ε β σ →
      Option (Except ε α × Pool ι Op Reply ε β σ)
  | .done result, _, pool => some (result, pool)
  | .call _ _, [], _ => none
  | .call op next, moves :: rest, pool =>
    (pool.run P moves).bind fun mid =>
      (P.perform i choice op mid.state).bind fun answer =>
        (next answer.1).among P i choice rest { mid with state := answer.2 }

variable {P : Platform ι Op Reply χ σ} {i : ι} {choice : χ} {pool mid : Pool ι Op Reply ε β σ}

/-- A call that changes nothing, after the moves that come before it. -/
theorem Thread.among_call {op : Op} {next : Reply op → Thread Op Reply ε α}
    {moves : List (Move ι χ)} {rest : List (List (Move ι χ))} {reply : Reply op}
    (hrun : pool.run P moves = some mid)
    (hperform : P.perform i choice op mid.state = some (reply, mid.state)) :
    (Thread.call op next).among P i choice (moves :: rest) pool
      = (next reply).among P i choice rest mid := by
  rw [Thread.among, hrun, Option.bind_some, hperform, Option.bind_some]

end

/-! ## Adversaries -/

/-- Everything the platform and the others decide about the calls of thread `i`, from the
state and a memory of its own. -/
structure Adversary (τ : Type) where
  answer : (op : Op) → σ × τ → Reply op × (σ × τ)
  /-- The others move, then the call has this outcome. -/
  legal : ∀ op s, ∃ mid choice, Relation.ReflTransGen env s.1 mid
    ∧ P.perform i choice op mid = some ((answer op s).1, (answer op s).2.1)

variable {P env i}

/-- The adversary under which nobody else moves and every call has the outcome this names,
which must be one the call can have. -/
def Adversary.steady (outcome : Op → σ → χ)
    (h : ∀ op s, (P.perform i (outcome op s) op s).isSome) : Adversary P env i Unit where
  answer op s :=
    let (reply, after) := (P.perform i (outcome op s.1) op s.1).get (h op s.1)
    (reply, (after, ()))
  legal op s := ⟨s.1, outcome op s.1, .refl, (Option.some_get _).symm⟩

/-- A thread as an action, with an adversary to settle every call. -/
def Thread.against (A : Adversary P env i τ) : Thread Op Reply ε α → Action ε (σ × τ) α
  | .done result => fun s => (result, s)
  | .call op next => fun s => (next (A.answer op s).1).against A (A.answer op s).2

/-- **An action against an adversary is a run.** -/
theorem Runs.against (A : Adversary P env i τ) (x : Thread Op Reply ε α) (s : σ × τ) :
    Runs P env i x s.1 (x.against A s).1 (x.against A s).2.1 := by
  induction x generalizing s with
  | done result => exact .done result s.1
  | call op next ih =>
    obtain ⟨mid, choice, henv, hperform⟩ := A.legal op s
    exact others_star henv (.call hperform (ih _ _))

/-- A thread of allowed calls, as an action, keeps what those calls and the others keep. -/
theorem Thread.Only.keeps {allowed : Op → Prop} {R : σ → σ → Prop} (A : Adversary P env i τ)
    (hrefl : ∀ s, R s s) (htrans : ∀ a b c, R a b → R b c → R a c)
    (henv : ∀ s s', env s s' → R s s')
    (hcall : ∀ op s choice reply s', allowed op → P.perform i choice op s = some (reply, s') →
      R s s')
    {x : Thread Op Reply ε α} (hx : x.Only allowed) (s : σ × τ) :
    R s.1 ((x.against A s).2).1 := Runs.only hrefl htrans henv hcall hx (.against A x s)

end Effect

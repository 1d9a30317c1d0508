import Mathlib.Data.List.Basic

/-!
# A compare-and-swap register

A register holds one value. A call compares it with what the call expects and, where
they agree, puts the call's own value in its place; a call that finds another value
does nothing. `replay` runs calls one after another and stops at the first that does not
find what it expects, so that a history it accepts is one in which every call changed
the register.
-/

namespace Register

variable {ι V : Type} (accepts : ι → V → Prop) [∀ i v, Decidable (accepts i v)]
  (install : ι → V)

def replay : List ι → V → Option V
  | [], value => some value
  | i :: calls, value => if accepts i value then replay calls (install i) else none

variable {accepts install}

theorem replay_append {before after : List ι} {value : V} :
    replay accepts install (before ++ after) value
      = (replay accepts install before value).bind (replay accepts install after) := by
  induction before generalizing value with
  | nil => rfl
  | cons i before ih =>
    simp only [List.cons_append, replay]
    split
    · exact ih
    · rfl

/-- One more call, at the end. -/
theorem replay_concat {calls : List ι} {i : ι} {value found : V}
    (h : replay accepts install calls value = some found) (haccepts : accepts i found) :
    replay accepts install (calls ++ [i]) value = some (install i) := by
  rw [replay_append, h]
  show (if accepts i found then some (install i) else none) = _
  rw [if_pos haccepts]

/-- What a history of calls leaves is what its last call put there. -/
theorem replay_last {calls : List ι} {i : ι} {value found : V}
    (h : replay accepts install (i :: calls) value = some found) :
    ∃ k ∈ i :: calls, found = install k := by
  induction calls generalizing i value with
  | nil =>
    simp only [replay] at h
    split at h
    · cases h
      exact ⟨i, List.mem_singleton_self i, rfl⟩
    · cases h
  | cons j calls ih =>
    rw [replay] at h
    split at h
    · obtain ⟨k, hk, hfound⟩ := ih h
      exact ⟨k, List.mem_cons_of_mem _ hk, hfound⟩
    · cases h

/-- **Two calls that expect the same value** cannot both change the register, unless
that value was put back in between. -/
theorem replay_restored {before between after : List ι} {i j : ι} {value last wanted : V}
    (h : replay accepts install (before ++ i :: between ++ j :: after) value = some last)
    (hj : ∀ v, accepts j v → v = wanted) :
    ∃ k ∈ i :: between, install k = wanted := by
  rw [List.append_assoc, replay_append] at h
  obtain ⟨u, -, h⟩ := Option.bind_eq_some_iff.mp h
  rw [replay_append] at h
  obtain ⟨w, hw, h⟩ := Option.bind_eq_some_iff.mp h
  obtain ⟨k, hk, rfl⟩ := replay_last hw
  refine ⟨k, hk, ?_⟩
  rw [replay] at h
  split at h
  · rename_i haccepts
    exact hj _ haccepts
  · cases h

end Register

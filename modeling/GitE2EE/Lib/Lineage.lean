import Mathlib.Algebra.Order.Ring.Nat
import Mathlib.Data.List.Basic

/-!
# Lines of ancestors

A store in which every item names at most one parent, like a hash-linked log. The
line of an item is the list from it down to a root. When each item names its
parent once (`Functional`), an item has one line, and a line that meets another one
agrees with it from there on.
-/

namespace Lineage

variable {α : Type} {R R' : α → Option α → Prop}

/-- A line of ancestors, from an item down to a root. `R a p` reads: `a` names the
parent `p`, or no parent. -/
inductive Line (R : α → Option α → Prop) : List α → Prop where
  | root {a : α} : R a none → Line R [a]
  | step {a b : α} {l : List α} : R a (some b) → Line R (b :: l) → Line R (a :: b :: l)

/-- No item names two parents. -/
def Functional (R : α → Option α → Prop) : Prop := ∀ a x y, R a x → R a y → x = y

namespace Line

theorem mono (hR : ∀ a x, R a x → R' a x) {l : List α} (h : Line R l) : Line R' l := by
  induction h with
  | root h => exact .root (hR _ _ h)
  | step h _ ih => exact .step (hR _ _ h) ih

theorem tail {a b : α} {l : List α} (h : Line R (a :: b :: l)) : Line R (b :: l) := by
  cases h with
  | step _ h => exact h

theorem suffix {front : List α} {a : α} {back : List α} (h : Line R (front ++ a :: back)) :
    Line R (a :: back) := by
  induction front with
  | nil => exact h
  | cons x front ih =>
    cases hfront : front ++ a :: back with
    | nil => simp at hfront
    | cons y rest =>
      rw [List.cons_append, hfront] at h
      rw [hfront] at ih
      exact ih h.tail

/-- An item has one line. -/
theorem tail_unique (hR : Functional R) {a : α} {l l' : List α} (h : Line R (a :: l))
    (h' : Line R (a :: l')) : l = l' := by
  induction l generalizing a l' with
  | nil =>
    cases h with
    | root h =>
      cases h' with
      | root _ => rfl
      | step h' _ => cases hR _ _ _ h h'
  | cons b l ih =>
    cases h with
    | step h hl =>
      cases h' with
      | root h' => cases hR _ _ _ h h'
      | step h' hl' =>
        cases hR _ _ _ h h'
        rw [ih hl hl']

/-- A line through an item continues with that item's line. -/
theorem eq_append (hR : Functional R) {l : List α} {a : α} {l' : List α} (h : Line R l)
    (h' : Line R (a :: l')) (ha : a ∈ l) : ∃ front, l = front ++ a :: l' := by
  obtain ⟨front, back, rfl⟩ := List.append_of_mem ha
  exact ⟨front, by rw [h.suffix.tail_unique hR h']⟩

end Line

end Lineage

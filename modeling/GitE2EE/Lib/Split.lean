import Mathlib.Data.List.Chain
import Mathlib.Data.List.Count

/-!
# Lists split at a separator

What a property of every part of a split list says about the list itself: of its
elements, of its adjacent pairs, and of the number of parts. And the split in two at the
last separator.
-/

namespace Split

variable {α : Type} {a : α}

/-- Two given elements are nowhere next to each other. -/
theorem not_pair_infix_iff {x y : α} (l : List α) :
    ¬ [x, y] <:+: l ↔ l.IsChain fun u v => ¬ (u = x ∧ v = y) := by
  rw [List.isChain_iff_forall_rel_of_append_cons_cons]
  constructor
  · rintro h u v before after rfl ⟨rfl, rfl⟩
    exact h ⟨before, after, by simp⟩
  · rintro h ⟨before, after, rfl⟩
    exact @h x y before after (by simp) ⟨rfl, rfl⟩

/-- No part of a list holds what it was split at. -/
theorem not_of_mem_splitOnP {p : α → Bool} {l part : List α} {x : α} (h : part ∈ l.splitOnP p)
    (hx : x ∈ part) : p x = false := by
  induction l generalizing part with
  | nil =>
    rw [List.splitOnP_nil, List.mem_singleton] at h
    subst h
    cases hx
  | cons y l ih =>
    rw [List.splitOnP_cons_eq_if_modifyHead] at h
    split at h
    · rcases List.mem_cons.mp h with rfl | h
      · cases hx
      · exact ih h hx
    · rename_i hy
      obtain ⟨first, others, hsplit⟩ := List.exists_cons_of_ne_nil (List.splitOnP_ne_nil p l)
      rw [hsplit, List.modifyHead_cons] at h
      rcases List.mem_cons.mp h with rfl | h
      · rcases List.mem_cons.mp hx with rfl | hx
        · exact Bool.eq_false_iff.mpr hy
        · exact ih (by rw [hsplit]; exact List.mem_cons_self ..) hx
      · exact ih (by rw [hsplit]; exact List.mem_cons_of_mem _ h) hx

/-- What is in lists joined by a separator is in one of them or in the separator. -/
theorem mem_of_mem_intercalate {separator : List α} {parts : List (List α)} {x : α}
    (h : x ∈ separator.intercalate parts) : x ∈ separator ∨ ∃ part ∈ parts, x ∈ part := by
  induction parts with
  | nil => cases h
  | cons part rest ih =>
    cases rest with
    | nil =>
      rw [List.intercalate_singleton] at h
      exact .inr ⟨part, List.mem_singleton_self part, h⟩
    | cons second rest =>
      rw [List.intercalate_cons_cons, List.mem_append, List.mem_append] at h
      rcases h with (h | h) | h
      · exact .inr ⟨part, List.mem_cons_self .., h⟩
      · exact .inl h
      · rcases ih h with h | ⟨other, hother, h⟩
        · exact .inl h
        · exact .inr ⟨other, List.mem_cons_of_mem _ hother, h⟩

/-! ## Words -/

/-- The parts between separators that are not empty. -/
def words (p : α → Bool) (l : List α) : List (List α) :=
  (l.splitOnP p).filter fun part => !part.isEmpty

@[simp] theorem words_nil (p : α → Bool) : words p [] = [] := rfl

/-- A word, what ends it, and the rest. -/
theorem words_append {p : α → Bool} {word : List α} {separator : α}
    (hword : ∀ x ∈ word, p x = false) (hne : word ≠ []) (hseparator : p separator = true)
    (rest : List α) : words p (word ++ separator :: rest) = word :: words p rest := by
  rw [words, List.splitOnP_append_cons_of_forall_mem hword separator hseparator,
    List.filter_cons_of_pos (by simpa using hne), words]

/-- A word with nothing behind it. -/
theorem words_singleton {p : α → Bool} {word : List α} (hword : ∀ x ∈ word, p x = false)
    (hne : word ≠ []) : words p word = [word] := by
  rw [words, List.splitOnP_eq_singleton hword, List.filter_cons_of_pos (by simpa using hne),
    List.filter_nil]

variable [DecidableEq α]

/-- The parts of a list, as a first part and the others: what an induction on the list
goes by. -/
theorem splitOn_first (a : α) (l : List α) : ∃ first others, l.splitOn a = first :: others :=
  List.exists_cons_of_ne_nil (List.splitOn_ne_nil a l)

theorem splitOn_cons_self (l : List α) : (a :: l).splitOn a = [] :: l.splitOn a := by
  rw [List.splitOn_cons_eq_if_modifyHead, if_pos (beq_self_eq_true a)]

theorem splitOn_cons_of_ne {x : α} {l first : List α} {others : List (List α)} (hx : x ≠ a)
    (h : l.splitOn a = first :: others) : (x :: l).splitOn a = (x :: first) :: others := by
  rw [List.splitOn_cons_eq_if_modifyHead, if_neg (by simpa using hx), h]
  rfl

/-- The elements of the parts are the elements of the list, the separators apart. -/
theorem forall_mem_splitOn {P : α → Prop} (l : List α) :
    (∀ part ∈ l.splitOn a, ∀ x ∈ part, P x) ↔ ∀ x ∈ l, x ≠ a → P x := by
  induction l with
  | nil => simp
  | cons x l ih =>
    by_cases hx : x = a
    · subst hx
      rw [splitOn_cons_self]
      simp [ih]
    · obtain ⟨first, others, h⟩ := splitOn_first a l
      rw [splitOn_cons_of_ne hx h]
      rw [h] at ih
      simp only [List.forall_mem_cons] at ih ⊢
      rw [and_assoc, ih]
      exact and_congr_left fun _ => ⟨fun h _ => h, fun h => h hx⟩

/-- A separator in the middle splits a list into the parts of its two sides. -/
theorem splitOn_append_cons (l r : List α) :
    (l ++ a :: r).splitOn a = l.splitOn a ++ r.splitOn a := by
  induction l with
  | nil => rw [List.nil_append, splitOn_cons_self, List.splitOn_nil, List.singleton_append]
  | cons x l ih =>
    by_cases hx : x = a
    · subst hx
      rw [List.cons_append, splitOn_cons_self, splitOn_cons_self, ih, List.cons_append]
    · obtain ⟨first, others, h⟩ := splitOn_first a l
      rw [h, List.cons_append] at ih
      rw [List.cons_append, splitOn_cons_of_ne hx ih, splitOn_cons_of_ne hx h, List.cons_append]

/-- There is one part more than there are separators. -/
theorem length_splitOn (l : List α) : (l.splitOn a).length = l.count a + 1 := by
  induction l with
  | nil => simp
  | cons x l ih =>
    by_cases hx : x = a
    · subst hx
      rw [splitOn_cons_self, List.length_cons, ih, List.count_cons_self]
    · obtain ⟨first, others, h⟩ := splitOn_first a l
      rw [splitOn_cons_of_ne hx h, List.count_cons_of_ne hx, ← ih, h]
      rfl

/-- The first part begins as the list does, unless the list begins with a separator. -/
theorem head?_first {R : α → Prop} (ha : R a) {l first : List α} {others : List (List α)}
    (h : l.splitOn a = first :: others) :
    (∀ x ∈ l.head?, R x) ↔ ∀ x ∈ first.head?, R x := by
  cases l with
  | nil =>
    rw [List.splitOn_nil] at h
    cases h
    rfl
  | cons y l =>
    by_cases hy : y = a
    · subst hy
      rw [splitOn_cons_self] at h
      cases h
      simp [ha]
    · obtain ⟨first', others', h'⟩ := splitOn_first a l
      rw [splitOn_cons_of_ne hy h'] at h
      cases h
      rfl

/-- A relation between neighbours that a separator satisfies with everything holds along
the list if and only if it holds along every part. -/
theorem isChain_iff_splitOn {R : α → α → Prop} (hleft : ∀ x, R a x) (hright : ∀ x, R x a)
    (l : List α) : l.IsChain R ↔ ∀ part ∈ l.splitOn a, part.IsChain R := by
  induction l with
  | nil => simp
  | cons x l ih =>
    obtain ⟨first, others, h⟩ := splitOn_first a l
    rw [List.isChain_cons, ih]
    by_cases hx : x = a
    · subst hx
      rw [splitOn_cons_self, List.forall_mem_cons]
      exact and_congr_left fun _ => ⟨fun _ => .nil, fun _ y _ => hleft y⟩
    · rw [splitOn_cons_of_ne hx h, h, head?_first (hright x) h]
      rw [List.forall_mem_cons, List.forall_mem_cons, List.isChain_cons, and_assoc]

/-! ## The first separator -/

/-- The list before and behind the first `a`. -/
def splitOnce (a : α) : List α → Option (List α × List α)
  | [] => none
  | x :: rest =>
    if x = a then some ([], rest)
    else (splitOnce a rest).map fun parts => (x :: parts.1, parts.2)

theorem splitOnce_append {left : List α} (h : a ∉ left) (right : List α) :
    splitOnce a (left ++ a :: right) = some (left, right) := by
  induction left with
  | nil => exact if_pos rfl
  | cons x left ih =>
    rw [List.mem_cons, not_or] at h
    rw [List.cons_append, splitOnce, if_neg (Ne.symm h.1), ih h.2]
    rfl

theorem eq_of_splitOnce {l left right : List α} (h : splitOnce a l = some (left, right)) :
    l = left ++ a :: right := by
  induction l generalizing left with
  | nil => cases h
  | cons x rest ih =>
    rw [splitOnce] at h
    split at h
    · rename_i hx
      cases h
      rw [hx]
      rfl
    · obtain ⟨parts, hparts, hsplit⟩ := Option.map_eq_some_iff.mp h
      cases hsplit
      rw [ih hparts]
      rfl

/-! ## The last separator -/

/-- The list before and behind the last `a`. -/
def rsplitOnce (a : α) : List α → Option (List α × List α)
  | [] => none
  | x :: rest =>
    match rsplitOnce a rest with
    | some (left, right) => some (x :: left, right)
    | none => if x = a then some ([], rest) else none

theorem rsplitOnce_eq_none {l : List α} : rsplitOnce a l = none ↔ a ∉ l := by
  induction l with
  | nil => simp [rsplitOnce]
  | cons x rest ih =>
    rw [rsplitOnce, List.mem_cons, not_or, ← ih]
    cases rsplitOnce a rest with
    | some split => simp
    | none => simp [eq_comm]

theorem rsplitOnce_eq_some {l left right : List α} :
    rsplitOnce a l = some (left, right) ↔ l = left ++ a :: right ∧ a ∉ right := by
  induction l generalizing left right with
  | nil => simp [rsplitOnce]
  | cons x rest ih =>
    rw [rsplitOnce]
    cases h : rsplitOnce a rest with
    | some split =>
      obtain ⟨left', right'⟩ := split
      obtain ⟨hrest, hnot⟩ := ih.mp h
      constructor
      · intro heq
        cases heq
        exact ⟨by rw [hrest]; rfl, hnot⟩
      · intro ⟨heq, hnot'⟩
        cases left with
        | nil =>
          -- the separator in front is not the last one
          rw [List.nil_append, List.cons_eq_cons] at heq
          rw [← heq.2, hrest] at hnot'
          exact absurd (List.mem_append_right _ List.mem_cons_self) hnot'
        | cons y left =>
          obtain ⟨rfl, htail⟩ := List.cons_eq_cons.mp heq
          cases h.symm.trans (ih.mpr ⟨htail, hnot'⟩)
          rfl
    | none =>
      have hnot := rsplitOnce_eq_none.mp h
      constructor
      · intro heq
        dsimp only at heq
        by_cases hx : x = a
        · rw [if_pos hx] at heq
          cases heq
          exact ⟨by rw [hx]; rfl, hnot⟩
        · rw [if_neg hx] at heq
          cases heq
      · intro ⟨heq, _⟩
        cases left with
        | nil =>
          obtain ⟨rfl, rfl⟩ := List.cons_eq_cons.mp heq
          rw [if_pos rfl]
        | cons y left =>
          obtain ⟨-, htail⟩ := List.cons_eq_cons.mp heq
          rw [htail] at hnot
          exact absurd (List.mem_append_right _ List.mem_cons_self) hnot

end Split

import GitE2EE.Lib.Wire

/-!
# Ordered maps

A map is the list of its entries in strictly increasing key order. The order is
part of the value, so two maps with the same bindings are the same value, and
comparing maps is comparing lists.
-/

namespace Wire

/-- A strict total order on keys that can be evaluated. -/
class KeyOrder (κ : Type) where
  lt : κ → κ → Bool
  irrefl : ∀ a, lt a a = false
  trans : ∀ {a b c}, lt a b = true → lt b c = true → lt a c = true
  connex : ∀ {a b}, lt a b = false → lt b a = false → a = b

/-! ## Byte strings in dictionary order -/

theorem lexLe_refl (a : Bytes) : lexLe a a = true := by
  induction a with
  | nil => rfl
  | cons x a ih => simp [lexLe, ih]

theorem lexLe_total (a b : Bytes) : lexLe a b = true ∨ lexLe b a = true := by
  induction a generalizing b with
  | nil => exact Or.inl rfl
  | cons x a ih =>
    cases b with
    | nil => exact Or.inr rfl
    | cons y b =>
      simp only [lexLe, Bool.or_eq_true, Bool.and_eq_true, decide_eq_true_eq, beq_iff_eq]
      rcases Nat.lt_trichotomy x.toNat y.toNat with h | h | h
      · exact Or.inl (Or.inl h)
      · rcases ih b with h' | h'
        · exact Or.inl (Or.inr ⟨h, h'⟩)
        · exact Or.inr (Or.inr ⟨h.symm, h'⟩)
      · exact Or.inr (Or.inl h)

theorem lexLe_antisymm {a b : Bytes} (hab : lexLe a b = true) (hba : lexLe b a = true) : a = b := by
  induction a generalizing b with
  | nil => cases b with
    | nil => rfl
    | cons y b => cases hba
  | cons x a ih =>
    cases b with
    | nil => cases hab
    | cons y b =>
      simp only [lexLe, Bool.or_eq_true, Bool.and_eq_true, decide_eq_true_eq, beq_iff_eq] at hab hba
      have hxy : x.toNat = y.toNat := by omega
      have hab' : lexLe a b = true := hab.resolve_left (by omega) |>.2
      have hba' : lexLe b a = true := hba.resolve_left (by omega) |>.2
      rw [UInt8.toNat_inj.mp hxy, ih hab' hba']

theorem lexLe_trans {a b c : Bytes} (hab : lexLe a b = true) (hbc : lexLe b c = true) :
    lexLe a c = true := by
  induction a generalizing b c with
  | nil => rfl
  | cons x a ih =>
    cases b with
    | nil => cases hab
    | cons y b =>
      cases c with
      | nil => cases hbc
      | cons z c =>
        simp only [lexLe, Bool.or_eq_true, Bool.and_eq_true, decide_eq_true_eq, beq_iff_eq]
          at hab hbc ⊢
        rcases hab with h | ⟨h, ha⟩
        · exact Or.inl (by omega)
        · rcases hbc with h' | ⟨h', hb⟩
          · exact Or.inl (by omega)
          · exact Or.inr ⟨by omega, ih ha hb⟩

/-- `a` comes strictly before `b`. -/
def lexLt (a b : Bytes) : Bool := !lexLe b a

instance : KeyOrder Bytes where
  lt := lexLt
  irrefl a := by simp [lexLt, lexLe_refl]
  trans := by
    intro a b c hab hbc
    simp only [lexLt, Bool.not_eq_true'] at *
    cases hca : lexLe c a with
    | false => rfl
    | true =>
      have hab' : lexLe a b = true := by
        rcases lexLe_total a b with h | h
        · exact h
        · rw [h] at hab; cases hab
      rw [lexLe_trans hca hab'] at hbc; cases hbc
  connex := by
    intro a b hab hba
    simp only [lexLt, Bool.not_eq_false'] at hab hba
    exact lexLe_antisymm hba hab

/-! ## Maps -/

/-- Entries in strictly increasing key order. -/
structure SortedMap (κ β : Type) [KeyOrder κ] where
  entries : List (κ × β)
  sorted : entries.Pairwise fun a b => KeyOrder.lt a.1 b.1 = true

namespace SortedMap

variable {κ β : Type} [KeyOrder κ]

theorem ext_entries {m n : SortedMap κ β} (h : m.entries = n.entries) : m = n := by
  cases m; cases n; cases h; rfl

variable [DecidableEq κ]

instance [DecidableEq β] : DecidableEq (SortedMap κ β) := fun m n =>
  decidable_of_iff (m.entries = n.entries) ⟨ext_entries, fun h => h ▸ rfl⟩

def empty : SortedMap κ β := ⟨[], List.Pairwise.nil⟩

def isEmpty (m : SortedMap κ β) : Bool := m.entries.isEmpty

omit [DecidableEq κ] in
theorem eq_empty_of_isEmpty {m : SortedMap κ β} (h : m.isEmpty = true) : m = empty :=
  ext_entries (List.isEmpty_iff.mp h)

/-- The value bound to `key`. -/
def get? (m : SortedMap κ β) (key : κ) : Option β :=
  (m.entries.find? fun e => e.1 = key).map Prod.snd

/-- `key` bound to `value` among sorted entries, replacing what it was bound to. -/
def insertEntry (key : κ) (value : β) : List (κ × β) → List (κ × β)
  | [] => [(key, value)]
  | e :: rest =>
    if KeyOrder.lt key e.1 then (key, value) :: e :: rest
    else if key = e.1 then (key, value) :: rest
    else e :: insertEntry key value rest

theorem mem_insertEntry {key : κ} {value : β} {l : List (κ × β)} {e : κ × β}
    (h : e ∈ insertEntry key value l) : e = (key, value) ∨ e ∈ l := by
  induction l with
  | nil => simpa [insertEntry] using h
  | cons x l ih =>
    simp only [insertEntry] at h
    split at h
    · simpa using h
    · split at h
      · rcases List.mem_cons.mp h with h | h
        · exact Or.inl h
        · exact Or.inr (List.mem_cons_of_mem _ h)
      · rcases List.mem_cons.mp h with h | h
        · exact Or.inr (h ▸ List.mem_cons_self)
        · rcases ih h with h | h
          · exact Or.inl h
          · exact Or.inr (List.mem_cons_of_mem _ h)

theorem sorted_insertEntry {key : κ} {value : β} {l : List (κ × β)}
    (h : l.Pairwise fun a b => KeyOrder.lt a.1 b.1 = true) :
    (insertEntry key value l).Pairwise fun a b => KeyOrder.lt a.1 b.1 = true := by
  induction l with
  | nil => simp [insertEntry]
  | cons x l ih =>
    obtain ⟨hx, hl⟩ := List.pairwise_cons.mp h
    simp only [insertEntry]
    split
    · rename_i hlt
      refine List.pairwise_cons.mpr ⟨?_, h⟩
      intro e he
      rcases List.mem_cons.mp he with rfl | he
      · exact hlt
      · exact KeyOrder.trans hlt (hx e he)
    · rename_i hlt
      split
      · rename_i heq
        exact List.pairwise_cons.mpr ⟨fun e he => heq ▸ hx e he, hl⟩
      · rename_i hne
        -- not before and not equal, so after
        have hgt : KeyOrder.lt x.1 key = true := by
          cases hxk : KeyOrder.lt x.1 key with
          | true => rfl
          | false => exact absurd (KeyOrder.connex (by simpa using hlt) hxk) hne
        refine List.pairwise_cons.mpr ⟨?_, ih hl⟩
        intro e he
        rcases mem_insertEntry he with rfl | he
        · exact hgt
        · exact hx e he

def insert (m : SortedMap κ β) (key : κ) (value : β) : SortedMap κ β :=
  ⟨insertEntry key value m.entries, sorted_insertEntry m.sorted⟩

def erase (m : SortedMap κ β) (key : κ) : SortedMap κ β :=
  ⟨m.entries.filter fun e => e.1 ≠ key, m.sorted.filter _⟩

/-- Entries bound in order, a later binding of a key replacing an earlier one. -/
def ofList (l : List (κ × β)) : SortedMap κ β :=
  l.foldl (fun m e => m.insert e.1 e.2) empty

/-- Inserting behind every key appends. -/
theorem insertEntry_of_lt {key : κ} {value : β} {l : List (κ × β)}
    (h : ∀ e ∈ l, KeyOrder.lt e.1 key = true) : insertEntry key value l = l ++ [(key, value)] := by
  induction l with
  | nil => rfl
  | cons e l ih =>
    have he := h e List.mem_cons_self
    have hne : key ≠ e.1 := by
      rintro rfl
      rw [KeyOrder.irrefl] at he
      cases he
    have hnot : ¬ KeyOrder.lt key e.1 = true := by
      intro hlt
      have := KeyOrder.trans hlt he
      rw [KeyOrder.irrefl] at this
      cases this
    rw [insertEntry, if_neg hnot, if_neg hne, ih fun x hx => h x (List.mem_cons_of_mem _ hx)]
    rfl

/-- The entries of a map, bound in order, are the map. -/
theorem ofList_entries (m : SortedMap κ β) : ofList m.entries = m := by
  have general : ∀ (l : List (κ × β)) (n : SortedMap κ β),
      (n.entries ++ l).Pairwise (fun a b => KeyOrder.lt a.1 b.1 = true) →
      (l.foldl (fun m e => m.insert e.1 e.2) n).entries = n.entries ++ l := by
    intro l
    induction l with
    | nil => intro n _; simp
    | cons e l ih =>
      intro n hn
      have hlt : ∀ x ∈ n.entries, KeyOrder.lt x.1 e.1 = true := fun x hx =>
        (List.pairwise_append.mp hn).2.2 x hx e List.mem_cons_self
      have hins : (n.insert e.1 e.2).entries = n.entries ++ [e] := insertEntry_of_lt hlt
      rw [List.foldl_cons, ih (n.insert e.1 e.2) (by rw [hins]; simpa using hn), hins]
      simp
  exact ext_entries (general m.entries empty m.sorted)

/-! ## What a map binds -/

@[simp] theorem get?_empty (key : κ) : (empty : SortedMap κ β).get? key = none := rfl

theorem get?_insert (m : SortedMap κ β) (key other : κ) (value : β) :
    (m.insert key value).get? other = if other = key then some value else m.get? other := by
  have general : ∀ l : List (κ × β),
      ((insertEntry key value l).find? fun e => e.1 = other)
        = if other = key then some (key, value) else l.find? fun e => e.1 = other := by
    intro l
    induction l with
    | nil =>
      by_cases h : other = key
      · simp [insertEntry, h]
      · simp [insertEntry, h, Ne.symm h]
    | cons e l ih =>
      simp only [insertEntry]
      split
      · by_cases h : other = key
        · simp [h]
        · rw [List.find?_cons_of_neg (by simpa using Ne.symm h), if_neg h]
      · split
        · rename_i heq
          by_cases h : other = key
          · simp [h]
          · have he : ¬ e.1 = other := fun h' => h (h'.symm.trans heq.symm)
            rw [List.find?_cons_of_neg (by simpa using Ne.symm h), if_neg h,
              List.find?_cons_of_neg (by simpa using he)]
        · rename_i hne
          by_cases h : other = key
          · subst h
            rw [List.find?_cons_of_neg (by simpa using Ne.symm hne), ih, if_pos rfl, if_pos rfl]
          · rw [if_neg h] at ih ⊢
            simp only [List.find?_cons, ih]
  unfold get? insert
  rw [general]
  split <;> rfl

theorem get?_erase (m : SortedMap κ β) (key other : κ) :
    (m.erase key).get? other = if other = key then none else m.get? other := by
  have general : ∀ l : List (κ × β),
      ((l.filter fun e => e.1 ≠ key).find? fun e => e.1 = other)
        = if other = key then none else l.find? fun e => e.1 = other := by
    intro l
    induction l with
    | nil => simp
    | cons e l ih =>
      by_cases he : e.1 = key
      · rw [List.filter_cons_of_neg (by simpa using he), ih]
        by_cases h : other = key
        · rw [if_pos h, if_pos h]
        · have hne : ¬ e.1 = other := fun h' => h (h'.symm.trans he)
          rw [if_neg h, if_neg h, List.find?_cons_of_neg (by simpa using hne)]
      · rw [List.filter_cons_of_pos (by simpa using he)]
        by_cases h : other = key
        · rw [if_pos h] at ih ⊢
          rw [List.find?_cons_of_neg (by simpa [h] using he), ih]
        · rw [if_neg h] at ih ⊢
          simp only [List.find?_cons, ih]
  unfold get? erase
  rw [general]
  split <;> rfl

/-- The entries of a map are what it binds. -/
theorem mem_entries_iff (m : SortedMap κ β) {key : κ} {value : β} :
    (key, value) ∈ m.entries ↔ m.get? key = some value := by
  have general : ∀ l : List (κ × β), l.Pairwise (fun a b => KeyOrder.lt a.1 b.1 = true) →
      ((key, value) ∈ l ↔ (l.find? fun e => e.1 = key).map Prod.snd = some value) := by
    intro l hl
    induction l with
    | nil => simp
    | cons e l ih =>
      obtain ⟨he, hl⟩ := List.pairwise_cons.mp hl
      by_cases h : e.1 = key
      · rw [List.find?_cons_of_pos (by simpa using h), List.mem_cons]
        constructor
        · rintro (heq | hmem)
          · rw [← heq]
            rfl
          · -- a key occurs once
            have := he (key, value) hmem
            rw [h, KeyOrder.irrefl] at this
            cases this
        · intro heq
          left
          cases heq
          rw [← h]
      · rw [List.find?_cons_of_neg (by simpa using h), List.mem_cons, ← ih hl]
        constructor
        · rintro (heq | hmem)
          · exact absurd (congrArg Prod.fst heq).symm h
          · exact hmem
        · exact .inr
  exact general m.entries m.sorted

/-- What inserting a list of entries binds: the keys that are not among them stay. -/
theorem get?_foldl_insert_of_notMem {key : κ} {l : List (κ × β)} (m : SortedMap κ β)
    (h : ∀ value, (key, value) ∉ l) :
    (l.foldl (fun m e => m.insert e.1 e.2) m).get? key = m.get? key := by
  induction l generalizing m with
  | nil => rfl
  | cons e l ih =>
    have hne : key ≠ e.1 := by
      intro heq
      exact h e.2 (by rw [heq]; exact List.mem_cons_self)
    rw [List.foldl_cons, ih _ fun value hmem => h value (List.mem_cons_of_mem _ hmem),
      get?_insert, if_neg hne]

/-- A key that stands once among the entries is bound as it stands there. -/
theorem get?_foldl_insert {key : κ} {value : β} {l : List (κ × β)} (m : SortedMap κ β)
    (hmem : (key, value) ∈ l) (honce : ∀ other, (key, other) ∈ l → other = value) :
    (l.foldl (fun m e => m.insert e.1 e.2) m).get? key = some value := by
  induction l generalizing m with
  | nil => cases hmem
  | cons e l ih =>
    rw [List.foldl_cons]
    by_cases hrest : (key, value) ∈ l
    · exact ih _ hrest fun other hother => honce other (List.mem_cons_of_mem _ hother)
    · have he : (key, value) = e := by
        rcases List.mem_cons.mp hmem with he | hmem
        · exact he
        · exact absurd hmem hrest
      subst he
      rw [get?_foldl_insert_of_notMem, get?_insert, if_pos rfl]
      intro other hother
      have := honce other (List.mem_cons_of_mem _ hother)
      subst this
      exact hrest hother

/-- A map is what it binds. -/
theorem ext_get? {m n : SortedMap κ β} (h : ∀ key, m.get? key = n.get? key) : m = n := by
  have hnodup : ∀ p : SortedMap κ β, p.entries.Nodup := by
    intro p
    refine p.sorted.imp fun hab => ?_
    rintro rfl
    rw [KeyOrder.irrefl] at hab
    cases hab
  have hperm : m.entries.Perm n.entries := by
    refine (List.perm_ext_iff_of_nodup (hnodup m) (hnodup n)).mpr ?_
    rintro ⟨key, value⟩
    rw [mem_entries_iff, mem_entries_iff, h]
  refine ext_entries (hperm.eq_of_pairwise (fun a b _ _ hab hba => ?_) m.sorted n.sorted)
  have := KeyOrder.trans hab hba
  rw [KeyOrder.irrefl] at this
  cases this

end SortedMap

end Wire

import GitE2EE.Lib.Json
import GitE2EE.Lib.SortedMap

/-!
# Numbers with leading zeros

Numbers printed with a fixed number of digits have that length, are told apart, and come
in dictionary order as they come in numerical order.
-/

namespace Wire

/-- The last `width` decimal digits of `n`. -/
def padded : Nat → Nat → Text
  | 0, _ => []
  | width + 1, n => padded width (n / 10) ++ [UInt8.ofNat (48 + n % 10)]

theorem length_padded (width n : Nat) : (padded width n).length = width := by
  induction width generalizing n with
  | zero => rfl
  | succ width ih => rw [padded, List.length_append, ih]; rfl

theorem padded_zero (width : Nat) : padded width 0 = List.replicate width 48 := by
  induction width with
  | zero => rfl
  | succ width ih =>
    rw [padded, show 0 / 10 = 0 from rfl, ih, List.replicate_succ']
    rfl

theorem toNat_digit (n : Nat) : (UInt8.ofNat (48 + n % 10)).toNat = 48 + n % 10 := by
  have : n % 10 < 10 := Nat.mod_lt _ (by decide)
  rw [UInt8.toNat_ofNat']
  omega

theorem lexLe_append_left (first a b : Bytes) : lexLe (first ++ a) (first ++ b) = lexLe a b := by
  induction first with
  | nil => rfl
  | cons c first ih => simp [lexLe, ih]

/-- What comes first in equally long beginnings decides. -/
theorem lexLt_append {a b : Bytes} (hlength : a.length = b.length) (h : lexLt a b = true)
    (x y : Bytes) : lexLt (a ++ x) (b ++ y) = true := by
  induction a generalizing b with
  | nil =>
    rw [List.length_nil, eq_comm, List.length_eq_zero_iff] at hlength
    subst hlength
    cases h
  | cons c a ih =>
    cases b with
    | nil => cases hlength
    | cons d b =>
      simp only [lexLt, lexLe, List.cons_append, Bool.not_eq_true', Bool.or_eq_false_iff,
        Bool.and_eq_false_iff, decide_eq_false_iff_not, beq_eq_false_iff_ne] at h ⊢
      refine ⟨h.1, h.2.imp id fun hrest => ?_⟩
      have hlt : lexLt a b = true := by rw [lexLt, hrest]; rfl
      have hmore := ih (Nat.succ.inj hlength) hlt
      rw [lexLt, Bool.not_eq_true'] at hmore
      exact hmore

theorem lexLt_same (a : Bytes) {x y : Bytes} (h : lexLt x y = true) :
    lexLt (a ++ x) (a ++ y) = true := by
  induction a with
  | nil => exact h
  | cons c a ih =>
    rw [lexLt, Bool.not_eq_true'] at ih
    simp only [lexLt, lexLe, List.cons_append, ih, lt_irrefl, decide_false, Bool.and_false,
      Bool.or_false, Bool.not_false]

/-- **Dictionary order is numerical order.** -/
theorem padded_lt {width n m : Nat} (h : n < m) (hm : m < 10 ^ width) :
    lexLt (padded width n) (padded width m) = true := by
  induction width generalizing n m with
  | zero =>
    rw [Nat.pow_zero] at hm
    omega
  | succ width ih =>
    rw [Nat.pow_succ] at hm
    rw [padded, padded]
    by_cases hdiv : n / 10 = m / 10
    · rw [hdiv]
      refine lexLt_same _ ?_
      have hn := toNat_digit n
      have hm' := toNat_digit m
      simp only [lexLt, lexLe, Bool.not_eq_true', Bool.or_eq_false_iff, Bool.and_eq_false_iff,
        decide_eq_false_iff_not, beq_eq_false_iff_ne]
      rw [hn, hm']
      omega
    · exact lexLt_append (by rw [length_padded, length_padded]) (ih (by omega) (by omega)) _ _

theorem mem_padded {width n : Nat} {b : UInt8} (hb : b ∈ padded width n) :
    48 ≤ b.toNat ∧ b.toNat ≤ 57 := by
  induction width generalizing n with
  | zero => cases hb
  | succ width ih =>
    rcases List.mem_append.mp hb with hb | hb
    · exact ih hb
    · obtain rfl := List.mem_singleton.mp hb
      rw [toNat_digit]
      omega

/-! ## Printing -/

namespace Json

theorem decimalAux_fuel (fuel : Nat) : ∀ (fuel' n : Nat), n < fuel → n < fuel' →
    decimalAux fuel n [] = decimalAux fuel' n [] := by
  induction fuel with
  | zero => exact fun _ _ h => by omega
  | succ fuel ih =>
    intro fuel' n h h'
    obtain ⟨fuel', rfl⟩ : ∃ k, fuel' = k + 1 := ⟨fuel' - 1, by omega⟩
    rw [decimalAux, decimalAux]
    split
    · rfl
    · rw [decimalAux_eq, decimalAux_eq fuel', ih fuel' (n / 10) (by omega) (by omega)]

theorem decimal_of_lt {n : Nat} (h : n < 10) : decimal n = [UInt8.ofNat (48 + n)] := by
  rw [decimal, decimalAux, if_pos h]

/-- The digits of a number are those of its tenth and one more. -/
theorem decimal_of_le {n : Nat} (h : 10 ≤ n) :
    decimal n = decimal (n / 10) ++ [UInt8.ofNat (48 + n % 10)] := by
  rw [decimal, decimalAux, if_neg (by omega), decimalAux_eq, decimal,
    decimalAux_fuel n (n / 10 + 1) (n / 10) (by omega) (by omega)]

end Json

/-- A number printed with at least `width` digits. -/
def zeroPadded (width n : Nat) : Text :=
  List.replicate (width - (Json.decimal n).length) 48 ++ Json.decimal n

theorem zeroPadded_eq {width n : Nat} (hwidth : 0 < width) (h : n < 10 ^ width) :
    zeroPadded width n = padded width n := by
  induction width generalizing n with
  | zero => omega
  | succ width ih =>
    rw [Nat.pow_succ] at h
    rw [zeroPadded, padded]
    by_cases hsmall : n < 10
    · rw [Json.decimal_of_lt hsmall, Nat.div_eq_of_lt hsmall, padded_zero,
        Nat.mod_eq_of_lt hsmall]
      rfl
    · have hpositive : 0 < width := by
        rcases Nat.eq_zero_or_pos width with rfl | hpositive
        · rw [Nat.pow_zero] at h
          omega
        · exact hpositive
      rw [← ih hpositive (by omega), zeroPadded, Json.decimal_of_le (by omega), List.length_append,
        List.append_assoc, List.length_singleton, Nat.add_sub_add_right]

end Wire

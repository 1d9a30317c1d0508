import GitE2EE.Lib.Split
import GitE2EE.Model.Git

/-!
# Ref names are Git's

`isValidRefName` against the rules of `git check-ref-format`, stated of the whole name
(`CheckRefFormat`), and against a checker that reads the name once from left to right as
Git's own does (`checkRefnameFormat`).

The code checks component by component, and forgets the previous byte at every `/`. It
may: no rule about two neighbouring bytes has a `/` in it.
-/

namespace GitE2EE

open Wire Effect

/-! ## The rules -/

/-- The rules of `git check-ref-format`, without options. -/
structure CheckRefFormat (name : Text) : Prop where
  /-- `@` alone is reserved. -/
  reserved : name ≠ text "@"
  levels : 2 ≤ (components name).length
  nonempty : ∀ component ∈ components name, component ≠ []
  visible : ∀ component ∈ components name, ¬ text "." <+: component
  unlocked : ∀ component ∈ components name, ¬ text ".lock" <:+ component
  ending : ¬ text "." <:+ name
  printable : ∀ b ∈ name, 0x20 ≤ b ∧ b ≠ 0x7f
  plain : ∀ b ∈ name, b ∉ text " ~^:?*[\\"
  dots : ¬ text ".." <:+: name
  brace : ¬ text "@\x7b" <:+: name

/-! ## Component by component -/

/-- A byte no rule forbids by itself. -/
def Plain (b : UInt8) : Prop := isAsciiControl b = false ∧ isForbiddenByte b = false

/-- Two bytes that may stand next to each other. -/
def MayFollow (u v : UInt8) : Prop := ¬ (u = 46 ∧ v = 46) ∧ ¬ (u = 64 ∧ v = 123)

theorem validBytesFrom_iff (component : Text) : ∀ previous,
    validBytesFrom previous component = true
      ↔ (∀ b ∈ component, Plain b) ∧ (previous :: component).IsChain MayFollow := by
  induction component with
  | nil => simp [validBytesFrom]
  | cons b rest ih =>
    intro previous
    rw [validBytesFrom, Bool.and_eq_true, ih b, List.forall_mem_cons, List.isChain_cons_cons]
    simp only [Plain, MayFollow, Bool.not_eq_true', Bool.or_eq_false_iff, Bool.and_eq_false_iff,
      beq_eq_false_iff_ne, ne_eq, not_and_or]
    tauto

/-- At the start of a component nothing was read. -/
theorem isChain_zero_cons (l : Text) : (0 :: l).IsChain MayFollow ↔ l.IsChain MayFollow := by
  rw [List.isChain_cons]
  exact and_iff_right fun b _ =>
    ⟨fun h => absurd h.1 (by decide), fun h => absurd h.1 (by decide)⟩

theorem validBytes_iff (component : Text) :
    validBytesFrom 0 component = true ↔ (∀ b ∈ component, Plain b)
      ∧ component.IsChain MayFollow := by
  rw [validBytesFrom_iff, isChain_zero_cons]

theorem plain_iff (b : UInt8) :
    Plain b ↔ (0x20 ≤ b ∧ b ≠ 0x7f) ∧ b ∉ text " ~^:?*[\\" := by
  have hspecial : text " ~^:?*[\\" = [32, 126, 94, 58, 63, 42, 91, 92] := by decide
  rw [Plain, isAsciiControl, isForbiddenByte, hspecial]
  simp only [Bool.or_eq_false_iff, decide_eq_false_iff_not, beq_eq_false_iff_ne, UInt8.not_lt,
    List.mem_cons, List.not_mem_nil, or_false, not_or, ne_eq]
  tauto

theorem mayFollow_iff (l : Text) :
    l.IsChain MayFollow ↔ ¬ text ".." <:+: l ∧ ¬ text "@\x7b" <:+: l := by
  have hdots : text ".." = [46, 46] := by decide
  have hbrace : text "@\x7b" = [64, 123] := by decide
  rw [hdots, hbrace, Split.not_pair_infix_iff, Split.not_pair_infix_iff]
  constructor
  · intro h
    exact ⟨h.imp fun _ _ h => h.1, h.imp fun _ _ h => h.2⟩
  · rw [List.isChain_iff_forall_rel_of_append_cons_cons,
      List.isChain_iff_forall_rel_of_append_cons_cons,
      List.isChain_iff_forall_rel_of_append_cons_cons]
    intro ⟨hdots, hbrace⟩ u v before after hl
    exact ⟨hdots hl, hbrace hl⟩

/-- What is asked of a component besides its bytes, with the component in hand. -/
def Closes (component : Text) : Prop :=
  component ≠ [] ∧ ¬ text "." <+: component ∧ ¬ text ".lock" <:+ component

theorem isValidComponent_iff (component : Text) :
    isValidComponent component = true
      ↔ Closes component ∧ (∀ b ∈ component, Plain b) ∧ component.IsChain MayFollow := by
  have hdot : text "." <+: component ↔ component.head? = some 46 := by
    have htext : text "." = [46] := by decide
    cases component with
    | nil => simp [htext]
    | cons b rest => simp [htext, eq_comm]
  rw [isValidComponent, Bool.and_eq_true, validBytes_iff, Closes, hdot]
  refine and_congr_left fun _ => ?_
  simp only [Bool.not_eq_true', Bool.or_eq_false_iff, List.isEmpty_eq_false_iff,
    beq_eq_false_iff_ne, ne_eq, and_assoc]
  rw [← Bool.not_eq_true, List.isSuffixOf_iff_suffix]

/-- The bytes and the neighbours of a whole name, checked component by component. -/
theorem components_bytes_iff (name : Text) :
    (∀ component ∈ components name, (∀ b ∈ component, Plain b) ∧ component.IsChain MayFollow)
      ↔ (∀ b ∈ name, Plain b) ∧ name.IsChain MayFollow := by
  -- the separator is a plain byte, and may stand next to anything
  have hplain : (∀ b ∈ name, b ≠ 47 → Plain b) ↔ ∀ b ∈ name, Plain b := by
    refine ⟨fun h b hb => ?_, fun h b hb _ => h b hb⟩
    by_cases hslash : b = 47
    · rw [hslash]
      exact ⟨by decide, by decide⟩
    · exact h b hb hslash
  have hleft : ∀ b, MayFollow 47 b := fun b =>
    ⟨fun h => absurd h.1 (by decide), fun h => absurd h.1 (by decide)⟩
  have hright : ∀ b, MayFollow b 47 := fun b =>
    ⟨fun h => absurd h.2 (by decide), fun h => absurd h.2 (by decide)⟩
  rw [← hplain, ← Split.forall_mem_splitOn, Split.isChain_iff_splitOn hleft hright]
  exact forall₂_and

theorem levels_iff (name : Text) : 2 ≤ (components name).length ↔ 47 ∈ name := by
  rw [components, Split.length_splitOn, ← List.count_pos_iff]
  omega

theorem ending_iff (name : Text) : text "." <:+ name ↔ name.getLast? = some 46 := by
  have hdot : text "." = [46] := by decide
  rw [hdot, List.getLast?_eq_some_iff]
  exact exists_congr fun _ => eq_comm

/-- The code's check, with its loops read as what they ask of the whole name. -/
theorem isValidRefName_iff (name : Text) :
    isValidRefName name = true
      ↔ name ≠ text "@" ∧ 2 ≤ (components name).length ∧ ¬ text "." <:+ name
        ∧ (∀ component ∈ components name, Closes component)
        ∧ (∀ b ∈ name, Plain b) ∧ name.IsChain MayFollow := by
  rw [isValidRefName, Bool.and_eq_true, List.all_eq_true, levels_iff, ending_iff,
    ← components_bytes_iff, ← forall₂_and]
  simp only [isValidComponent_iff, Bool.not_eq_true', Bool.or_eq_false_iff, beq_eq_false_iff_ne,
    Bool.not_eq_false', List.contains_iff_mem, ne_eq, and_assoc]

/-! ## Git's scan -/

/-- What a byte means to Git's scan. -/
inductive Disposition where
  | accepted
  | endOfComponent
  | dot
  | brace
  | bad

def disposition (b : UInt8) : Disposition :=
  if b = 47 then .endOfComponent
  else if b = 46 then .dot
  else if b = 123 then .brace
  else if b < 32 ∨ b = 127 ∨ b ∈ text " ~^:?*[\\" then .bad
  else .accepted

/-- A scan on its way: where it is, where the component began, the byte read last in it
(zero at its start), and the components behind it. -/
structure Scan where
  position : Nat
  start : Nat
  last : UInt8
  count : Nat

namespace Scan

/-- What was read of the component. -/
def component (name : Text) (scan : Scan) : Text := (name.take scan.position).drop scan.start

/-- The checks at the end of a component. -/
def close (name : Text) (scan : Scan) : Option Scan :=
  if scan.component name = [] ∨ text "." <+: scan.component name
    ∨ text ".lock" <:+ scan.component name then none
  else some { scan with count := scan.count + 1 }

def push (scan : Scan) (b : UInt8) : Scan :=
  { scan with position := scan.position + 1, last := b }

/-- One byte of the name. -/
def step (name : Text) (scan : Scan) (b : UInt8) : Option Scan :=
  match disposition b with
  | .accepted => some (scan.push b)
  | .endOfComponent =>
    (scan.close name).map fun closed =>
      { closed with position := closed.position + 1, start := closed.position + 1, last := 0 }
  | .dot => if scan.last = 46 then none else some (scan.push b)
  | .brace => if scan.last = 64 then none else some (scan.push b)
  | .bad => none

end Scan

/-- Git's check of a ref name, in one pass from left to right. -/
def checkRefnameFormat (name : Text) : Bool :=
  name ≠ text "@" && match name.foldlM (Scan.step name) ⟨0, 0, 0, 0⟩ >>= Scan.close name with
    | none => false
    | some scan => scan.last ≠ 46 && 2 ≤ scan.count

namespace Scan

theorem close_eq (name : Text) (scan : Scan) [Decidable (Closes (scan.component name))] :
    scan.close name = if Closes (scan.component name)
      then some { scan with count := scan.count + 1 } else none := by
  unfold close
  by_cases h : Closes (scan.component name)
  · rw [if_pos h, if_neg (by rw [not_or, not_or]; exact h)]
  · rw [if_neg h, if_pos (by by_contra hno; rw [not_or, not_or] at hno; exact h hno)]

theorem step_slash (name : Text) (scan : Scan) :
    scan.step name 47 = (scan.close name).map fun closed =>
      { closed with position := closed.position + 1, start := closed.position + 1, last := 0 } :=
  rfl

/-- Inside a component a byte is taken if no rule forbids it after the byte before. -/
theorem step_push (name : Text) (scan : Scan) {b : UInt8} (hslash : b ≠ 47)
    [Decidable (Plain b ∧ MayFollow scan.last b)] :
    scan.step name b = if Plain b ∧ MayFollow scan.last b then some (scan.push b) else none := by
  by_cases hdot : b = 46
  · subst hdot
    have hrule : (Plain 46 ∧ MayFollow scan.last 46) ↔ ¬ scan.last = 46 := by
      simp [Plain, MayFollow, isAsciiControl, isForbiddenByte]
    show (if scan.last = 46 then none else some (scan.push 46)) = _
    by_cases hlast : scan.last = 46
    · rw [if_pos hlast, if_neg fun h => hrule.mp h hlast]
    · rw [if_neg hlast, if_pos (hrule.mpr hlast)]
  by_cases hbrace : b = 123
  · subst hbrace
    have hrule : (Plain 123 ∧ MayFollow scan.last 123) ↔ ¬ scan.last = 64 := by
      simp [Plain, MayFollow, isAsciiControl, isForbiddenByte]
    show (if scan.last = 64 then none else some (scan.push 123)) = _
    by_cases hlast : scan.last = 64
    · rw [if_pos hlast, if_neg fun h => hrule.mp h hlast]
    · rw [if_neg hlast, if_pos (hrule.mpr hlast)]
  -- every other byte is judged without the one before it
  have hrule : (Plain b ∧ MayFollow scan.last b)
      ↔ ¬ (b < 32 ∨ b = 127 ∨ b ∈ text " ~^:?*[\\") := by
    rw [plain_iff, MayFollow, not_or, not_or, UInt8.not_lt]
    tauto
  unfold step disposition
  rw [if_neg hslash, if_neg hdot, if_neg hbrace]
  by_cases hbad : b < 32 ∨ b = 127 ∨ b ∈ text " ~^:?*[\\"
  · rw [if_pos hbad, if_neg fun h => hrule.mp h hbad]
  · rw [if_neg hbad, if_pos (hrule.mpr hbad)]

/-- A byte taken is a byte more of the component. -/
theorem component_push {name front rest : Text} {b : UInt8} {scan : Scan}
    (hname : name = front ++ b :: rest) (hposition : scan.position = front.length)
    (hstart : scan.start ≤ front.length) :
    (scan.push b).component name = scan.component name ++ [b] := by
  have hmore : name.take (front.length + 1) = front ++ [b] := by
    rw [hname, List.take_append, List.take_of_length_le (by omega)]
    simp
  have hbefore : name.take front.length = front := by
    rw [hname, List.take_left']
    rfl
  show (name.take (scan.position + 1)).drop scan.start
    = (name.take scan.position).drop scan.start ++ [b]
  rw [hposition, hmore, hbefore, List.drop_append_of_le_length hstart]

/-- **A scan from anywhere in the name**, against the components of what is left: the first
of them ends the component the scan is in. -/
theorem run_iff {name : Text} (rest : Text) : ∀ (front : Text) (scan : Scan) (first : Text)
    (others : List Text), name = front ++ rest → scan.position = front.length →
    scan.start ≤ front.length → components rest = first :: others →
    ((∃ t, (rest.foldlM (step name) scan >>= close name) = some t ∧ t.last ≠ 46 ∧ 2 ≤ t.count)
      ↔ (Closes (scan.component name ++ first) ∧ (∀ b ∈ first, Plain b)
          ∧ (scan.last :: first).IsChain MayFollow)
        ∧ (∀ part ∈ others, Closes part ∧ (∀ b ∈ part, Plain b) ∧ part.IsChain MayFollow)
        ∧ (scan.last :: rest).getLast? ≠ some 46 ∧ 2 ≤ scan.count + 1 + others.length) := by
  classical
  induction rest with
  | nil =>
    intro front scan first others hname hposition hstart hparts
    cases hparts
    rw [List.foldlM_nil, pure_bind, close_eq]
    by_cases h : Closes (scan.component name)
    · simp [h]
    · simp [h]
  | cons b rest ih =>
    intro front scan first others hname hposition hstart hparts
    have hname' : name = (front ++ [b]) ++ rest := by rw [hname, List.append_assoc]; rfl
    have hlength : (front ++ [b]).length = front.length + 1 := by simp
    obtain ⟨first', others', h⟩ := Split.splitOn_first 47 rest
    rw [List.foldlM_cons, bind_assoc]
    by_cases hslash : b = 47
    · -- the component is checked, and a new one begins
      subst hslash
      rw [components, Split.splitOn_cons_self, h] at hparts
      cases hparts
      rw [step_slash, close_eq]
      by_cases hcloses : Closes (scan.component name)
      · rw [if_pos hcloses, Option.map_some]
        have hnext := ih (front ++ [47]) ⟨scan.position + 1, scan.position + 1, 0, scan.count + 1⟩
          first' others' hname' (by rw [hlength, hposition]) (by rw [hlength, hposition]) h
        have hempty : component name ⟨scan.position + 1, scan.position + 1, 0, scan.count + 1⟩
          = [] :=
          List.drop_eq_nil_of_le (List.length_take_le _ _)
        rw [hempty, List.nil_append, isChain_zero_cons] at hnext
        have hlast : (0 :: rest).getLast? ≠ some 46
            ↔ (scan.last :: 47 :: rest).getLast? ≠ some 46 := by
          cases rest with
          | nil => simp
          | cons c rest => simp only [List.getLast?_cons_cons]
        have hcount : scan.count + 1 + (first' :: others').length
            = scan.count + 1 + 1 + others'.length := by
          rw [List.length_cons]
          omega
        refine hnext.trans ?_
        rw [List.append_nil, List.forall_mem_cons, hlast, hcount]
        simp [hcloses, and_assoc]
      · rw [if_neg hcloses]
        simp [hcloses]
    · rw [components, Split.splitOn_cons_of_ne hslash h] at hparts
      cases hparts
      rw [step_push name scan hslash, List.forall_mem_cons, List.isChain_cons_cons]
      by_cases hrule : Plain b ∧ MayFollow scan.last b
      · rw [if_pos hrule]
        have hnext := ih (front ++ [b]) (scan.push b) _ _ hname'
          (by rw [hlength, ← hposition]; rfl) (by rw [hlength]; exact Nat.le_succ_of_le hstart) h
        rw [component_push hname hposition hstart, List.append_assoc] at hnext
        refine hnext.trans ?_
        simp [hrule, push]
      · rw [if_neg hrule]
        simp only [Option.bind_eq_bind, Option.bind_none, reduceCtorEq, false_and, exists_false,
          false_iff]
        tauto

end Scan

theorem checkRefnameFormat_iff (name : Text) :
    checkRefnameFormat name = true ↔ name ≠ text "@"
      ∧ ∃ scan, (name.foldlM (Scan.step name) ⟨0, 0, 0, 0⟩ >>= Scan.close name) = some scan
        ∧ scan.last ≠ 46 ∧ 2 ≤ scan.count := by
  rw [checkRefnameFormat, Bool.and_eq_true, decide_eq_true_eq]
  refine and_congr_right fun _ => ?_
  cases name.foldlM (Scan.step name) ⟨0, 0, 0, 0⟩ >>= Scan.close name with
  | none => simp
  | some scan => simp

/-- **The scan is the component-wise check.** -/
theorem checkRefnameFormat_eq (name : Text) : checkRefnameFormat name = isValidRefName name := by
  obtain ⟨first, others, h⟩ := Split.splitOn_first 47 name
  have hrun := @Scan.run_iff name name [] ⟨0, 0, 0, 0⟩ first others rfl rfl (Nat.le_refl 0) h
  dsimp only at hrun
  have hempty : Scan.component name ⟨0, 0, 0, 0⟩ = [] := by
    rw [Scan.component, List.take_zero, List.drop_nil]
  have hlast : (0 :: name).getLast? ≠ some 46 ↔ ¬ text "." <:+ name := by
    rw [ending_iff]
    cases name with
    | nil => simp
    | cons b name => rw [List.getLast?_cons_cons]
  have hlength : 0 + 1 + others.length = (components name).length := by
    rw [components, h, List.length_cons, Nat.zero_add, Nat.add_comm]
  have hparts : (∀ part ∈ components name,
      Closes part ∧ (∀ b ∈ part, Plain b) ∧ part.IsChain MayFollow)
        ↔ (Closes first ∧ (∀ b ∈ first, Plain b) ∧ first.IsChain MayFollow)
          ∧ ∀ part ∈ others, Closes part ∧ (∀ b ∈ part, Plain b) ∧ part.IsChain MayFollow := by
    rw [components, h, List.forall_mem_cons]
  rw [hempty, List.nil_append, isChain_zero_cons, hlast, hlength, ← and_assoc, ← hparts,
    forall₂_and, components_bytes_iff] at hrun
  rw [Bool.eq_iff_iff, isValidRefName_iff, checkRefnameFormat_iff, hrun]
  tauto

/-- **Ref names are Git's**: the check accepts exactly the names that satisfy every rule of
`git check-ref-format`, and those that Git's scan accepts. -/
theorem ref_names_are_gits (name : Text) :
    (isValidRefName name = true ↔ CheckRefFormat name)
      ∧ isValidRefName name = checkRefnameFormat name := by
  refine ⟨?_, (checkRefnameFormat_eq name).symm⟩
  rw [isValidRefName_iff, mayFollow_iff]
  constructor
  · intro ⟨hreserved, hlevels, hending, hcloses, hplain, hdots, hbrace⟩
    exact ⟨hreserved, hlevels, fun c hc => (hcloses c hc).1, fun c hc => (hcloses c hc).2.1,
      fun c hc => (hcloses c hc).2.2, hending, fun b hb => ((plain_iff b).mp (hplain b hb)).1,
      fun b hb => ((plain_iff b).mp (hplain b hb)).2, hdots, hbrace⟩
  · intro h
    exact ⟨h.reserved, h.levels, h.ending,
      fun c hc => ⟨h.nonempty c hc, h.visible c hc, h.unlocked c hc⟩,
      fun b hb => (plain_iff b).mpr ⟨h.printable b hb, h.plain b hb⟩, h.dots, h.brace⟩

example : checkRefnameFormat (text "refs/heads/main") = true := by decide

example : checkRefnameFormat (text "refs/heads/main.lock/x") = false := by decide

end GitE2EE

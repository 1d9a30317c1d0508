import GitE2EE.Lib.Padded
import GitE2EE.Model.CatFile

/-!
# Answers taken off the stream

A request finds its own answer at the front of the stream if the stream is empty before it,
and the stream is empty again once the header and the body behind it have been taken off.
-/

namespace GitE2EE

open Wire Effect

/-- What Git can print in a header and a reader takes apart again. -/
structure StoredObject.Printable (object : StoredObject) : Prop where
  id_ne : object.id ≠ []
  id_ascii : ∀ b ∈ object.id, b.toNat < 128
  id_word : ∀ b ∈ object.id, isAsciiWhitespace b = false
  size : object.content.length < 2 ^ 64

/-- A number is read as it was printed. -/
theorem parseU64_decimal {n : Nat} (h : n < 2 ^ 64) : parseU64 (Json.decimal n) = some n := by
  obtain ⟨c, tail, hdecimal, hdigit⟩ := Json.decimal_head n
  have hdigits : Json.parseDigits 0 (Json.decimal n ++ []) = (n, []) :=
    Json.parseDigits_decimalAux (Nat.lt_succ_self n) [] (fun _ _ hnil => by cases hnil)
  rw [List.append_nil] at hdigits
  have hplus : (Json.decimal n).head? ≠ some 43 := by
    rw [hdecimal, List.head?_cons]
    intro heq
    cases heq
    exact absurd hdigit (by decide)
  unfold parseU64
  rw [if_neg hplus]
  dsimp only
  rw [hdigits]
  dsimp only
  rw [if_pos ⟨by rw [hdecimal]; exact List.cons_ne_nil _ _, rfl, h⟩]

theorem GitObjectType.parse_name (kind : GitObjectType) :
    GitObjectType.parse kind.name = some kind := by
  cases kind <;> decide

theorem GitObjectType.name_word (kind : GitObjectType) :
    kind.name ≠ [] ∧ ∀ b ∈ kind.name, isAsciiWhitespace b = false ∧ b.toNat < 128 := by
  cases kind <;> decide +kernel

/-- A number is printed in digits. -/
theorem Json.isDigit_decimal (n : Nat) : ∀ b ∈ Json.decimal n, 48 ≤ b.toNat ∧ b.toNat ≤ 57 := by
  have hlt : n < 10 ^ (n + 1) := Nat.lt_trans (Nat.lt_succ_self n) (Nat.lt_pow_self (by decide))
  intro b hb
  -- the number is the tail of itself padded with zeros
  have hpad : b ∈ zeroPadded (n + 1) n := List.mem_append_right _ hb
  rw [zeroPadded_eq (Nat.succ_pos n) hlt] at hpad
  exact mem_padded hpad

/-! ## Ids -/

/-- An id is made of bytes that mean nothing to the protocol. -/
theorem isGitId_bytes {id : Text} (h : isGitId id = true) :
    id ≠ [] ∧ ∀ b ∈ id, b.toNat < 128 ∧ isAsciiWhitespace b = false ∧ isAsciiControl b = false
      ∧ b ≠ 0 ∧ b ≠ 9 := by
  simp only [isGitId, Bool.and_eq_true, Bool.or_eq_true, beq_iff_eq, List.all_eq_true] at h
  obtain ⟨hlength, hdigits⟩ := h
  refine ⟨fun hnil => by rw [hnil] at hlength; simp at hlength, fun b hb => ?_⟩
  have hdigit := hdigits b hb
  simp only [isAsciiHexDigit, Bool.or_eq_true, Bool.and_eq_true, decide_eq_true_eq,
    UInt8.le_iff_toNat_le] at hdigit
  have hrange : 48 ≤ b.toNat ∧ b.toNat ≤ 102 := by
    simp only [UInt8.reduceToNat] at hdigit
    omega
  have hapart : ∀ c : UInt8, c.toNat < 48 ∨ 102 < c.toNat → b ≠ c := by
    rintro c hc rfl
    omega
  refine ⟨by omega, ?_, ?_, hapart _ (by decide), hapart _ (by decide)⟩
  · simp [isAsciiWhitespace, hapart 32 (by decide), hapart 9 (by decide), hapart 10 (by decide),
      hapart 12 (by decide), hapart 13 (by decide)]
  · simp only [isAsciiControl, Bool.or_eq_false_iff, decide_eq_false_iff_not, UInt8.lt_iff_toNat_lt,
      beq_eq_false_iff_ne]
    exact ⟨by simp only [UInt8.reduceToNat]; omega, hapart 127 (by decide)⟩

/-- An id can be asked for. -/
theorem isGitId_control_free {id : Text} (h : isGitId id = true) :
    id ≠ [] ∧ id.any isAsciiControl = false := by
  obtain ⟨hne, hbytes⟩ := isGitId_bytes h
  refine ⟨hne, ?_⟩
  rw [List.any_eq_false]
  exact fun b hb => by rw [(hbytes b hb).2.2.1]; decide

/-! ## Answers -/

namespace CatFile

/-- A line ends at the first line feed. -/
theorem takeLine_append {line rest : Bytes} (h : (10 : UInt8) ∉ line) :
    takeLine (line ++ 10 :: rest) = (line ++ [10], rest) := by
  induction line with
  | nil => rfl
  | cons b line ih =>
    rw [List.mem_cons, not_or] at h
    rw [List.cons_append, takeLine, if_neg (Ne.symm h.1), ih h.2]
    rfl

/-- The header line of an object. -/
def headerLine (found : StoredObject) : Text :=
  found.id ++ [32] ++ found.kind.name ++ [32] ++ Json.decimal found.content.length

/-- **A header is read as it was printed.** -/
theorem parseHeader_headerLine {found : StoredObject} (h : found.Printable) :
    parseHeader (headerLine found ++ [10])
      = .ok (.object found.id found.kind found.content.length) := by
  obtain ⟨hkind, hword⟩ := found.kind.name_word
  obtain ⟨c, tail, hdecimal, -⟩ := Json.decimal_head found.content.length
  have hsize : ∀ b ∈ Json.decimal found.content.length, isAsciiWhitespace b = false := by
    intro b hb
    obtain ⟨hlow, hhigh⟩ := Json.isDigit_decimal _ b hb
    have hne : ∀ c : UInt8, c.toNat < 48 → b ≠ c := fun c hc heq => by rw [heq] at hlow; omega
    simp only [isAsciiWhitespace, Bool.or_eq_false_iff, beq_eq_false_iff_ne]
    exact ⟨⟨⟨⟨hne _ (by decide), hne _ (by decide)⟩, hne _ (by decide)⟩, hne _ (by decide)⟩,
      hne _ (by decide)⟩
  -- no field has a blank in it, so the line falls apart as it was put together
  have hfields : asciiFields (headerLine found ++ [10])
      = [found.id, found.kind.name, Json.decimal found.content.length] := by
    have hline : headerLine found ++ [10] = found.id ++ 32 :: (found.kind.name ++ 32 ::
        (Json.decimal found.content.length ++ 10 :: [])) := by
      simp [headerLine]
    rw [asciiFields, hline, Split.words_append h.id_word h.id_ne (by decide),
      Split.words_append (fun b hb => (hword b hb).1) hkind (by decide),
      Split.words_append hsize (by rw [hdecimal]; exact List.cons_ne_nil _ _) (by decide),
      Split.words_nil]
  unfold parseHeader
  rw [hfields]
  dsimp only
  rw [GitObjectType.parse_name, parseU64_decimal h.size]

/-- A header is one line of ASCII. -/
theorem headerLine_ascii {found : StoredObject} (h : found.Printable) :
    ∀ b ∈ headerLine found, b.toNat < 128 ∧ b ≠ 10 := by
  intro b hb
  have hdigit := Json.isDigit_decimal found.content.length b
  simp only [headerLine, List.mem_append, List.mem_singleton] at hb
  rcases hb with ((((hb | rfl) | hb) | rfl) | hb)
  · refine ⟨h.id_ascii b hb, ?_⟩
    rintro rfl
    exact absurd (h.id_word _ hb) (by decide)
  · decide
  · refine ⟨(found.kind.name_word.2 b hb).2, ?_⟩
    rintro rfl
    exact absurd (found.kind.name_word.2 _ hb).1 (by decide)
  · decide
  · refine ⟨by have := hdigit hb; omega, ?_⟩
    rintro rfl
    exact absurd (hdigit hb).1 (by decide)

/-- The first line of the answer is the header, and what is behind it stays on the stream. -/
theorem request_line {git : ObjectNames} {object line rest : Text} {header : BatchHeader}
    {cat : CatFile} (hname : object ≠ []) (hcontrol : object.any isAsciiControl = false)
    (hinput : cat.input = true) (hempty : cat.output = [])
    (hanswer : answer git cat.mode object = line ++ 10 :: rest)
    (hascii : ∀ b ∈ line, b.toNat < 128 ∧ b ≠ 10)
    (hheader : parseHeader (line ++ [10]) = .ok header) :
    request git object cat = (.ok header, { cat with output := rest }) := by
  have hline : takeLine (line ++ 10 :: rest) = (line ++ [10], rest) :=
    takeLine_append fun hmem => (hascii _ hmem).2 rfl
  have hutf8 : isUtf8 (line ++ [10]) = true := by
    refine isUtf8_of_ascii fun b hb => ?_
    rcases List.mem_append.mp hb with hb | hb
    · exact (hascii b hb).1
    · rw [List.mem_singleton.mp hb]
      decide
  -- nothing older is in front of the answer
  have hread : readLine ({ cat with output := cat.output ++ answer git cat.mode object })
      = (.ok (line ++ [10]), { cat with output := rest }) := by
    rw [hempty, List.nil_append, hanswer, readLine, Action.bind_of_ok (x := Action.get) rfl]
    dsimp only
    rw [hline, Action.bind_of_ok (x := Action.modify _) rfl, if_pos hutf8]
    rfl
  rw [request, if_neg (by rw [hcontrol]; simp [hname]), Action.bind_of_ok (x := Action.get) rfl,
    if_neg (by rw [hinput]; decide), Action.bind_of_ok (x := Action.modify _) rfl,
    Action.bind_of_ok hread, if_neg (by simp), hheader]
  rfl

/-- **A request on an empty stream** reads its own header, and leaves the body. -/
theorem request_found {git : ObjectNames} {object : Text} {found : StoredObject} {cat : CatFile}
    (hname : object ≠ []) (hcontrol : object.any isAsciiControl = false)
    (hfound : git object = some found) (hprintable : found.Printable)
    (hinput : cat.input = true) (hempty : cat.output = []) :
    request git object cat = (.ok (.object found.id found.kind found.content.length),
      { cat with output := body cat.mode found }) := by
  have hanswer : answer git cat.mode object = headerLine found ++ 10 :: body cat.mode found := by
    simp [answer, hfound, headerLine]
  exact request_line hname hcontrol hinput hempty hanswer (headerLine_ascii hprintable)
    (parseHeader_headerLine hprintable)

/-- The line feed behind a body that has been read. -/
theorem endBody_newline {cat : CatFile} {rest : Bytes} (h : cat.output = 10 :: rest) :
    endBody cat = (.ok (), { cat with output := rest }) := by
  rw [endBody, Action.bind_of_ok (x := Action.get) rfl, h]
  rfl

end CatFile

end GitE2EE

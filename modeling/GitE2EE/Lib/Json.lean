import GitE2EE.Lib.Wire

/-!
# JSON documents

The value of a document, the compact writer, and a reader for what the writer
writes. A document is read into a value first; the members of an object keep
their order and their duplicates, because a typed reader decides what to do with
them.

`parse_write` is the whole point of the reader: the compact form of a document
determines the document.
-/

namespace Wire

/-- A JSON document. Members are kept in order and with repetitions, as they were written. -/
inductive Json where
  | null
  | bool (b : Bool)
  /-- A non-negative integer. -/
  | nat (n : Nat)
  /-- Any other number, as written. -/
  | number (raw : Text)
  | str (s : Text)
  | arr (elements : List Json)
  | obj (members : List (Text × Json))

namespace Json

/-! ## The compact writer -/

/-- The decimal digits of `n`, most significant first, in front of `acc`. -/
def decimalAux : Nat → Nat → Text → Text
  | 0, _, acc => acc
  | fuel + 1, n, acc =>
    if n < 10 then UInt8.ofNat (48 + n) :: acc
    else decimalAux fuel (n / 10) (UInt8.ofNat (48 + n % 10) :: acc)

def decimal (n : Nat) : Text := decimalAux (n + 1) n []

/-- One byte of a string, escaped where JSON requires it. -/
def escapeByte (c : UInt8) : Text :=
  if c = 34 then [92, 34]
  else if c = 92 then [92, 92]
  else if c = 8 then [92, 98]
  else if c = 9 then [92, 116]
  else if c = 10 then [92, 110]
  else if c = 12 then [92, 102]
  else if c = 13 then [92, 114]
  else if c.toNat < 32 then
    [92, 117, 48, 48, hexDigit (c.toNat / 16), hexDigit (c.toNat % 16)]
  else [c]

def quote (s : Text) : Text := 34 :: (s.flatMap escapeByte ++ [34])

mutual

/-- `serde_json::to_vec`: no whitespace, members in the order given. -/
def write : Json → Bytes
  | .null => [110, 117, 108, 108]
  | .bool true => [116, 114, 117, 101]
  | .bool false => [102, 97, 108, 115, 101]
  | .nat n => decimal n
  | .number raw => raw
  | .str s => quote s
  | .arr elements => 91 :: writeElements elements
  | .obj members => 123 :: writeMembers members

/-- The elements of an array and its closing bracket. -/
def writeElements : List Json → Bytes
  | [] => [93]
  | [v] => write v ++ [93]
  | v :: w :: rest => write v ++ 44 :: writeElements (w :: rest)

/-- The members of an object and its closing brace. -/
def writeMembers : List (Text × Json) → Bytes
  | [] => [125]
  | [(k, v)] => quote k ++ 58 :: (write v ++ [125])
  | (k, v) :: m :: rest => quote k ++ 58 :: (write v ++ 44 :: writeMembers (m :: rest))

end

example : write (.obj [(text "a", .nat 10), (text "b", .arr [.null, .str [34]])])
    = text "\x7b\"a\":10,\"b\":[null,\"\\\"\"]\x7d" := by decide

/-! ## A reader for the compact form -/

/-- The byte a one-letter escape stands for. -/
def unescape (e : UInt8) : Option UInt8 :=
  if e = 34 then some 34
  else if e = 92 then some 92
  else if e = 47 then some 47
  else if e = 98 then some 8
  else if e = 102 then some 12
  else if e = 110 then some 10
  else if e = 114 then some 13
  else if e = 116 then some 9
  else none

/-- The rest of a string after its opening quote, and what follows its closing one. -/
def parseString : Bytes → Option (Text × Bytes)
  | [] => none
  | c :: rest =>
    if c = 34 then some ([], rest)
    else if c = 92 then
      match rest with
      | [] => none
      | e :: more =>
        if e = 117 then
          match more with
          | z₁ :: z₂ :: h :: l :: tail =>
            match hexValue h, hexValue l, parseString tail with
            | some a, some b, some (s, after) =>
              -- the writer escapes control bytes only
              if z₁ = 48 ∧ z₂ = 48 then some (UInt8.ofNat (16 * a + b) :: s, after) else none
            | _, _, _ => none
          | _ => none
        else
          match unescape e, parseString more with
          | some d, some (s, after) => some (d :: s, after)
          | _, _ => none
    else if c.toNat < 32 then none
    else
      match parseString rest with
      | some (s, after) => some (c :: s, after)
      | none => none

def isDigit (c : UInt8) : Bool := 48 ≤ c.toNat && c.toNat ≤ 57

/-- The value of the leading digits, after `acc`, and what follows them. -/
def parseDigits : Nat → Bytes → Nat × Bytes
  | acc, [] => (acc, [])
  | acc, c :: rest =>
    if isDigit c then parseDigits (10 * acc + (c.toNat - 48)) rest else (acc, c :: rest)

/-- `bytes` without a leading `word`. -/
def dropWord (word bytes : Bytes) : Option Bytes :=
  if bytes.take word.length = word then some (bytes.drop word.length) else none

mutual

def parseValue : Nat → Bytes → Option (Json × Bytes)
  | 0, _ => none
  | _ + 1, [] => none
  | fuel + 1, c :: rest =>
    if c = 34 then (parseString rest).map fun (s, tail) => (.str s, tail)
    else if c = 91 then
      match dropWord [93] rest with
      | some tail => some (.arr [], tail)
      | none => (parseElements fuel rest).map fun (vs, tail) => (.arr vs, tail)
    else if c = 123 then
      match dropWord [125] rest with
      | some tail => some (.obj [], tail)
      | none => (parseMembers fuel rest).map fun (ms, tail) => (.obj ms, tail)
    else if isDigit c then
      let (n, tail) := parseDigits 0 (c :: rest)
      some (.nat n, tail)
    else if c = 110 then (dropWord [117, 108, 108] rest).map fun tail => (.null, tail)
    else if c = 116 then (dropWord [114, 117, 101] rest).map fun tail => (.bool true, tail)
    else if c = 102 then (dropWord [97, 108, 115, 101] rest).map fun tail => (.bool false, tail)
    else none

def parseElements : Nat → Bytes → Option (List Json × Bytes)
  | 0, _ => none
  | fuel + 1, bytes =>
    match parseValue fuel bytes with
    | some (v, d :: rest) =>
      if d = 93 then some ([v], rest)
      else if d = 44 then (parseElements fuel rest).map fun (vs, tail) => (v :: vs, tail)
      else none
    | _ => none

def parseMembers : Nat → Bytes → Option (List (Text × Json) × Bytes)
  | 0, _ => none
  | _ + 1, [] => none
  | fuel + 1, c :: bytes =>
    if c = 34 then
      match parseString bytes with
      | some (k, 58 :: afterKey) =>
        match parseValue fuel afterKey with
        | some (v, d :: rest) =>
          if d = 125 then some ([(k, v)], rest)
          else if d = 44 then (parseMembers fuel rest).map fun (ms, tail) => ((k, v) :: ms, tail)
          else none
        | _ => none
      | _ => none
    else none

end

/-- A whole document: one value and nothing after it. -/
def parse (bytes : Bytes) : Option Json :=
  match parseValue (bytes.length + 1) bytes with
  | some (v, []) => some v
  | _ => none

/-! ## Reading back what was written -/

theorem parseString_plain {c : UInt8} {rest tail : Bytes} {s : Text} (h34 : c ≠ 34)
    (h92 : c ≠ 92) (h32 : ¬ c.toNat < 32) (hp : parseString rest = some (s, tail)) :
    parseString (c :: rest) = some (c :: s, tail) := by
  unfold parseString
  simp only [h34, h92, h32, if_false, hp]

theorem parseString_escape {e d : UInt8} {rest tail : Bytes} {s : Text} (he : e ≠ 117)
    (hd : unescape e = some d) (hp : parseString rest = some (s, tail)) :
    parseString (92 :: e :: rest) = some (d :: s, tail) := by
  unfold parseString
  simp only [show (92 : UInt8) ≠ 34 by decide, if_false, if_true, he, hd, hp]

theorem parseString_unicode {h l : UInt8} {a b : Nat} {rest tail : Bytes} {s : Text}
    (ha : hexValue h = some a) (hb : hexValue l = some b)
    (hp : parseString rest = some (s, tail)) :
    parseString (92 :: 117 :: 48 :: 48 :: h :: l :: rest)
      = some (UInt8.ofNat (16 * a + b) :: s, tail) := by
  unfold parseString
  simp only [show (92 : UInt8) ≠ 34 by decide, if_false, if_true, ha, hb, hp, and_self]

/-- A quoted string is read back, whatever follows it. -/
theorem parseString_quote (s : Text) (rest : Bytes) :
    parseString (s.flatMap escapeByte ++ 34 :: rest) = some (s, rest) := by
  induction s with
  | nil => unfold parseString; simp
  | cons c s ih =>
    rw [List.flatMap_cons, List.append_assoc]
    have hc := c.toNat_lt
    rcases Classical.em (c = 34 ∨ c = 92 ∨ c = 8 ∨ c = 9 ∨ c = 10 ∨ c = 12 ∨ c = 13) with hs | hs
    · rcases hs with rfl | rfl | rfl | rfl | rfl | rfl | rfl
      all_goals exact parseString_escape (by decide) rfl ih
    · simp only [not_or] at hs
      obtain ⟨h1, h2, h3, h4, h5, h6, h7⟩ := hs
      by_cases h8 : c.toNat < 32
      · -- a control byte, as two hexadecimal digits
        have hsum : 16 * (c.toNat / 16) + c.toNat % 16 = c.toNat := by omega
        have key := parseString_unicode (hexValue_hexDigit (n := c.toNat / 16) (by omega))
          (hexValue_hexDigit (n := c.toNat % 16) (by omega)) ih
        rw [hsum, UInt8.ofNat_toNat] at key
        simpa only [escapeByte, h1, h2, h3, h4, h5, h6, h7, h8, if_false, if_true,
          List.cons_append, List.nil_append] using key
      · have key := parseString_plain h1 h2 h8 ih
        simpa only [escapeByte, h1, h2, h3, h4, h5, h6, h7, h8, if_false,
          List.cons_append, List.nil_append] using key

theorem decimalAux_eq (fuel n : Nat) (acc : Text) :
    decimalAux fuel n acc = decimalAux fuel n [] ++ acc := by
  induction fuel generalizing n acc with
  | zero => rfl
  | succ f ih =>
    simp only [decimalAux]
    split
    · rfl
    · rw [ih, ih _ [_]]; simp

theorem isDigit_ofNat {d : Nat} (h : d < 10) :
    isDigit (UInt8.ofNat (48 + d)) = true ∧ (UInt8.ofNat (48 + d)).toNat - 48 = d := by
  revert d; decide

/-- `rest` does not begin with a digit. -/
def NoDigit (rest : Bytes) : Prop := ∀ c tail, rest = c :: tail → isDigit c = false

theorem parseDigits_noDigit {rest : Bytes} (h : NoDigit rest) (acc : Nat) :
    parseDigits acc rest = (acc, rest) := by
  cases rest with
  | nil => rfl
  | cons c tail => simp [parseDigits, h c tail rfl]

/-- Reading the digits of `n` shifts the accumulator and adds `n`. -/
theorem parseDigits_decimalAux {fuel n : Nat} (hf : n < fuel) (rest : Bytes)
    (hr : NoDigit rest) : parseDigits 0 (decimalAux fuel n [] ++ rest) = (n, rest) := by
  -- the digits of `n` are those of `n / 10` and one more
  have general : ∀ (fuel n : Nat), n < fuel → ∀ (tail : Bytes),
      parseDigits 0 (decimalAux fuel n [] ++ tail) = parseDigits n tail := by
    intro fuel
    induction fuel with
    | zero => intro n h; omega
    | succ f ih =>
      intro n h tail
      simp only [decimalAux]
      split
      · rename_i hn
        have hd := isDigit_ofNat hn
        simp only [List.cons_append, List.nil_append, parseDigits, hd.1, if_true, hd.2]
        congr 1; omega
      · have hd := isDigit_ofNat (d := n % 10) (by omega)
        rw [decimalAux_eq, List.append_assoc, ih (n / 10) (by omega)]
        simp only [List.cons_append, List.nil_append, parseDigits, hd.1, if_true, hd.2]
        congr 1; omega
  rw [general fuel n hf rest, parseDigits_noDigit hr]

theorem decimal_head (n : Nat) : ∃ c tail, decimal n = c :: tail ∧ isDigit c = true := by
  have general : ∀ (fuel n : Nat), n < fuel → ∀ acc, ∃ c tail,
      decimalAux fuel n acc = c :: tail ∧ isDigit c = true := by
    intro fuel
    induction fuel with
    | zero => intro n h; omega
    | succ f ih =>
      intro n h acc
      simp only [decimalAux]
      split
      · rename_i hn
        exact ⟨_, _, rfl, (isDigit_ofNat hn).1⟩
      · exact ih (n / 10) (by omega) _
  exact general (n + 1) n (by omega) []

mutual

/-- No number but the non-negative integers. -/
def plain : Json → Bool
  | .number _ => false
  | .arr elements => plainElements elements
  | .obj members => plainMembers members
  | _ => true

def plainElements : List Json → Bool
  | [] => true
  | v :: rest => plain v && plainElements rest

def plainMembers : List (Text × Json) → Bool
  | [] => true
  | (_, v) :: rest => plain v && plainMembers rest

end

theorem noDigit_cons {c : UInt8} (h : isDigit c = false) (rest : Bytes) : NoDigit (c :: rest) := by
  intro d tail heq
  rw [← (List.cons.inj heq).1]; exact h

theorem dropWord_self (word rest : Bytes) : dropWord word (word ++ rest) = some rest := by
  simp [dropWord]

theorem dropWord_ne {c d : UInt8} (h : c ≠ d) (rest : Bytes) :
    dropWord [d] (c :: rest) = none := by
  simp [dropWord, h]

/-- The first byte of a value is neither bracket that could close what holds it. -/
theorem write_head (v : Json) (h : plain v = true) :
    ∃ c tail, write v = c :: tail ∧ c ≠ 93 ∧ c ≠ 125 := by
  cases v with
  | null => exact ⟨_, _, rfl, by decide, by decide⟩
  | bool b => cases b <;> exact ⟨_, _, rfl, by decide, by decide⟩
  | nat n =>
    obtain ⟨c, tail, hd, hdig⟩ := decimal_head n
    refine ⟨c, tail, hd, ?_, ?_⟩ <;> rintro rfl <;> exact absurd hdig (by decide)
  | number raw => simp [plain] at h
  | str s => exact ⟨_, _, rfl, by decide, by decide⟩
  | arr elements => exact ⟨_, _, rfl, by decide, by decide⟩
  | obj members => exact ⟨_, _, rfl, by decide, by decide⟩

theorem head?_write_obj (members : List (Text × Json)) :
    (write (.obj members)).head? = some 123 := by
  rw [write]
  rfl

/-- A written number is read back if no digit follows it. -/
theorem parseValue_nat (fuel n : Nat) {rest : Bytes} (hr : NoDigit rest) :
    parseValue (fuel + 1) (decimal n ++ rest) = some (.nat n, rest) := by
  obtain ⟨c, tail, hd, hdig⟩ := decimal_head n
  have hne : ∀ d : UInt8, isDigit d = false → c ≠ d := by
    rintro d hf rfl; rw [hdig] at hf; cases hf
  have key := parseDigits_decimalAux (Nat.lt_succ_self n) rest hr
  rw [show decimalAux n.succ n [] = c :: tail from hd] at key
  rw [hd, List.cons_append, parseValue]
  simp only [hne 34 (by decide), hne 91 (by decide), hne 123 (by decide), hdig, if_false, if_true]
  rw [← List.cons_append, key]

theorem writeElements_cons (v w : Json) (rest : List Json) :
    writeElements (v :: w :: rest) = write v ++ 44 :: writeElements (w :: rest) := by
  rw [writeElements]

theorem writeMembers_cons (k : Text) (v : Json) (m : Text × Json) (rest : List (Text × Json)) :
    writeMembers ((k, v) :: m :: rest)
      = quote k ++ 58 :: (write v ++ 44 :: writeMembers (m :: rest)) := by
  rw [writeMembers]

mutual

/-- A written value is read back, whatever follows it. -/
theorem parseValue_write : ∀ (v : Json) (fuel : Nat) (rest : Bytes), plain v = true →
    (write v).length < fuel → NoDigit rest → parseValue fuel (write v ++ rest) = some (v, rest)
  | _, 0, _, _, hf, _ => by omega
  | .null, fuel + 1, rest, _, _, _ => by
    have := dropWord_self [117, 108, 108] rest
    simp only [List.cons_append, List.nil_append] at this
    simp [write, parseValue, this, isDigit]
  | .bool true, fuel + 1, rest, _, _, _ => by
    have := dropWord_self [114, 117, 101] rest
    simp only [List.cons_append, List.nil_append] at this
    simp [write, parseValue, this, isDigit]
  | .bool false, fuel + 1, rest, _, _, _ => by
    have := dropWord_self [97, 108, 115, 101] rest
    simp only [List.cons_append, List.nil_append] at this
    simp [write, parseValue, this, isDigit]
  | .nat n, fuel + 1, rest, _, _, hr => by
    rw [write]; exact parseValue_nat fuel n hr
  | .number raw, fuel + 1, rest, hp, _, _ => by simp [plain] at hp
  | .str s, fuel + 1, rest, _, _, _ => by
    simp [write, quote, parseValue, parseString_quote]
  | .arr [], fuel + 1, rest, _, _, _ => by
    have := dropWord_self [93] rest
    simp only [List.cons_append, List.nil_append] at this
    simp [write, writeElements, parseValue, this]
  | .arr (v :: vs), fuel + 1, rest, hp, hf, _ => by
    have hpe : plainElements (v :: vs) = true := by simpa [plain] using hp
    have hlen : (writeElements (v :: vs)).length < fuel := by
      simp only [write, List.length_cons] at hf; omega
    have ih := parseElements_write (v :: vs) (by simp) fuel rest hpe hlen
    -- an element never begins with the closing bracket
    have hopen : dropWord [93] (writeElements (v :: vs) ++ rest) = none := by
      have hpv : plain v = true := by simp [plainElements] at hpe; exact hpe.1
      obtain ⟨c, tail, hc, hne, _⟩ := write_head v hpv
      cases vs with
      | nil => rw [writeElements, hc]; exact dropWord_ne hne _
      | cons w ws => rw [writeElements_cons, hc]; exact dropWord_ne hne _
    rw [write, List.cons_append, parseValue]
    simp [hopen, ih]
  | .obj [], fuel + 1, rest, _, _, _ => by
    have := dropWord_self [125] rest
    simp only [List.cons_append, List.nil_append] at this
    simp [write, writeMembers, parseValue, this]
  | .obj (m :: ms), fuel + 1, rest, hp, hf, _ => by
    have hpm : plainMembers (m :: ms) = true := by simpa [plain] using hp
    have hlen : (writeMembers (m :: ms)).length < fuel := by
      simp only [write, List.length_cons] at hf; omega
    have ih := parseMembers_write (m :: ms) (by simp) fuel rest hpm hlen
    have hopen : dropWord [125] (writeMembers (m :: ms) ++ rest) = none := by
      obtain ⟨k, v⟩ := m
      cases ms with
      | nil => rw [writeMembers, quote]; exact dropWord_ne (by decide) _
      | cons w ws => rw [writeMembers_cons, quote]; exact dropWord_ne (by decide) _
    rw [write, List.cons_append, parseValue]
    simp [hopen, ih]

theorem parseElements_write : ∀ (vs : List Json), vs ≠ [] → ∀ (fuel : Nat) (rest : Bytes),
    plainElements vs = true → (writeElements vs).length < fuel →
    parseElements fuel (writeElements vs ++ rest) = some (vs, rest)
  | [], h, _, _, _, _ => absurd rfl h
  | _ :: _, _, 0, _, _, hf => by omega
  | [v], _, fuel + 1, rest, hp, hf => by
    have hpv : plain v = true := by simpa [plainElements] using hp
    have hlen : (write v).length < fuel := by
      simp only [writeElements, List.length_append, List.length_singleton] at hf; omega
    have ih := parseValue_write v fuel (93 :: rest) hpv hlen (noDigit_cons (by decide) rest)
    rw [writeElements, List.append_assoc, parseElements]
    simp [ih]
  | v :: w :: vs, _, fuel + 1, rest, hp, hf => by
    have hpv : plain v = true ∧ plainElements (w :: vs) = true := by
      simpa [plainElements] using hp
    have hlen : (write v).length < fuel ∧ (writeElements (w :: vs)).length < fuel := by
      simp only [writeElements_cons, List.length_append, List.length_cons] at hf; omega
    have ihv := parseValue_write v fuel (44 :: (writeElements (w :: vs) ++ rest)) hpv.1 hlen.1
      (noDigit_cons (by decide) _)
    have ihs := parseElements_write (w :: vs) (by simp) fuel rest hpv.2 hlen.2
    rw [writeElements_cons, List.append_assoc, parseElements]
    simp [ihv, ihs]

theorem parseMembers_write : ∀ (ms : List (Text × Json)), ms ≠ [] → ∀ (fuel : Nat) (rest : Bytes),
    plainMembers ms = true → (writeMembers ms).length < fuel →
    parseMembers fuel (writeMembers ms ++ rest) = some (ms, rest)
  | [], h, _, _, _, _ => absurd rfl h
  | _ :: _, _, 0, _, _, hf => by omega
  | [(k, v)], _, fuel + 1, rest, hp, hf => by
    have hpv : plain v = true := by simpa [plainMembers] using hp
    have hlen : (write v).length < fuel := by
      simp only [writeMembers, quote, List.length_append, List.length_cons] at hf; omega
    have ih := parseValue_write v fuel (125 :: rest) hpv hlen (noDigit_cons (by decide) rest)
    have hk := parseString_quote k (58 :: (write v ++ 125 :: rest))
    rw [writeMembers, quote, List.append_assoc, List.cons_append, parseMembers]
    simp [hk, ih]
  | (k, v) :: m :: ms, _, fuel + 1, rest, hp, hf => by
    have hpv : plain v = true ∧ plainMembers (m :: ms) = true := by
      simpa [plainMembers] using hp
    have hlen : (write v).length < fuel ∧ (writeMembers (m :: ms)).length < fuel := by
      simp only [writeMembers_cons, quote, List.length_append, List.length_cons] at hf; omega
    have ihv := parseValue_write v fuel (44 :: (writeMembers (m :: ms) ++ rest)) hpv.1 hlen.1
      (noDigit_cons (by decide) _)
    have ihs := parseMembers_write (m :: ms) (by simp) fuel rest hpv.2 hlen.2
    have hk := parseString_quote k (58 :: (write v ++ 44 :: (writeMembers (m :: ms) ++ rest)))
    rw [writeMembers_cons, quote, List.append_assoc, List.cons_append, parseMembers]
    simp [hk, ihv, ihs]

end

/-- **The compact form determines the document.** -/
theorem parse_write (v : Json) (h : plain v = true) : parse (write v) = some v := by
  have key := parseValue_write v ((write v).length + 1) [] h (Nat.lt_succ_self _)
    (by intro c tail heq; cases heq)
  rw [List.append_nil] at key
  simp [parse, key]

/-! ## Documents every reader reads -/

/-- Nested at most `depth` deep, with valid UTF-8 in its strings and no number but
64-bit unsigned integers. -/
def readable : Nat → Json → Bool
  | 0, _ => false
  | _ + 1, .nat n => n < 2 ^ 64
  | _ + 1, .number _ => false
  | _ + 1, .str s => isUtf8 s
  | depth + 1, .arr elements => elements.all (readable depth)
  | depth + 1, .obj members => members.all fun m => isUtf8 m.1 && readable depth m.2
  | _ + 1, _ => true

theorem plainElements_of {elements : List Json} (h : ∀ v ∈ elements, plain v = true) :
    plainElements elements = true := by
  induction elements with
  | nil => rfl
  | cons v rest ih =>
    rw [plainElements, h v List.mem_cons_self, ih fun w hw => h w (List.mem_cons_of_mem _ hw)]
    rfl

theorem plainMembers_of {members : List (Text × Json)} (h : ∀ m ∈ members, plain m.2 = true) :
    plainMembers members = true := by
  induction members with
  | nil => rfl
  | cons m rest ih =>
    rw [plainMembers, h m List.mem_cons_self, ih fun w hw => h w (List.mem_cons_of_mem _ hw)]
    rfl

/-- A readable document has no number but 64-bit integers in it. -/
theorem plain_of_readable {depth : Nat} {v : Json} (h : readable depth v = true) :
    plain v = true := by
  induction depth generalizing v with
  | zero => cases h
  | succ depth ih =>
    cases v with
    | number raw => cases h
    | arr elements =>
      rw [plain]
      exact plainElements_of fun v hv => ih (List.all_eq_true.mp h v hv)
    | obj members =>
      rw [plain]
      refine plainMembers_of fun m hm => ih ?_
      have := List.all_eq_true.mp h m hm
      simp only [Bool.and_eq_true] at this
      exact this.2
    | _ => rfl

/-- The reader above reads every such document back. -/
theorem parse_write_of_readable {depth : Nat} {v : Json} (h : readable depth v = true) :
    parse v.write = some v := parse_write v (plain_of_readable h)

/-! ## Lengths -/

@[simp] theorem write_str (s : Text) : (str s).write = quote s := rfl

@[simp] theorem write_nat (n : Nat) : (nat n).write = decimal n := rfl

/-- Text that JSON writes as it is. -/
def Verbatim (s : Text) : Prop := ∀ c ∈ s, 32 ≤ c.toNat ∧ c ≠ 34 ∧ c ≠ 92

theorem escapeByte_verbatim {c : UInt8} (h : 32 ≤ c.toNat ∧ c ≠ 34 ∧ c ≠ 92) :
    escapeByte c = [c] := by
  obtain ⟨hc, h34, h92⟩ := h
  have hne : ∀ d : UInt8, d.toNat < 32 → c ≠ d := by
    rintro d hd rfl
    omega
  rw [escapeByte, if_neg h34, if_neg h92, if_neg (hne 8 (by decide)), if_neg (hne 9 (by decide)),
    if_neg (hne 10 (by decide)), if_neg (hne 12 (by decide)), if_neg (hne 13 (by decide)),
    if_neg (by omega)]

theorem length_quote_verbatim {s : Text} (h : Verbatim s) : (quote s).length = s.length + 2 := by
  have hsame : s.flatMap escapeByte = s := by
    induction s with
    | nil => rfl
    | cons c s ih =>
      rw [List.flatMap_cons, escapeByte_verbatim (h c List.mem_cons_self),
        ih fun d hd => h d (List.mem_cons_of_mem _ hd)]
      rfl
  simp [quote, hsame]

theorem length_escapeByte_le (c : UInt8) : (escapeByte c).length ≤ 6 := by
  unfold escapeByte
  split_ifs <;> simp

/-- Escaping takes at most six bytes for one. -/
theorem length_quote_le (s : Text) : (quote s).length ≤ 6 * s.length + 2 := by
  have hflat : (s.flatMap escapeByte).length ≤ 6 * s.length := by
    induction s with
    | nil => exact Nat.le_refl _
    | cons c s ih =>
      have := length_escapeByte_le c
      rw [List.flatMap_cons, List.length_append, List.length_cons]
      omega
  simp only [quote, List.length_cons, List.length_append, List.length_nil]
  omega

/-- Every element is followed by a comma or by the bracket. -/
theorem length_writeElements (v : Json) (vs : List Json) :
    (writeElements (v :: vs)).length = ((v :: vs).map fun w => (write w).length + 1).sum := by
  induction vs generalizing v with
  | nil => simp [writeElements]
  | cons w vs ih =>
    rw [writeElements_cons, List.length_append, List.length_cons, ih w, List.map_cons,
      List.map_cons, List.map_cons, List.sum_cons, List.sum_cons, List.sum_cons]
    omega

/-- An array of at least one element: a bracket, and a comma or bracket after each. -/
theorem length_write_arr {elements : List Json} (h : elements ≠ []) :
    (write (.arr elements)).length = 1 + (elements.map fun w => (write w).length + 1).sum := by
  cases elements with
  | nil => exact absurd rfl h
  | cons v vs => rw [write, List.length_cons, length_writeElements, Nat.add_comm]

theorem length_writeMembers (m : Text × Json) (ms : List (Text × Json)) :
    (writeMembers (m :: ms)).length
      = ((m :: ms).map fun e => (quote e.1).length + (write e.2).length + 2).sum := by
  induction ms generalizing m with
  | nil =>
    obtain ⟨k, v⟩ := m
    simp only [writeMembers, List.length_append, List.length_cons, List.length_nil, List.map_cons,
      List.map_nil, List.sum_cons, List.sum_nil]
    omega
  | cons n ms ih =>
    obtain ⟨k, v⟩ := m
    rw [writeMembers_cons, List.map_cons, List.sum_cons, ← ih n]
    simp only [List.length_append, List.length_cons]
    omega

/-- An object of at least one member. -/
theorem length_write_obj (m : Text × Json) (ms : List (Text × Json)) :
    (write (.obj (m :: ms))).length
      = 1 + ((m :: ms).map fun e => (quote e.1).length + (write e.2).length + 2).sum := by
  rw [write, List.length_cons, length_writeMembers, Nat.add_comm]

/-- A number below `10 ^ digits` takes at most that many digits. -/
theorem length_decimal_le {digits n : Nat} (hd : 0 < digits) (h : n < 10 ^ digits) :
    (decimal n).length ≤ digits := by
  have general : ∀ (fuel digits n : Nat), 0 < digits → n < 10 ^ digits → ∀ acc : Text,
      (decimalAux fuel n acc).length ≤ digits + acc.length := by
    intro fuel
    induction fuel with
    | zero => intro digits n _ _ acc; simp [decimalAux]
    | succ fuel ih =>
      intro digits n hd hn acc
      simp only [decimalAux]
      split
      · simp only [List.length_cons]; omega
      · rename_i hten
        obtain ⟨k, rfl⟩ : ∃ k, digits = k + 1 := ⟨digits - 1, by omega⟩
        have hk : 0 < k := by
          rcases Nat.eq_zero_or_pos k with rfl | hk
          · simp at hn; omega
          · exact hk
        have := ih k (n / 10) hk (Nat.div_lt_of_lt_mul (by rw [Nat.pow_succ'] at hn; exact hn))
          (UInt8.ofNat (48 + n % 10) :: acc)
        simp only [List.length_cons] at this
        omega
  exact general (n + 1) digits n hd h []

end Json

theorem verbatim_hexEncode (bytes : Bytes) : Json.Verbatim (hexEncode bytes) :=
  forall_mem_hexEncode (by decide) bytes

theorem base64Symbol_verbatim {n : Nat} (h : n < 64) :
    32 ≤ (base64Symbol n).toNat ∧ base64Symbol n ≠ 34 ∧ base64Symbol n ≠ 92 := by
  revert n; decide

theorem verbatim_base64Encode (bytes : Bytes) : Json.Verbatim (base64Encode bytes) := by
  have hpad : 32 ≤ base64Pad.toNat ∧ base64Pad ≠ 34 ∧ base64Pad ≠ 92 := by decide
  intro c hc
  rcases mem_base64Encode hc with rfl | ⟨n, hn, rfl⟩
  · exact hpad
  · exact base64Symbol_verbatim hn

end Wire

import Mathlib.Algebra.Order.Ring.Nat
import Mathlib.Data.List.Basic

/-!
# Byte strings and their textual encodings

Everything that crosses a process boundary is a list of bytes, and a string is
its UTF-8 bytes. Two textual encodings of byte strings are defined here as the
usual codecs compute them: lowercase hexadecimal (read back in either case) and
padded standard Base64 (read back strictly: the padding must be there, and the
unused bits of the last symbol must be zero).

The facts that matter to a protocol are the two round trips and the length of an
encoding, which depends only on the length of what is encoded.
-/

namespace Wire

abbrev Bytes := List UInt8

instance lawfulBEqBytes : LawfulBEq Bytes := inferInstance

/-- A string, as its UTF-8 bytes. -/
abbrev Text := Bytes

/-- The bytes of an ASCII literal. -/
def text (s : String) : Text := s.toList.map fun c => UInt8.ofNat (c.toNat % 128)

/-- A text as a `String`, for messages only. -/
def render (t : Text) : String := String.ofList (t.map fun b => Char.ofNat b.toNat)

/-- One byte of a quoted text: quotes, backslashes and control bytes are escaped. -/
def escapeDebug (b : UInt8) : String :=
  if b = 34 then "\\\"" else if b = 92 then "\\\\" else if b = 10 then "\\n"
  else if b = 13 then "\\r" else if b = 9 then "\\t" else if b = 0 then "\\0"
  else if b < 32 ∨ b = 127 then "\\u\x7b" ++ String.ofList (Nat.toDigits 16 b.toNat) ++ "\x7d"
  else String.ofList [Char.ofNat b.toNat]

/-- A text in double quotes, for messages only. -/
def quoted (t : Text) : String := "\"" ++ String.join (t.map escapeDebug) ++ "\""

/-- A code point as four or more uppercase hexadecimal digits, for messages only. -/
def codePointName (c : Nat) : String :=
  let digits := (Nat.toDigits 16 c).map Char.toUpper
  String.ofList (List.replicate (4 - digits.length) '0' ++ digits)

/-- The `width` low bytes of `n`, least significant first. -/
def leBytes : Nat → Nat → Bytes
  | 0, _ => []
  | width + 1, n => UInt8.ofNat (n % 256) :: leBytes width (n / 256)

@[simp] theorem length_leBytes (width n : Nat) : (leBytes width n).length = width := by
  induction width generalizing n with
  | zero => rfl
  | succ w ih => simp [leBytes, ih]

theorem leBytes_injective {width a b : Nat} (ha : a < 256 ^ width) (hb : b < 256 ^ width)
    (h : leBytes width a = leBytes width b) : a = b := by
  induction width generalizing a b with
  | zero => simp only [Nat.pow_zero] at ha hb; omega
  | succ width ih =>
    simp only [leBytes, List.cons.injEq] at h
    have hlow : a % 256 = b % 256 := by
      have := congrArg UInt8.toNat h.1
      simpa using this
    have hhigh : a / 256 = b / 256 :=
      ih (Nat.div_lt_of_lt_mul (by rw [Nat.pow_succ, Nat.mul_comm] at ha; exact ha))
        (Nat.div_lt_of_lt_mul (by rw [Nat.pow_succ, Nat.mul_comm] at hb; exact hb)) h.2
    omega

/-- A fixed-width number and what follows it. -/
theorem leBytes_append_inj {width a b : Nat} {x y : Bytes} (ha : a < 256 ^ width)
    (hb : b < 256 ^ width) (h : leBytes width a ++ x = leBytes width b ++ y) : a = b ∧ x = y := by
  obtain ⟨hnumber, hrest⟩ := List.append_inj h (by rw [length_leBytes, length_leBytes])
  exact ⟨leBytes_injective ha hb hnumber, hrest⟩

/-- Byte strings in dictionary order. -/
def lexLe : Bytes → Bytes → Bool
  | [], _ => true
  | _ :: _, [] => false
  | a :: as, b :: bs => a.toNat < b.toNat || (a.toNat == b.toNat && lexLe as bs)

/-- A continuation byte of a UTF-8 sequence. -/
def isContinuation (b : UInt8) : Bool := 0x80 ≤ b.toNat && b.toNat < 0xC0

/-- The code points of a byte string that is valid UTF-8: no overlong form, no
surrogate, nothing above `0x10FFFF`. -/
def decodeUtf8 : Bytes → Option (List Nat)
  | [] => some []
  | a :: rest =>
    if a.toNat < 0x80 then (decodeUtf8 rest).map (a.toNat :: ·)
    else if a.toNat < 0xC2 then none
    else if a.toNat < 0xE0 then
      match rest with
      | b :: rest =>
        if isContinuation b then
          (decodeUtf8 rest).map ((a.toNat % 32 * 64 + b.toNat % 64) :: ·)
        else none
      | _ => none
    else if a.toNat < 0xF0 then
      match rest with
      | b :: c :: rest =>
        let code := a.toNat % 16 * 4096 + b.toNat % 64 * 64 + c.toNat % 64
        if isContinuation b && isContinuation c && 0x800 ≤ code
            && !(0xD800 ≤ code && code < 0xE000) then
          (decodeUtf8 rest).map (code :: ·)
        else none
      | _ => none
    else
      match rest with
      | b :: c :: d :: rest =>
        let code := a.toNat % 8 * 262144 + b.toNat % 64 * 4096 + c.toNat % 64 * 64 + d.toNat % 64
        if a.toNat < 0xF8 && isContinuation b && isContinuation c && isContinuation d
            && 0x10000 ≤ code && code < 0x110000 then
          (decodeUtf8 rest).map (code :: ·)
        else none
      | _ => none

/-- Valid UTF-8. -/
def isUtf8 (bytes : Bytes) : Bool := (decodeUtf8 bytes).isSome

theorem decodeUtf8_ascii {bytes : Bytes} (h : ∀ b ∈ bytes, b.toNat < 128) :
    decodeUtf8 bytes = some (bytes.map UInt8.toNat) := by
  induction bytes with
  | nil => rfl
  | cons b rest ih =>
    unfold decodeUtf8
    rw [if_pos (h b List.mem_cons_self), ih fun c hc => h c (List.mem_cons_of_mem _ hc)]
    rfl

theorem isUtf8_of_ascii {bytes : Bytes} (h : ∀ b ∈ bytes, b.toNat < 128) :
    isUtf8 bytes = true := by
  rw [isUtf8, decodeUtf8_ascii h]
  rfl

@[simp] theorem isUtf8_text (s : String) : isUtf8 (text s) = true := by
  refine isUtf8_of_ascii fun b hb => ?_
  obtain ⟨c, -, rfl⟩ := List.mem_map.mp hb
  have hlt : c.toNat % 128 < 128 := Nat.mod_lt _ (by decide)
  rw [UInt8.toNat_ofNat', Nat.mod_eq_of_lt (by omega)]
  exact hlt

/-- The code points of a UTF-8 string. -/
def codePoints : Text → List Nat
  | [] => []
  | a :: rest =>
    if a.toNat < 0x80 then a.toNat :: codePoints rest
    else if a.toNat < 0xE0 then
      match rest with
      | b :: rest => ((a.toNat % 32) * 64 + b.toNat % 64) :: codePoints rest
      | _ => [a.toNat]
    else if a.toNat < 0xF0 then
      match rest with
      | b :: c :: rest =>
        ((a.toNat % 16) * 4096 + b.toNat % 64 * 64 + c.toNat % 64) :: codePoints rest
      | _ => [a.toNat]
    else
      match rest with
      | b :: c :: d :: rest =>
        ((a.toNat % 8) * 262144 + b.toNat % 64 * 4096 + c.toNat % 64 * 64 + d.toNat % 64)
          :: codePoints rest
      | _ => [a.toNat]

/-! ## Hexadecimal -/

/-- The lowercase digit of a value below 16. -/
def hexDigit (n : Nat) : UInt8 := if n < 10 then UInt8.ofNat (48 + n) else UInt8.ofNat (87 + n)

/-- The value of a digit of either case. -/
def hexValue (c : UInt8) : Option Nat :=
  if 48 ≤ c.toNat ∧ c.toNat ≤ 57 then some (c.toNat - 48)
  else if 97 ≤ c.toNat ∧ c.toNat ≤ 102 then some (c.toNat - 87)
  else if 65 ≤ c.toNat ∧ c.toNat ≤ 70 then some (c.toNat - 55)
  else none

/-- `u8::is_ascii_hexdigit`. -/
def isHexDigit (c : UInt8) : Bool := (hexValue c).isSome

def hexEncode (bytes : Bytes) : Text :=
  bytes.flatMap fun b => [hexDigit (b.toNat / 16), hexDigit (b.toNat % 16)]

def hexDecode : Text → Option Bytes
  | [] => some []
  | [_] => none
  | high :: low :: rest =>
    match hexValue high, hexValue low, hexDecode rest with
    | some h, some l, some bytes => some (UInt8.ofNat (16 * h + l) :: bytes)
    | _, _, _ => none

theorem hexValue_hexDigit {n : Nat} (h : n < 16) : hexValue (hexDigit n) = some n := by
  revert n; decide

@[simp] theorem length_hexEncode (bytes : Bytes) :
    (hexEncode bytes).length = 2 * bytes.length := by
  induction bytes with
  | nil => rfl
  | cons b rest ih =>
    simp only [hexEncode, List.flatMap_cons, List.length_append] at *
    simp [ih]
    omega

@[simp] theorem hexDecode_hexEncode (bytes : Bytes) : hexDecode (hexEncode bytes) = some bytes := by
  induction bytes with
  | nil => rfl
  | cons b rest ih =>
    have hb : b.toNat < 256 := b.toNat_lt
    have hh := hexValue_hexDigit (n := b.toNat / 16) (by omega)
    have hl := hexValue_hexDigit (n := b.toNat % 16) (by omega)
    have hsum : 16 * (b.toNat / 16) + b.toNat % 16 = b.toNat := by omega
    show hexDecode (hexDigit (b.toNat / 16) :: hexDigit (b.toNat % 16) :: hexEncode rest) = _
    simp only [hexDecode, hh, hl, ih, hsum, UInt8.ofNat_toNat]

theorem hexEncode_injective {a b : Bytes} (h : hexEncode a = hexEncode b) : a = b := by
  have := congrArg hexDecode h
  simpa using this

/-- What holds of every digit holds all over an encoding. -/
theorem forall_mem_hexEncode {p : UInt8 → Prop} (h : ∀ n, n < 16 → p (hexDigit n))
    (bytes : Bytes) : ∀ c ∈ hexEncode bytes, p c := by
  intro c hc
  obtain ⟨b, -, hb⟩ := List.mem_flatMap.mp hc
  have hlt := b.toNat_lt
  rcases List.mem_pair.mp hb with rfl | rfl
  · exact h _ (by omega)
  · exact h _ (by omega)

theorem isHexDigit_hexEncode (bytes : Bytes) : (hexEncode bytes).all isHexDigit = true :=
  List.all_eq_true.mpr (forall_mem_hexEncode (by decide) bytes)

theorem isUtf8_hexEncode (bytes : Bytes) : isUtf8 (hexEncode bytes) = true :=
  isUtf8_of_ascii (forall_mem_hexEncode (by decide) bytes)

/-- The digits above nine are lower-case letters. -/
theorem hexEncode_lower (bytes : Bytes) : (hexEncode bytes).all (fun b =>
    (48 ≤ b.toNat && b.toNat ≤ 57) || (97 ≤ b.toNat && b.toNat ≤ 102)) = true :=
  List.all_eq_true.mpr (forall_mem_hexEncode (by decide) bytes)

/-! ## Base64 -/

/-- The symbol of a value below 64. -/
def base64Symbol (n : Nat) : UInt8 :=
  if n < 26 then UInt8.ofNat (65 + n)
  else if n < 52 then UInt8.ofNat (71 + n)
  else if n < 62 then UInt8.ofNat (n - 4)
  else if n = 62 then 43
  else 47

def base64Value (c : UInt8) : Option Nat :=
  if 65 ≤ c.toNat ∧ c.toNat ≤ 90 then some (c.toNat - 65)
  else if 97 ≤ c.toNat ∧ c.toNat ≤ 122 then some (c.toNat - 71)
  else if 48 ≤ c.toNat ∧ c.toNat ≤ 57 then some (c.toNat + 4)
  else if c = 43 then some 62
  else if c = 47 then some 63
  else none

/-- `=`. -/
def base64Pad : UInt8 := 61

def base64Encode : Bytes → Text
  | [] => []
  | [a] => [base64Symbol (a.toNat / 4), base64Symbol (a.toNat % 4 * 16), base64Pad, base64Pad]
  | [a, b] =>
    [base64Symbol (a.toNat / 4), base64Symbol (a.toNat % 4 * 16 + b.toNat / 16),
      base64Symbol (b.toNat % 16 * 4), base64Pad]
  | a :: b :: c :: rest =>
    base64Symbol (a.toNat / 4) :: base64Symbol (a.toNat % 4 * 16 + b.toNat / 16)
      :: base64Symbol (b.toNat % 16 * 4 + c.toNat / 64) :: base64Symbol (c.toNat % 64)
      :: base64Encode rest

/-- The one to three bytes a last group of four symbols stands for. -/
def base64LastGroup (p q r s : UInt8) : Option Bytes :=
  match base64Value p, base64Value q with
  | some w, some x =>
    if r = base64Pad ∧ s = base64Pad then
      -- unused bits of the last symbol must be zero
      if x % 16 = 0 then some [UInt8.ofNat (w * 4 + x / 16)] else none
    else
      match base64Value r with
      | some y =>
        if s = base64Pad then
          if y % 4 = 0 then
            some [UInt8.ofNat (w * 4 + x / 16), UInt8.ofNat (x % 16 * 16 + y / 4)]
          else none
        else
          match base64Value s with
          | some z =>
            some [UInt8.ofNat (w * 4 + x / 16), UInt8.ofNat (x % 16 * 16 + y / 4),
              UInt8.ofNat (y % 4 * 64 + z)]
          | none => none
      | none => none
  | _, _ => none

/-- The three bytes an inner group of four symbols stands for. -/
def base64InnerGroup (p q r s : UInt8) : Option Bytes :=
  match base64Value p, base64Value q, base64Value r, base64Value s with
  | some w, some x, some y, some z =>
    some [UInt8.ofNat (w * 4 + x / 16), UInt8.ofNat (x % 16 * 16 + y / 4),
      UInt8.ofNat (y % 4 * 64 + z)]
  | _, _, _, _ => none

def base64Decode : Text → Option Bytes
  | [] => some []
  | p :: q :: r :: s :: rest =>
    match rest with
    | [] => base64LastGroup p q r s
    | _ :: _ =>
      match base64InnerGroup p q r s, base64Decode rest with
      | some head, some tail => some (head ++ tail)
      | _, _ => none
  | _ => none

theorem base64Value_symbol {n : Nat} (h : n < 64) : base64Value (base64Symbol n) = some n := by
  revert n; decide

theorem base64Symbol_ne_pad {n : Nat} (h : n < 64) : base64Symbol n ≠ base64Pad := by
  revert n; decide

/-- A group of three bytes survives its four symbols. -/
theorem base64InnerGroup_symbols (a b c : UInt8) :
    base64InnerGroup (base64Symbol (a.toNat / 4)) (base64Symbol (a.toNat % 4 * 16 + b.toNat / 16))
      (base64Symbol (b.toNat % 16 * 4 + c.toNat / 64)) (base64Symbol (c.toNat % 64))
      = some [a, b, c] := by
  have ha := a.toNat_lt
  have hb := b.toNat_lt
  have hc := c.toNat_lt
  simp only [base64InnerGroup]
  rw [base64Value_symbol (by omega), base64Value_symbol (by omega),
    base64Value_symbol (by omega), base64Value_symbol (by omega)]
  simp only [Option.some.injEq, List.cons.injEq, and_true]
  refine ⟨?_, ?_, ?_⟩ <;> apply UInt8.toNat_inj.mp <;> simp only [UInt8.toNat_ofNat'] <;> omega

/-- A last group of one, two or three bytes survives its symbols. -/
theorem base64LastGroup_symbols (a b c : UInt8) :
    base64LastGroup (base64Symbol (a.toNat / 4)) (base64Symbol (a.toNat % 4 * 16))
        base64Pad base64Pad = some [a]
    ∧ base64LastGroup (base64Symbol (a.toNat / 4))
        (base64Symbol (a.toNat % 4 * 16 + b.toNat / 16)) (base64Symbol (b.toNat % 16 * 4))
        base64Pad = some [a, b]
    ∧ base64LastGroup (base64Symbol (a.toNat / 4))
        (base64Symbol (a.toNat % 4 * 16 + b.toNat / 16))
        (base64Symbol (b.toNat % 16 * 4 + c.toNat / 64)) (base64Symbol (c.toNat % 64))
        = some [a, b, c] := by
  have ha := a.toNat_lt
  have hb := b.toNat_lt
  have hc := c.toNat_lt
  have hr1 := base64Symbol_ne_pad (n := b.toNat % 16 * 4) (by omega)
  have hr2 := base64Symbol_ne_pad (n := b.toNat % 16 * 4 + c.toNat / 64) (by omega)
  have hs := base64Symbol_ne_pad (n := c.toNat % 64) (by omega)
  refine ⟨?_, ?_, ?_⟩
  · simp only [base64LastGroup]
    rw [base64Value_symbol (by omega), base64Value_symbol (by omega)]
    simp only [and_self, if_true, show a.toNat % 4 * 16 % 16 = 0 by omega]
    simp only [Option.some.injEq, List.cons.injEq, and_true]
    apply UInt8.toNat_inj.mp; simp only [UInt8.toNat_ofNat']; omega
  · simp only [base64LastGroup]
    rw [base64Value_symbol (by omega), base64Value_symbol (by omega)]
    simp only [hr1, false_and, if_false]
    rw [base64Value_symbol (by omega)]
    simp only [if_true, show b.toNat % 16 * 4 % 4 = 0 by omega]
    simp only [Option.some.injEq, List.cons.injEq, and_true]
    refine ⟨?_, ?_⟩ <;> apply UInt8.toNat_inj.mp <;> simp only [UInt8.toNat_ofNat'] <;> omega
  · simp only [base64LastGroup]
    rw [base64Value_symbol (by omega), base64Value_symbol (by omega)]
    simp only [hr2, false_and, if_false]
    rw [base64Value_symbol (by omega)]
    simp only [hs, if_false]
    rw [base64Value_symbol (by omega)]
    simp only [Option.some.injEq, List.cons.injEq, and_true]
    refine ⟨?_, ?_, ?_⟩ <;> apply UInt8.toNat_inj.mp <;> simp only [UInt8.toNat_ofNat'] <;> omega

/-- Four symbols come out for three bytes, the last group padded. -/
theorem length_base64Encode (bytes : Bytes) :
    (base64Encode bytes).length = 4 * ((bytes.length + 2) / 3) := by
  induction bytes using base64Encode.induct with
  | case1 => rfl
  | case2 a => simp [base64Encode]
  | case3 a b => simp [base64Encode]
  | case4 a b c rest ih => simp only [base64Encode, List.length_cons, ih]; omega

/-- **Base64 reads back what it wrote.** -/
@[simp] theorem base64Decode_base64Encode (bytes : Bytes) :
    base64Decode (base64Encode bytes) = some bytes := by
  induction bytes using base64Encode.induct with
  | case1 => rfl
  | case2 a => exact (base64LastGroup_symbols a a a).1
  | case3 a b => exact (base64LastGroup_symbols a b b).2.1
  | case4 a b c rest ih =>
    -- the group just read is the last one exactly when nothing follows it
    cases hrest : base64Encode rest with
    | nil =>
      have hnil : rest = [] := by
        have := length_base64Encode rest
        rw [hrest, List.length_nil] at this
        exact List.length_eq_zero_iff.mp (by omega)
      subst hnil
      exact (base64LastGroup_symbols a b c).2.2
    | cons s more =>
      rw [hrest] at ih
      simp only [base64Encode, hrest, base64Decode, base64InnerGroup_symbols, ih,
        List.cons_append, List.nil_append]

theorem base64Symbol_ascii {n : Nat} (h : n < 64) : (base64Symbol n).toNat < 128 := by
  revert n; decide

/-- Every character is padding or a symbol. -/
theorem mem_base64Encode {bytes : Bytes} {c : UInt8} (h : c ∈ base64Encode bytes) :
    c = base64Pad ∨ ∃ n < 64, c = base64Symbol n := by
  induction bytes using base64Encode.induct with
  | case1 => cases h
  | case2 a =>
    have ha := a.toNat_lt
    simp only [base64Encode, List.mem_cons, List.not_mem_nil, or_false] at h
    rcases h with rfl | rfl | rfl | rfl
    · exact .inr ⟨_, by omega, rfl⟩
    · exact .inr ⟨_, by omega, rfl⟩
    · exact .inl rfl
    · exact .inl rfl
  | case3 a b =>
    have ha := a.toNat_lt
    have hb := b.toNat_lt
    simp only [base64Encode, List.mem_cons, List.not_mem_nil, or_false] at h
    rcases h with rfl | rfl | rfl | rfl
    · exact .inr ⟨_, by omega, rfl⟩
    · exact .inr ⟨_, by omega, rfl⟩
    · exact .inr ⟨_, by omega, rfl⟩
    · exact .inl rfl
  | case4 a b d rest ih =>
    have ha := a.toNat_lt
    have hb := b.toNat_lt
    have hd := d.toNat_lt
    simp only [base64Encode, List.mem_cons] at h
    rcases h with rfl | rfl | rfl | rfl | h
    · exact .inr ⟨_, by omega, rfl⟩
    · exact .inr ⟨_, by omega, rfl⟩
    · exact .inr ⟨_, by omega, rfl⟩
    · exact .inr ⟨_, by omega, rfl⟩
    · exact ih h

theorem isUtf8_base64Encode (bytes : Bytes) : isUtf8 (base64Encode bytes) = true := by
  refine isUtf8_of_ascii fun c hc => ?_
  rcases mem_base64Encode hc with rfl | ⟨n, hn, rfl⟩
  · decide
  · exact base64Symbol_ascii hn

end Wire

import GitE2EE.Proof.Streams

/-!
# Cryptographic contexts

What the code authenticates besides a plaintext, and what it derives keys from, says all
it is about: the associated data of a key envelope, of a manifest body, of a predecessor
link and of a pack, the bytes a signer signs, and the HKDF info of a subkey can each be
read in one way only.

Associated data begin with a domain that ends in a zero byte, so no domain is the
beginning of another. Behind it every field has a fixed width or is preceded by its
length, which is cut to 32 bits: the fields must be shorter than that.
-/

namespace GitE2EE

open Wire Effect

/-! ## Fields -/

/-- A field whose length fits its prefix. -/
def FitsField (value : Bytes) : Prop := value.length < 2 ^ 32

/-- A field can be told from what follows it. -/
theorem pushField_append_inj {a b x y : Bytes} (ha : FitsField a) (hb : FitsField b)
    (h : pushField a ++ x = pushField b ++ y) : a = b ∧ x = y := by
  rw [pushField, pushField, List.append_assoc, List.append_assoc] at h
  obtain ⟨hlength, hrest⟩ := leBytes_append_inj ha hb h
  exact List.append_inj hrest hlength

theorem pushField_inj {a b : Bytes} (ha : FitsField a) (hb : FitsField b)
    (h : pushField a = pushField b) : a = b := by
  have happend : pushField a ++ [] = pushField b ++ [] := by rw [h]
  exact (pushField_append_inj ha hb happend).1

/-! ## Associated data -/

/-- A call of one of the functions that build associated data. -/
inductive Context where
  | generationKey (root : Text) (generation : Nat) (recipientId commitment : Text)
  | manifestBody (root : Text) (generation : Nat)
  | predecessorLink (root : Text) (generation : Nat) (previousId : Text)
  | pack (root : Text) (generation ordinal : Nat)
  | packStream (baseAad header : Bytes)

namespace Context

/-- What the function returns. -/
def bytes : Context → Bytes
  | generationKey root generation recipientId commitment =>
    generationKeyAad root generation recipientId commitment
  | manifestBody root generation => manifestBodyAad root generation
  | predecessorLink root generation previousId => predecessorLinkAad root generation previousId
  | pack root generation ordinal => packAad root generation ordinal
  | packStream baseAad header => packStreamAad baseAad header

/-- Variable-length fields shorter than `2^32` bytes; the numbers are `u64`. -/
def Fits : Context → Prop
  | generationKey root generation recipientId commitment =>
    FitsField root ∧ generation < 2 ^ 64 ∧ FitsField recipientId ∧ FitsField commitment
  | manifestBody root generation => FitsField root ∧ generation < 2 ^ 64
  | predecessorLink root generation previousId =>
    FitsField root ∧ generation < 2 ^ 64 ∧ FitsField previousId
  | pack root generation ordinal => FitsField root ∧ generation < 2 ^ 64 ∧ ordinal < 2 ^ 64
  | packStream baseAad header => FitsField baseAad ∧ FitsField header

/-- What the domain of a context says it is for. -/
def purpose : Context → String
  | generationKey .. => "generation envelope"
  | manifestBody .. => "manifest body"
  | predecessorLink .. => "predecessor link"
  | pack .. => "pack"
  | packStream .. => "pack stream"

/-- Every context begins with its domain. -/
theorem domain_prefix (c : Context) : domain c.purpose <+: c.bytes := by
  cases c with
  | generationKey root generation recipientId commitment =>
    simp only [bytes, purpose, generationKeyAad, List.append_assoc]
    exact List.prefix_append _ _
  | manifestBody root generation =>
    simp only [bytes, purpose, manifestBodyAad, List.append_assoc]
    exact List.prefix_append _ _
  | predecessorLink root generation previousId =>
    simp only [bytes, purpose, predecessorLinkAad, List.append_assoc]
    exact List.prefix_append _ _
  | pack root generation ordinal =>
    simp only [bytes, purpose, packAad, List.append_assoc]
    exact List.prefix_append _ _
  | packStream baseAad header =>
    simp only [bytes, purpose, packStreamAad, List.append_assoc]
    exact List.prefix_append _ _

def purposes : List String :=
  ["generation envelope", "manifest body", "predecessor link", "pack", "pack stream"]

theorem purpose_mem (c : Context) : c.purpose ∈ purposes := by
  cases c <;> simp [purpose, purposes]

/-- No domain is the beginning of another. -/
theorem domain_apart : ∀ a ∈ purposes, ∀ b ∈ purposes, domain a <+: domain b → a = b := by
  decide

/-- Equal bytes have the same domain in front. -/
theorem purpose_eq {c c' : Context} (h : c.bytes = c'.bytes) : c.purpose = c'.purpose := by
  have hc : domain c.purpose <+: c'.bytes := h ▸ c.domain_prefix
  rcases List.prefix_or_prefix_of_prefix hc c'.domain_prefix with hle | hle
  · exact domain_apart _ c.purpose_mem _ c'.purpose_mem hle
  · exact (domain_apart _ c'.purpose_mem _ c.purpose_mem hle).symm

/-- **Equal associated data, equal calls.** -/
theorem bytes_injective {c c' : Context} (hc : c.Fits) (hc' : c'.Fits) (h : c.bytes = c'.bytes) :
    c = c' := by
  -- the domains tell the functions apart, so that only calls of one are compared
  have hpurpose := purpose_eq h
  cases c with
  | generationKey root generation recipientId commitment =>
    cases c' with
    | generationKey root' generation' recipientId' commitment' =>
      obtain ⟨hroot, hgeneration, hrecipient, hcommitment⟩ := hc
      obtain ⟨hroot', hgeneration', hrecipient', hcommitment'⟩ := hc'
      simp only [bytes, generationKeyAad, List.append_assoc] at h
      obtain ⟨rfl, hafter⟩ := pushField_append_inj hroot hroot' (List.append_cancel_left h)
      obtain ⟨rfl, hids⟩ := leBytes_append_inj hgeneration hgeneration'
        (List.append_cancel_left hafter)
      obtain ⟨rfl, hlast⟩ := pushField_append_inj hcommitment hcommitment' hids
      rw [pushField_inj hrecipient hrecipient' hlast]
    | _ => simp [purpose] at hpurpose
  | manifestBody root generation =>
    cases c' with
    | manifestBody root' generation' =>
      obtain ⟨hroot, hgeneration⟩ := hc
      obtain ⟨hroot', hgeneration'⟩ := hc'
      simp only [bytes, manifestBodyAad, List.append_assoc] at h
      obtain ⟨rfl, hafter⟩ := pushField_append_inj hroot hroot' (List.append_cancel_left h)
      rw [leBytes_injective hgeneration hgeneration' hafter]
    | _ => simp [purpose] at hpurpose
  | predecessorLink root generation previousId =>
    cases c' with
    | predecessorLink root' generation' previousId' =>
      obtain ⟨hroot, hgeneration, hprevious⟩ := hc
      obtain ⟨hroot', hgeneration', hprevious'⟩ := hc'
      simp only [bytes, predecessorLinkAad, List.append_assoc] at h
      obtain ⟨rfl, hafter⟩ := pushField_append_inj hroot hroot' (List.append_cancel_left h)
      obtain ⟨rfl, hlast⟩ := leBytes_append_inj hgeneration hgeneration' hafter
      rw [pushField_inj hprevious hprevious' hlast]
    | _ => simp [purpose] at hpurpose
  | pack root generation ordinal =>
    cases c' with
    | pack root' generation' ordinal' =>
      obtain ⟨hroot, hgeneration, hordinal⟩ := hc
      obtain ⟨hroot', hgeneration', hordinal'⟩ := hc'
      simp only [bytes, packAad, List.append_assoc] at h
      obtain ⟨rfl, hafter⟩ := pushField_append_inj hroot hroot' (List.append_cancel_left h)
      obtain ⟨rfl, hlast⟩ := leBytes_append_inj hgeneration hgeneration' hafter
      rw [leBytes_injective hordinal hordinal' hlast]
    | _ => simp [purpose] at hpurpose
  | packStream baseAad header =>
    cases c' with
    | packStream baseAad' header' =>
      obtain ⟨hbase, hheader⟩ := hc
      obtain ⟨hbase', hheader'⟩ := hc'
      simp only [bytes, packStreamAad, List.append_assoc] at h
      obtain ⟨rfl, hafter⟩ := pushField_append_inj hbase hbase' (List.append_cancel_left h)
      rw [pushField_inj hheader hheader' hafter]
    | _ => simp [purpose] at hpurpose

end Context

/-! ## Signed bytes -/

/-- **Equal signed bytes, equal parts.** -/
theorem manifestSignedBytes_injective {header content header' content' : Bytes}
    {digest digest' : Text} (hheader : FitsField header) (hcontent : FitsField content)
    (hdigest : FitsField digest) (hheader' : FitsField header') (hcontent' : FitsField content')
    (hdigest' : FitsField digest')
    (h : manifestSignedBytes header content digest = manifestSignedBytes header' content' digest') :
    header = header' ∧ content = content' ∧ digest = digest' := by
  simp only [manifestSignedBytes, List.append_assoc] at h
  obtain ⟨hfirst, hafter⟩ := pushField_append_inj hheader hheader' h
  obtain ⟨hsecond, hlast⟩ := pushField_append_inj hcontent hcontent' hafter
  exact ⟨hfirst, hsecond, pushField_inj hdigest hdigest' hlast⟩

/-! ## The info of a subkey -/

/-- 64 lowercase hexadecimal digits. -/
def LowerHex64 (root : Text) : Prop :=
  root.length = 64 ∧ ∀ c ∈ root, c ∈ text "0123456789abcdef"

/-- The HKDF info `derive_subkey` builds, if the root decodes. -/
def subkeyInfoOf (root : Text) (generation : Nat) (kind : SubkeyKind) (ordinal : Nat) :
    Option Bytes :=
  (hexDecode root).map fun root => subkeyInfo root generation kind ordinal

theorem hexDigit_of_mem {c : UInt8} (h : c ∈ text "0123456789abcdef") :
    ∃ n, n < 16 ∧ hexDigit n = c := by
  have hall : ∀ c ∈ text "0123456789abcdef", ∃ n, n < 16 ∧ hexDigit n = c := by decide +kernel
  exact hall c h

/-- Lowercase digits are the encoding of what they decode to. -/
theorem hexEncode_of_lower (n : Nat) : ∀ t : Text, t.length = 2 * n →
    (∀ c ∈ t, c ∈ text "0123456789abcdef") → ∃ bytes, bytes.length = n ∧ hexEncode bytes = t := by
  induction n with
  | zero =>
    intro t hlength _
    rw [List.length_eq_zero_iff.mp hlength]
    exact ⟨[], rfl, rfl⟩
  | succ n ih =>
    intro t hlength hdigits
    obtain ⟨high, t, rfl⟩ := List.exists_cons_of_length_pos (by omega : 0 < t.length)
    rw [List.length_cons] at hlength
    obtain ⟨low, t, rfl⟩ := List.exists_cons_of_length_pos (by omega : 0 < t.length)
    rw [List.length_cons] at hlength
    obtain ⟨bytes, hbytes, hencode⟩ := ih t (by omega) fun c hc =>
      hdigits c (List.mem_cons_of_mem _ (List.mem_cons_of_mem _ hc))
    obtain ⟨h, hh, rfl⟩ := hexDigit_of_mem (hdigits high List.mem_cons_self)
    obtain ⟨l, hl, rfl⟩ :=
      hexDigit_of_mem (hdigits low (List.mem_cons_of_mem _ List.mem_cons_self))
    refine ⟨UInt8.ofNat (16 * h + l) :: bytes, by rw [List.length_cons, hbytes], ?_⟩
    -- two digits make one byte
    have hvalue : (UInt8.ofNat (16 * h + l)).toNat = 16 * h + l :=
      UInt8.toNat_ofNat_of_lt' (by show 16 * h + l < 256; omega)
    show hexDigit ((UInt8.ofNat (16 * h + l)).toNat / 16)
      :: hexDigit ((UInt8.ofNat (16 * h + l)).toNat % 16) :: hexEncode bytes = _
    rw [hvalue, hencode, show (16 * h + l) / 16 = h by omega, show (16 * h + l) % 16 = l by omega]

/-- Such a root decodes to 32 bytes, which encode to it. -/
theorem LowerHex64.decode {root : Text} (h : LowerHex64 root) :
    ∃ bytes, bytes.length = 32 ∧ hexDecode root = some bytes ∧ hexEncode bytes = root := by
  obtain ⟨bytes, hlength, rfl⟩ := hexEncode_of_lower 32 root h.1 h.2
  exact ⟨bytes, hlength, hexDecode_hexEncode bytes, rfl⟩

theorem SubkeyKind.code_injective {kind kind' : SubkeyKind} (h : kind.code = kind'.code) :
    kind = kind' := by
  cases kind <;> cases kind' <;> first | rfl | exact absurd h (by decide)

/-- Roots of one length: the info has a fixed layout. -/
theorem subkeyInfo_injective {root root' : Bytes} {generation generation' ordinal ordinal' : Nat}
    {kind kind' : SubkeyKind} (hroot : root.length = root'.length)
    (hgeneration : generation < 2 ^ 64)
    (hgeneration' : generation' < 2 ^ 64) (hordinal : ordinal < 2 ^ 64)
    (hordinal' : ordinal' < 2 ^ 64)
    (h : subkeyInfo root generation kind ordinal = subkeyInfo root' generation' kind' ordinal') :
    root = root' ∧ generation = generation' ∧ kind = kind' ∧ ordinal = ordinal' := by
  simp only [subkeyInfo, List.append_assoc] at h
  obtain ⟨hr, hafter⟩ := List.append_inj h hroot
  obtain ⟨hg, htail⟩ := leBytes_append_inj hgeneration hgeneration' hafter
  obtain ⟨hk, hlast⟩ := List.cons_eq_cons.mp htail
  exact ⟨hr, hg, SubkeyKind.code_injective hk, leBytes_injective hordinal hordinal' hlast⟩

/-- **Equal info, equal subkey.** -/
theorem subkeyInfoOf_injective {root root' : Text} {generation generation' ordinal ordinal' : Nat}
    {kind kind' : SubkeyKind} (hroot : LowerHex64 root) (hroot' : LowerHex64 root')
    (hgeneration : generation < 2 ^ 64) (hgeneration' : generation' < 2 ^ 64)
    (hordinal : ordinal < 2 ^ 64) (hordinal' : ordinal' < 2 ^ 64)
    (h : subkeyInfoOf root generation kind ordinal
      = subkeyInfoOf root' generation' kind' ordinal') :
    root = root' ∧ generation = generation' ∧ kind = kind' ∧ ordinal = ordinal' := by
  obtain ⟨bytes, hlength, hdecode, rfl⟩ := hroot.decode
  obtain ⟨bytes', hlength', hdecode', rfl⟩ := hroot'.decode
  rw [subkeyInfoOf, subkeyInfoOf, hdecode, hdecode'] at h
  obtain ⟨hr, hrest⟩ := subkeyInfo_injective (hlength.trans hlength'.symm) hgeneration hgeneration'
    hordinal hordinal' (Option.some.inj h)
  exact ⟨by rw [hr], hrest⟩

end GitE2EE

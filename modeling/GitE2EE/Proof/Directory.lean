import GitE2EE.Model.Directory
import GitE2EE.Model.Repository
import GitE2EE.Proof.Publishing

/-!
# A directory that holds a chain

What `FilesystemStorage` reads back of what it wrote: HEAD as an id, an object as its
bytes. A directory with the manifests of an authentic chain and a HEAD that names the
newest one serves that chain to every reader.
-/

namespace GitE2EE

open Wire Effect

variable {P : Primitives} {root : Text} {location : String}

/-! ## HEAD -/

/-- The characters of an id. -/
def IsLowerHex (b : UInt8) : Prop :=
  48 ≤ b.toNat ∧ b.toNat ≤ 57 ∨ 97 ≤ b.toNat ∧ b.toNat ≤ 102

theorem isObjectId_iff {id : Text} :
    isObjectId id = true ↔ id.length = 64 ∧ ∀ b ∈ id, IsLowerHex b := by
  simp [isObjectId, IsLowerHex]

theorem IsLowerHex.not_whitespace {b : UInt8} (h : IsLowerHex b) :
    isWhitespace b.toNat = false := by
  unfold IsLowerHex at h
  simp only [isWhitespace, Bool.or_eq_false_iff, Bool.and_eq_false_iff, beq_eq_false_iff_ne,
    decide_eq_false_iff_not]
  omega

/-- A text without white space, and the line feed behind it. -/
theorem trim_line {characters : List Nat} (hne : characters ≠ [])
    (h : ∀ c ∈ characters, isWhitespace c = false) :
    StoredHead.trim (characters ++ [10]) = characters := by
  have hkeep : ∀ {l : List Nat}, l ≠ [] → (∀ c ∈ l, isWhitespace c = false) → ∀ rest,
      (l ++ rest).dropWhile isWhitespace = l ++ rest := by
    intro l hl hall rest
    obtain ⟨c, l, rfl⟩ := List.exists_cons_of_ne_nil hl
    rw [List.cons_append, List.dropWhile_cons_of_neg (by simp [hall c List.mem_cons_self])]
  -- from the back: the line feed goes, and nothing else
  have hback := hkeep (l := characters.reverse) (by simpa using hne)
    (fun c hc => h c (List.mem_reverse.mp hc)) []
  rw [List.append_nil] at hback
  rw [StoredHead.trim, hkeep hne h, List.reverse_append, List.reverse_singleton,
    List.singleton_append, List.dropWhile_cons_of_pos rfl, hback, List.reverse_reverse]

/-- **HEAD reads back as the id that was written.** -/
theorem headId_written {id : Text} (h : isObjectId id = true) :
    StoredHead.headId (.bytes (id ++ [10])) = some id := by
  obtain ⟨hlength, hhex⟩ := isObjectId_iff.mp h
  have hascii : ∀ b ∈ id, b.toNat < 128 := by
    intro b hb
    have hb' := hhex b hb
    unfold IsLowerHex at hb'
    omega
  -- ASCII is its own UTF-8
  have hdecode : decodeUtf8 (id ++ [10]) = some (id.map UInt8.toNat ++ [10]) := by
    rw [decodeUtf8_ascii fun b hb => ?_, List.map_append]
    · rfl
    · rcases List.mem_append.mp hb with hb | hb
      · exact hascii b hb
      · rw [List.mem_singleton.mp hb]
        decide
  have htrim : StoredHead.trim (id.map UInt8.toNat ++ [10]) = id.map UInt8.toNat := by
    refine trim_line ?_ fun c hc => ?_
    · intro hnil
      rw [List.map_eq_nil_iff] at hnil
      simp [hnil] at hlength
    · obtain ⟨b, hb, rfl⟩ := List.mem_map.mp hc
      exact (hhex b hb).not_whitespace
  have hback : (id.map UInt8.toNat).map UInt8.ofNat = id := by
    rw [List.map_map]
    exact (List.map_congr_left fun b _ => by simp).trans (List.map_id id)
  simp only [StoredHead.headId, hdecode, htrim, hback, Option.bind_eq_bind, Option.bind_some]
  have hall : ((id.map UInt8.toNat).all (· < 128)) = true := by simpa using hascii
  exact if_pos ⟨hall, h⟩

/-- A digest is an id. -/
theorem isObjectId_digest {id : Text} (h : IsDigest id) : isObjectId id = true := by
  obtain ⟨digest, rfl⟩ := h
  rw [isObjectId, hexEncode_lower, length_hexEncode, digest.property]
  rfl

namespace Directory

/-- FORMAT and HEAD as this program writes them. -/
structure Formatted (d : Directory) (head : Option Text) : Prop where
  format : d.format = some (.regular STORAGE_FORMAT)
  valid : ∀ id, head = some id → isObjectId id = true
  names : d.head = head.map writtenHead

/-- Its FORMAT is accepted. -/
theorem Formatted.checkFormat {d : Directory} {head : Option Text} (h : d.Formatted head) :
    d.checkFormat location = .ok () := by
  have hlimit : ¬ MAX_STORAGE_FORMAT_BYTES < STORAGE_FORMAT.length := by decide
  simp only [Directory.checkFormat, readRootFile, h.format, readRegularBounded, if_neg hlimit,
    checkStorageFormat]
  rfl

/-- Its HEAD is small enough to be read. -/
theorem Formatted.readStoredHead {d : Directory} {head : Option Text} (h : d.Formatted head) :
    d.readStoredHead = head.map fun id => .bytes (id ++ [10]) := by
  cases head with
  | none => simp [Directory.readStoredHead, h.names, readRegularBounded, StoredHead.fromBounded]
  | some id =>
    have hlength := (isObjectId_iff.mp (h.valid id rfl)).1
    have hlimit : ¬ MAX_HEAD_BYTES < (id ++ [10]).length := by
      simp [MAX_HEAD_BYTES, hlength]
    simp only [Directory.readStoredHead, h.names, Option.map_some, writtenHead, readRegularBounded,
      if_neg hlimit, StoredHead.fromBounded]

/-- **Its head is the one it was written with.** -/
theorem Formatted.readHead {d : Directory} {head : Option Text} (h : d.Formatted head) :
    d.readHead location = .ok head := by
  simp only [Directory.readHead, h.checkFormat, h.readStoredHead, except_bind_eq_ok]
  refine ⟨(), trivial, ?_⟩
  cases head with
  | none => rfl
  | some id =>
    simp only [Option.map_some, except_bind_eq_ok, StoredHead.parse, orBail_eq_ok]
    exact ⟨id, headId_written (h.valid id rfl), rfl⟩

/-- Manifests stored under their ids. -/
def Holds (P : Primitives) (objects : List Bytes) (d : Directory) : Prop :=
  ∀ object ∈ objects, d.objects .manifest (objectId P object) = some (.regular object)

/-- A manifest that is there and not too large is returned. -/
theorem getObject_held {d : Directory} {id : Text} {object : Bytes} (hid : isObjectId id = true)
    (h : d.objects .manifest id = some (.regular object))
    (hsmall : object.length ≤ MAX_MANIFEST_BYTES) :
    (storage P location).getObject .manifest id d = (.ok object, d) := by
  have hopen : (d.openObject location .manifest id) = .ok ⟨object, none⟩ := by
    have hlimit : ¬ ObjectKind.manifest.maxBytes < object.length := Nat.not_lt.mpr hsmall
    simp only [openObject, validateId, hid, except_bind_eq_ok, h, openEntry, if_neg hlimit]
    exact ⟨(), by simp, rfl⟩
  refine Action.bind_eq_ok.mpr ⟨⟨object, none⟩, d, ?_, ?_⟩
  · show (d.openObject location .manifest id, d) = _
    rw [hopen]
  · show (Storage.buffered ⟨object, none⟩, d) = _
    rw [Storage.buffered, if_neg (Nat.not_lt.mpr hsmall)]
    rfl

/-- **A directory serves the manifests it holds.** -/
theorem Holds.serves {objects : List Bytes} {d : Directory} (h : d.Holds P objects)
    (hsmall : ∀ object ∈ objects, object.length ≤ MAX_MANIFEST_BYTES) :
    Serves (readManifestMaterial P (storage P location)) unbudgeted (Shelved P objects)
      (fun _ s => s = d) := by
  rintro n s name m rfl ⟨hmem, hcheck⟩
  obtain ⟨-, -, hid, -⟩ := checkMaterial_ok hcheck
  refine ⟨s, s, Action.bind_eq_ok.mpr ⟨m.encrypted, s, ?_, ?_⟩, rfl, rfl⟩
  · refine getObject_held (isObjectId_digest ⟨_, hid.symm⟩) ?_ (hsmall _ hmem)
    rw [← hid]
    exact h _ hmem
  · exact Action.lift_eq_ok.mpr ⟨hcheck, rfl⟩

/-- A directory with an authentic chain and its head. -/
theorem currentChain_held {objects : List Bytes} {d : Directory} (h : d.Holds P objects)
    (hsmall : ∀ object ∈ objects, object.length ≤ MAX_MANIFEST_BYTES)
    (hinj : Set.InjOn (objectId P) { object | object ∈ objects }) {head : OpenedState}
    {below : List OpenedState} (hchain : Authentic P root (Shelved P objects) (head :: below))
    (hpacks : (packIds (head :: below)).Nodup) {key : KeyFile} (hroot : key.repositoryRoot = root)
    (hkey : unwrapGenerationKey P head.header key = .ok head.generationKey)
    (hhead : d.Formatted (some head.id)) :
    currentChain P (storage P location) key d = (.ok (head :: below), d) := by
  have hserves : Serves (readManifestMaterial P (storage P location)) unbudgeted
      (Shelved P objects) (fun _ s => s = d) := h.serves hsmall
  obtain ⟨d', hwalk, rfl⟩ := chainFrom_of_authentic (shelved_archive hinj) hserves hchain hpacks
    hroot hkey (n := 0) rfl
  refine Action.bind_eq_ok.mpr ⟨some head.id, d', ?_, Action.bind_eq_ok.mpr
    ⟨head.id, d', Action.lift_eq_ok.mpr ⟨rfl, rfl⟩, hwalk⟩⟩
  show (d'.readHead location, d') = _
  rw [hhead.readHead]

/-! ## Publishing -/

/-- A new object, checked and stored. -/
theorem putObject_new {d : Directory} {id : Text} {object : Bytes} (hid : objectId P object = id)
    (hsmall : object.length ≤ MAX_MANIFEST_BYTES) (hnew : d.objects .manifest id = none) :
    (storage P location).putObjectIfAbsent .manifest id object d
      = (.ok (), d.withObject .manifest id object) := by
  have hobject : isObjectId id = true := isObjectId_digest ⟨_, hid.symm⟩
  have hstage : checkStage P .manifest object id = .ok () := by
    have hlimit : ¬ ObjectKind.manifest.maxBytes < object.length := Nat.not_lt.mpr hsmall
    simp only [checkStage, if_neg hlimit, except_bind_eq_ok, validateId, bailIf_eq_ok]
    exact ⟨(), by simp [hobject], by simp [hid]⟩
  refine Action.bind_eq_ok.mpr ⟨(), d, rfl, Action.bind_eq_ok.mpr ⟨(), d,
    Action.lift_eq_ok.mpr ⟨hstage, rfl⟩, ?_⟩⟩
  simp only [publishObject, hnew]

/-- The swap of a head that is what the caller expects. -/
theorem compareAndSwapHead_held {d : Directory} {head : Option Text} {next : Text}
    (hhead : d.readHead location = .ok head) (hnext : isObjectId next = true) :
    (storage P location).compareAndSwapHead head next d
      = (.ok (), d.replaceHead next head.isNone) := by
  refine Action.bind_eq_ok.mpr ⟨(), d, Action.lift_eq_ok.mpr
    ⟨by simp [validateId, hnext], rfl⟩, Action.bind_eq_ok.mpr ⟨d, d, rfl, ?_⟩⟩
  refine Action.bind_eq_ok.mpr ⟨head, d, Action.lift_eq_ok.mpr ⟨hhead, rfl⟩, ?_⟩
  simp only [ne_eq, not_true, if_false]
  rfl

theorem readHead_withObject {d : Directory} (kind : ObjectKind) (id : Text) (object : Bytes) :
    (d.withObject kind id object).readHead location = d.readHead location := rfl

/-- A swap leaves a directory of this format, and a genesis makes one. -/
theorem formatted_replaceHead {d : Directory} {id : Text} {genesis : Bool}
    (hid : isObjectId id = true)
    (hformat : genesis = false → d.format = some (.regular STORAGE_FORMAT)) :
    (d.replaceHead id genesis).Formatted (some id) where
  format := by
    cases genesis with
    | true => rfl
    | false => exact hformat rfl
  valid := by
    rintro _ ⟨⟩
    exact hid
  names := rfl

/-- **A commit on a directory**: the new manifest is stored and HEAD names it. -/
theorem commitManifest_held {d : Directory} {key : KeyFile} {coins : Coins}
    {previous : Option OpenedState} {prepared : Prepared} {id : Text} {encrypted : Bytes}
    (hsealed : sealNext P key coins previous prepared = .ok (id, encrypted))
    (hcheck : selfCheck P previous prepared encrypted = .ok ())
    (hsmall : encrypted.length ≤ MAX_MANIFEST_BYTES) (hnew : d.objects .manifest id = none)
    (hhead : d.readHead location = .ok (previous.map OpenedState.id)) :
    commitManifest P (storage P location) key coins previous prepared d
      = (.ok id, (d.withObject .manifest id encrypted).replaceHead id previous.isNone) := by
  obtain ⟨-, -, -, -, hid⟩ := sealNext_eq_ok.mp hsealed
  have hobject : isObjectId id = true := isObjectId_digest ⟨_, hid⟩
  refine Action.bind_eq_ok.mpr ⟨id, d.withObject .manifest id encrypted, ?_, ?_⟩
  · refine Action.bind_eq_ok.mpr ⟨(id, encrypted), d, Action.lift_eq_ok.mpr ⟨hsealed, rfl⟩, ?_⟩
    refine Action.bind_eq_ok.mpr ⟨(), _, putObject_new hid.symm hsmall hnew, ?_⟩
    exact Action.bind_eq_ok.mpr ⟨(), _, Action.lift_eq_ok.mpr ⟨hcheck, rfl⟩, rfl⟩
  · refine Action.bind_eq_ok.mpr ⟨(), _, compareAndSwapHead_held
      ((readHead_withObject _ _ _).trans hhead) hobject, ?_⟩
    cases previous <;> rfl

end Directory

end GitE2EE

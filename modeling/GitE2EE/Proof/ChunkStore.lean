import GitE2EE.Proof.Chunks
import GitE2EE.Proof.Samples

/-!
# The object store of a carrier

The directory of an object is read in two ways: file by file from the checkout, and blob by
blob from a commit, by way of the listing Git prints of it. Both take it for an object if and
only if its files are the chunks of one, except that the listing has no place for a file with
its executable bit set. The stage writes such directories, in whatever pieces the object comes.
-/

namespace GitE2EE

open Wire Effect

/-! ## Directories of chunks -/

/-- A regular file, as a checkout and as the tree of a commit has it. -/
structure TreeFile where
  name : Text
  content : Bytes
  executable : Bool

/-- The directory of an object. Git keeps the contents of its files as blobs. -/
structure ObjectTree where
  directory : Text
  files : List TreeFile
  git : ObjectNames
  blobId : Bytes → Text
  ascii : ∀ b ∈ directory, b.toNat < 128 ∧ b ≠ 0
  names : ∀ file ∈ files, (0 : UInt8) ∉ file.name
  blobs : ∀ file ∈ files, HasBlob git (blobId file.content) file.content

def TreeFile.entry (file : TreeFile) : DirEntry := ⟨file.name, some file.content⟩

namespace ObjectTree

/-- What `read_dir` returns. -/
def entries (tree : ObjectTree) : List DirEntry := tree.files.map TreeFile.entry

def pathOf (tree : ObjectTree) (file : TreeFile) : Text := tree.directory ++ [47] ++ file.name

def modeOf (file : TreeFile) : Text := if file.executable then text "100755" else text "100644"

/-- A file, as `git ls-tree -r -z` prints it. -/
def line (tree : ObjectTree) (file : TreeFile) : Bytes :=
  modeOf file ++ [32] ++ text "blob" ++ [32] ++ tree.blobId file.content ++ [9] ++ tree.pathOf file

def listing (tree : ObjectTree) : Bytes := tree.files.flatMap fun file => tree.line file ++ [0]

def chunkOf (tree : ObjectTree) (file : TreeFile) : Text × Text :=
  (tree.pathOf file, tree.blobId file.content)

/-- Git can list the file as a chunk. -/
def Listable (tree : ObjectTree) (file : TreeFile) : Prop :=
  file.executable = false ∧ isUtf8 (tree.pathOf file) = true

variable {tree : ObjectTree}

theorem modeOf_bytes (file : TreeFile) :
    modeOf file ≠ [] ∧ ∀ b ∈ modeOf file, b.toNat < 128 ∧ isAsciiWhitespace b = false ∧ b ≠ 0 := by
  unfold modeOf
  cases file.executable <;> decide +kernel

/-- The fields in front of the path. -/
theorem asciiFields_metadata {file : TreeFile} (hfile : file ∈ tree.files) :
    asciiFields (modeOf file ++ [32] ++ text "blob" ++ [32] ++ tree.blobId file.content)
      = [modeOf file, text "blob", tree.blobId file.content] := by
  obtain ⟨hne, hbytes⟩ := isGitId_bytes (tree.blobs file hfile).isId
  obtain ⟨hmode, hmodes⟩ := modeOf_bytes file
  have hblob : ∀ b ∈ text "blob", isAsciiWhitespace b = false := by decide +kernel
  have hspace : isAsciiWhitespace 32 = true := rfl
  rw [asciiFields, List.append_assoc, List.append_assoc, List.append_assoc, List.singleton_append,
    List.singleton_append, Split.words_append (fun b hb => (hmodes b hb).2.1) hmode hspace,
    Split.words_append hblob (by decide) hspace,
    Split.words_singleton (fun b hb => (hbytes b hb).2.1) hne]

theorem metadata_bytes {file : TreeFile} (hfile : file ∈ tree.files) :
    ∀ b ∈ modeOf file ++ [32] ++ text "blob" ++ [32] ++ tree.blobId file.content,
      b.toNat < 128 ∧ b ≠ 0 ∧ b ≠ 9 := by
  obtain ⟨-, hbytes⟩ := isGitId_bytes (tree.blobs file hfile).isId
  obtain ⟨-, hmodes⟩ := modeOf_bytes file
  have hblob : ∀ b ∈ text "blob", b.toNat < 128 ∧ b ≠ 0 ∧ b ≠ 9 := by decide +kernel
  intro b hb
  simp only [List.mem_append, List.mem_singleton] at hb
  rcases hb with (((hb | rfl) | hb) | rfl) | hb
  · refine ⟨(hmodes b hb).1, (hmodes b hb).2.2, fun h => ?_⟩
    have := (hmodes b hb).2.1
    rw [h] at this
    cases this
  · decide
  · exact hblob b hb
  · decide
  · exact ⟨(hbytes b hb).1, (hbytes b hb).2.2.2⟩

/-- **One entry of the listing** is taken for a chunk if it is a plain file with a name in UTF-8. -/
theorem parseChunkEntry_line {file : TreeFile} (hfile : file ∈ tree.files) (chunk : Text × Text) :
    parseChunkEntry tree.directory (tree.line file) = .ok chunk
      ↔ tree.Listable file ∧ chunk = tree.chunkOf file := by
  have hmetadata := metadata_bytes hfile
  have hsplit : Split.splitOnce 9 (tree.line file)
      = some (modeOf file ++ [32] ++ text "blob" ++ [32] ++ tree.blobId file.content,
          tree.pathOf file) := by
    rw [line, List.append_assoc _ [9], List.singleton_append]
    exact Split.splitOnce_append (fun h => (hmetadata 9 h).2.2 rfl) _
  have hutf8 : isUtf8 (modeOf file ++ [32] ++ text "blob" ++ [32] ++ tree.blobId file.content)
      = true :=
    isUtf8_of_ascii fun b hb => (hmetadata b hb).1
  have hinside : tree.directory ++ [47] <+: tree.pathOf file := List.prefix_append _ _
  rw [parseChunkEntry, hsplit]
  dsimp only
  rw [if_neg (by rw [hutf8]; decide), asciiFields_metadata hfile]
  dsimp only
  rw [Listable]
  -- the checks in the source's order: the path is UTF-8, the mode is 100644, it is in the directory
  cases hname : isUtf8 (tree.pathOf file) with
  | false => simp
  | true =>
    rw [if_neg (by decide)]
    cases hmode : file.executable with
    | true =>
      have hother : text "100755" ≠ text "100644" := by decide
      simp [modeOf, hmode, hother]
    | false =>
      rw [if_neg (by simp [modeOf, hmode]), if_neg (by simp [hinside])]
      simp [chunkOf, eq_comm]

theorem words_listing (tree : ObjectTree) :
    Split.words (· == 0) tree.listing = tree.files.map tree.line := by
  have hlines : ∀ files : List TreeFile, (∀ file ∈ files, file ∈ tree.files) →
      Split.words (· == 0) (files.flatMap fun file => tree.line file ++ [0])
        = files.map tree.line := by
    intro files
    -- on part of the files, since the tree that keeps NUL out of the names has to stay the same
    induction files with
    | nil => exact fun _ => rfl
    | cons file rest ih =>
      intro hfiles
      have hfile := hfiles file List.mem_cons_self
      -- a line holds no NUL: not its metadata, not the directory, not the file's name
      have hword : ∀ b ∈ tree.line file, (b == 0) = false := by
        intro b hb
        rw [beq_eq_false_iff_ne]
        rw [line, List.append_assoc _ [9]] at hb
        rcases List.mem_append.mp hb with hb | hb
        · exact (metadata_bytes hfile b hb).2.1
        · simp only [pathOf, List.singleton_append, List.mem_cons, List.mem_append,
            List.not_mem_nil, or_false] at hb
          rcases hb with rfl | ((hb | rfl) | hb)
          · decide
          · exact (tree.ascii b hb).2
          · decide
          · rintro rfl
            exact tree.names file hfile hb
      have hne : tree.line file ≠ [] := by simp [line]
      rw [List.flatMap_cons, List.append_assoc, List.singleton_append,
        Split.words_append hword hne rfl, ih fun f hf => hfiles f (List.mem_cons_of_mem _ hf),
        List.map_cons]
  exact hlines tree.files fun _ h => h

theorem mapM_lines (tree : ObjectTree) (chunks : List (Text × Text)) :
    (tree.files.map tree.line).mapM (parseChunkEntry tree.directory) = .ok chunks
      ↔ (∀ file ∈ tree.files, tree.Listable file) ∧ chunks = tree.files.map tree.chunkOf := by
  have hlines : ∀ (files : List TreeFile) (chunks : List (Text × Text)),
      (∀ file ∈ files, file ∈ tree.files) →
      ((files.map tree.line).mapM (parseChunkEntry tree.directory) = .ok chunks
        ↔ (∀ file ∈ files, tree.Listable file) ∧ chunks = files.map tree.chunkOf) := by
    intro files
    induction files with
    | nil =>
      intro chunks _
      simp [pure, Except.pure, eq_comm]
    | cons file rest ih =>
      intro chunks hfiles
      rw [List.map_cons, List.mapM_cons, except_bind_eq_ok, List.forall_mem_cons]
      constructor
      · rintro ⟨chunk, hchunk, h⟩
        rw [except_bind_eq_ok] at h
        obtain ⟨others, hothers, h⟩ := h
        cases h
        obtain ⟨hlistable, rfl⟩ :=
          (parseChunkEntry_line (hfiles file List.mem_cons_self) _).mp hchunk
        obtain ⟨hall, rfl⟩ := (ih _ fun f hf => hfiles f (List.mem_cons_of_mem _ hf)).mp hothers
        exact ⟨⟨hlistable, hall⟩, rfl⟩
      · rintro ⟨⟨hlistable, hall⟩, rfl⟩
        refine ⟨_, (parseChunkEntry_line (hfiles file List.mem_cons_self) _).mpr ⟨hlistable, rfl⟩,
          ?_⟩
        rw [except_bind_eq_ok]
        exact ⟨_, (ih _ fun f hf => hfiles f (List.mem_cons_of_mem _ hf)).mpr ⟨hall, rfl⟩, rfl⟩
  exact hlines tree.files chunks fun _ h => h

/-! ### In order -/

/-- The files in the order of their names. -/
def sorted (tree : ObjectTree) : List TreeFile :=
  tree.files.mergeSort fun a b => lexLe a.name b.name

theorem sorted_perm (tree : ObjectTree) : tree.sorted.Perm tree.files := List.mergeSort_perm _ _

theorem sortByName_entries (tree : ObjectTree) :
    sortByName tree.entries = tree.sorted.map TreeFile.entry := by
  refine (List.map_mergeSort fun a _ b _ => ?_).symm
  rfl

theorem mergeSort_chunks (tree : ObjectTree) :
    (tree.files.map tree.chunkOf).mergeSort (fun a b => lexLe a.1 b.1)
      = tree.sorted.map tree.chunkOf := by
  refine (List.map_mergeSort fun a _ b _ => ?_).symm
  rw [chunkOf, chunkOf, pathOf, pathOf, lexLe_append_left]

/-- The paths are numbered if the files are. -/
theorem checkChunkPaths_iff (tree : ObjectTree) (index : Nat) (files : List TreeFile) :
    checkChunkPaths tree.directory index (files.map tree.chunkOf) = true
      ↔ files.map TreeFile.entry = numbered index (files.map TreeFile.content) := by
  induction files generalizing index with
  | nil => simp [checkChunkPaths, numbered]
  | cons file rest ih =>
    rw [List.map_cons, checkChunkPaths, Bool.and_eq_true, ih, List.map_cons, List.map_cons,
      numbered,
      List.cons.injEq]
    simp [chunkOf, pathOf, TreeFile.entry]

theorem chunkName_ascii {index : Nat} (h : index ≤ MAX_CHUNKS_PER_OBJECT) :
    ∀ b ∈ chunkName index, b.toNat < 128 := by
  have hmax : MAX_CHUNKS_PER_OBJECT = 4096 := rfl
  intro b hb
  rw [chunkName, zeroPadded_eq (by decide) (by omega)] at hb
  have := mem_padded hb
  omega

/-- No file has its executable bit set. -/
def Plain (tree : ObjectTree) : Prop := ∀ file ∈ tree.files, file.executable = false

theorem isUtf8_pathOf {file : TreeFile} (h : ∀ b ∈ file.name, b.toNat < 128) :
    isUtf8 (tree.pathOf file) = true := by
  refine isUtf8_of_ascii fun b hb => ?_
  simp only [pathOf, List.mem_append, List.mem_singleton] at hb
  rcases hb with (hb | rfl) | hb
  · exact (tree.ascii b hb).1
  · decide
  · exact h b hb

/-- **The listing** is accepted if the files are plain and numbered, and the chunks it gives are the
files in order. -/
theorem parseChunkListing_ok (tree : ObjectTree)
    (hcount : tree.files.length ≤ MAX_CHUNKS_PER_OBJECT)
    (chunks : List (Text × Text)) :
    parseChunkListing tree.listing tree.directory = .ok chunks
      ↔ tree.Plain ∧ tree.files ≠ []
        ∧ sortByName tree.entries = numbered 0 (tree.sorted.map TreeFile.content)
        ∧ chunks = tree.sorted.map tree.chunkOf := by
  have hlength : tree.sorted.length = tree.files.length := tree.sorted_perm.length_eq
  have hnil : tree.sorted.map tree.chunkOf = [] ↔ tree.files = [] := by
    rw [List.map_eq_nil_iff, ← List.length_eq_zero_iff, hlength, List.length_eq_zero_iff]
  rw [parseChunkListing, words_listing, except_bind_eq_ok]
  constructor
  · rintro ⟨parsed, hparsed, h⟩
    obtain ⟨hlistable, rfl⟩ := (tree.mapM_lines _).mp hparsed
    dsimp only at h
    rw [mergeSort_chunks] at h
    split at h
    · cases h
    · rename_i hsome
      split at h
      · cases h
      · rename_i hpaths
        cases h
        rw [not_or, hnil] at hsome
        refine ⟨fun file hfile => (hlistable file hfile).1, hsome.1, ?_, rfl⟩
        rw [sortByName_entries]
        exact (tree.checkChunkPaths_iff 0 _).mp (by simpa using hpaths)
  · rintro ⟨hplain, hne, hnumbered, rfl⟩
    -- the chunk names are digits, so that no accepted name can fail the UTF-8 check
    have hnames : ∀ file ∈ tree.files, tree.Listable file := by
      intro file hfile
      refine ⟨hplain file hfile, isUtf8_pathOf ?_⟩
      have hmem : file.entry ∈ sortByName tree.entries :=
        (sortByName_perm _).mem_iff.mpr (List.mem_map_of_mem hfile)
      rw [hnumbered] at hmem
      obtain ⟨i, -, hi, hname⟩ := mem_numbered hmem
      rw [List.length_map, hlength, Nat.zero_add] at hi
      rw [show file.name = chunkName i from hname]
      exact chunkName_ascii (by omega)
    refine ⟨_, (tree.mapM_lines _).mpr ⟨hnames, rfl⟩, ?_⟩
    dsimp only
    rw [mergeSort_chunks, if_neg, if_neg]
    · rw [sortByName_entries, ← tree.checkChunkPaths_iff] at hnumbered
      rw [hnumbered]
      decide
    · rw [not_or, hnil, List.length_map, hlength]
      exact ⟨hne, by omega⟩

theorem hasBlobs_sorted (tree : ObjectTree) :
    GitChunkReader.HasBlobs tree.git (tree.sorted.map tree.chunkOf)
      (tree.sorted.map TreeFile.content) := by
  rw [GitChunkReader.HasBlobs, List.forall₂_map_left_iff, List.forall₂_map_right_iff,
    List.forall₂_same]
  exact fun file hfile => tree.blobs file (tree.sorted_perm.mem_iff.mp hfile)

end ObjectTree

/-! ## Writing -/

theorem canonical_concat {full : List Bytes} {last : Bytes}
    (hfull : ∀ chunk ∈ full, chunk.length = CARRIER_CHUNK_BYTES) (hlast : last ≠ [])
    (hle : last.length ≤ CARRIER_CHUNK_BYTES) : Canonical (full ++ [last]) := by
  induction full with
  | nil => exact ⟨List.length_pos_iff.mpr hlast, hle⟩
  | cons chunk rest ih =>
    obtain ⟨hchunk, hrest⟩ := List.forall_mem_cons.mp hfull
    exact .cons hchunk (ih hrest)

theorem canonical_full {full : List Bytes}
    (hfull : ∀ chunk ∈ full, chunk.length = CARRIER_CHUNK_BYTES) (hne : full ≠ []) :
    Canonical full := by
  have hpos := chunk_pos
  have hlast := hfull _ (List.getLast_mem hne)
  rw [← List.dropLast_concat_getLast hne]
  refine canonical_concat (fun chunk h => hfull chunk (List.dropLast_subset _ h)) ?_
    (Nat.le_of_eq hlast)
  exact List.length_pos_iff.mp (by omega)

namespace CarrierObjectStage

/-- The stage after `written`: full chunks, and what has been written to the open one. -/
structure Staged (written : Bytes) (full : List Bytes) (part : Bytes) (stage : CarrierObjectStage) :
    Prop where
  whole : written = full.flatten ++ part
  full_chunks : ∀ chunk ∈ full, chunk.length = CARRIER_CHUNK_BYTES
  part_lt : part.length < CARRIER_CHUNK_BYTES
  files : stage.files = numbered 0 full
  index : stage.chunkIndex = full.length
  closed : stage.current = none → part = []
  opened : ∀ content, stage.current = some content → content = part ∧ stage.chunkLen = part.length

theorem staged_new : Staged [] [] [] new :=
  ⟨rfl, by simp, chunk_pos, rfl, rfl, fun _ => rfl, by simp [new]⟩

variable {written part : Bytes} {full : List Bytes} {stage : CarrierObjectStage}

theorem Staged.length_eq (h : Staged written full part stage) :
    written.length = full.length * CARRIER_CHUNK_BYTES + part.length := by
  rw [h.whole, List.length_append, List.length_flatten,
    List.map_congr_left (g := fun _ => CARRIER_CHUNK_BYTES) h.full_chunks, List.map_const',
    List.sum_replicate_nat]

/-- With a chunk to spare, there is an open one to write to. -/
theorem Staged.openChunk (h : Staged written full part stage)
    (hroom : written.length < MAX_OBJECT_BYTES) :
    ∃ stage', CarrierObjectStage.openChunk stage = .ok stage' ∧ Staged written full part stage'
      ∧ stage'.current = some part ∧ stage'.chunkLen = part.length := by
  have hlength := h.length_eq
  cases hcurrent : stage.current with
  | some content =>
    obtain ⟨rfl, hlen⟩ := h.opened content hcurrent
    exact ⟨stage, by rw [CarrierObjectStage.openChunk, hcurrent], h, hcurrent, hlen⟩
  | none =>
    have hpart := h.closed hcurrent
    -- every chunk so far is full, so their number is bounded by the bytes written
    have hcount : full.length < MAX_CHUNKS_PER_OBJECT := by
      have hmul : full.length * CARRIER_CHUNK_BYTES
          < MAX_CHUNKS_PER_OBJECT * CARRIER_CHUNK_BYTES := by
        rw [Nat.mul_comm MAX_CHUNKS_PER_OBJECT]
        exact Nat.lt_of_le_of_lt (by omega) hroom
      exact Nat.lt_of_mul_lt_mul_right hmul
    -- `create_new` finds its name free: the names given so far have smaller numbers
    have hfree : stage.files.any (·.name = chunkName stage.chunkIndex) = false := by
      rw [List.any_eq_false, h.files, h.index]
      intro entry hentry
      obtain ⟨i, -, hi, hname⟩ := mem_numbered hentry
      rw [Nat.zero_add] at hi
      simpa [hname] using chunkName_ne hi (by omega)
    refine ⟨{ stage with current := some [], chunkLen := 0 }, ?_, ?_, ?_, ?_⟩
    · rw [CarrierObjectStage.openChunk, hcurrent]
      dsimp only
      rw [hfree]
      rfl
    · refine ⟨h.whole, h.full_chunks, h.part_lt, h.files, h.index, ?_, ?_⟩
      · intro hnone
        cases hnone
      · intro content hcontent
        cases hcontent
        exact ⟨hpart.symm, by rw [hpart]; rfl⟩
    · rw [hpart]
    · rw [hpart]
      rfl

/-- What one round of the loop writes to the open chunk. -/
def put (stage : CarrierObjectStage) (bytes : Bytes) : CarrierObjectStage :=
  let stage := { stage with
    current := stage.current.map (· ++ bytes), chunkLen := stage.chunkLen + bytes.length }
  if stage.chunkLen = CARRIER_CHUNK_BYTES then finishChunk stage else stage

theorem Staged.put {bytes : Bytes} (h : Staged written full part stage)
    (hcurrent : stage.current = some part) (hlen : stage.chunkLen = part.length)
    (hfit : part.length + bytes.length ≤ CARRIER_CHUNK_BYTES) (hbytes : bytes ≠ []) :
    ∃ full' part', Staged (written ++ bytes) full' part' (stage.put bytes)
      ∧ (part' = [] → (stage.put bytes).current = none) := by
  have hput : stage.put bytes
      = if part.length + bytes.length = CARRIER_CHUNK_BYTES then
          ⟨stage.files ++ [⟨chunkName stage.chunkIndex, some (part ++ bytes)⟩], none,
            stage.chunkIndex + 1, 0⟩
        else ⟨stage.files, some (part ++ bytes), stage.chunkIndex, part.length + bytes.length⟩ := by
    rw [CarrierObjectStage.put, hcurrent, hlen]
    rfl
  have hwhole : written ++ bytes = full.flatten ++ (part ++ bytes) := by
    rw [h.whole, List.append_assoc]
  rw [hput]
  by_cases hend : part.length + bytes.length = CARRIER_CHUNK_BYTES
  · -- the chunk is full and closed
    rw [if_pos hend]
    refine ⟨full ++ [part ++ bytes], [], ⟨?_, ?_, chunk_pos, ?_, ?_, fun _ => rfl, ?_⟩,
      fun _ => rfl⟩
    · rw [hwhole, List.flatten_append, List.flatten_singleton, List.append_nil]
    · intro chunk hchunk
      rcases List.mem_append.mp hchunk with hchunk | hchunk
      · exact h.full_chunks chunk hchunk
      · rw [List.mem_singleton.mp hchunk, List.length_append, hend]
    · rw [numbered_append, ← h.files, Nat.zero_add, ← h.index]
      rfl
    · rw [List.length_append, ← h.index]
      rfl
    · intro content hcontent
      cases hcontent
  · -- the chunk stays open
    rw [if_neg hend]
    refine ⟨full, part ++ bytes, ⟨hwhole, h.full_chunks, ?_, h.files, h.index, ?_, ?_⟩,
      fun hnil => absurd (List.append_eq_nil_iff.mp hnil).2 hbytes⟩
    · rw [List.length_append]
      omega
    · intro hnone
      cases hnone
    · intro content hcontent
      cases hcontent
      exact ⟨rfl, List.length_append.symm⟩

/-- One round of the loop. -/
theorem writeLoop_succ {fuel : Nat} {data : Bytes} {stage' : CarrierObjectStage} (hdata : data ≠ [])
    (hopen : CarrierObjectStage.openChunk stage = .ok stage') :
    writeLoop (fuel + 1) stage data
      = writeLoop fuel
          (stage'.put (data.take (min (CARRIER_CHUNK_BYTES - stage'.chunkLen) data.length)))
          (data.drop (min (CARRIER_CHUNK_BYTES - stage'.chunkLen) data.length)) := by
  obtain ⟨b, rest, rfl⟩ := List.exists_cons_of_ne_nil hdata
  rw [writeLoop, hopen, CarrierObjectStage.put, List.length_take,
    Nat.min_eq_left (Nat.min_le_right _ _)]
  · rfl
  · exact fun hnil => hdata hnil

/-- The stage between two writes: an open chunk is not empty. -/
def Holds (stage : CarrierObjectStage) (written : Bytes) : Prop :=
  ∃ full part, Staged written full part stage ∧ (part = [] → stage.current = none)

theorem holds_new : Holds new [] := ⟨[], [], staged_new, fun _ => rfl⟩

/-- **The loop of `write`** stages all of the data. -/
theorem writeLoop_holds (fuel : Nat) :
    ∀ {written : Bytes} {stage : CarrierObjectStage} (data : Bytes),
    Holds stage written → data.length ≤ fuel → written.length + data.length ≤ MAX_OBJECT_BYTES →
    ∃ stage', writeLoop fuel stage data = .ok stage' ∧ Holds stage' (written ++ data) := by
  induction fuel with
  | zero =>
    intro written stage data h hfuel _
    rw [List.length_eq_zero_iff.mp (Nat.le_zero.mp hfuel), List.append_nil]
    exact ⟨stage, rfl, h⟩
  | succ fuel ih =>
    intro written stage data h hfuel hroom
    by_cases hdata : data = []
    · rw [hdata, List.append_nil]
      exact ⟨stage, rfl, h⟩
    · obtain ⟨full, part, hstaged, -⟩ := h
      have hlength := List.length_pos_iff.mpr hdata
      obtain ⟨opened, hopen, hopened, hcurrent, hlen⟩ := hstaged.openChunk (by omega)
      have hpart := hstaged.part_lt
      rw [writeLoop_succ hdata hopen, hlen]
      -- one turn takes what the open chunk still has room for, which is at least a byte
      obtain ⟨count, hcount⟩ :
          ∃ count, count = min (CARRIER_CHUNK_BYTES - part.length) data.length := ⟨_, rfl⟩
      rw [← hcount]
      have htake : (data.take count).length = count := by rw [List.length_take]; omega
      have hput : Holds (opened.put (data.take count)) (written ++ data.take count) :=
        hopened.put hcurrent hlen (by omega) (List.length_pos_iff.mp (by omega))
      obtain ⟨stage', hloop, hholds⟩ := ih (data.drop count) hput
        (by rw [List.length_drop]; omega)
        (by rw [List.length_append, htake, List.length_drop]; omega)
      rw [List.append_assoc, List.take_append_drop] at hholds
      exact ⟨stage', hloop, hholds⟩

/-- **The files the stage leaves** are the chunks of what was written. -/
theorem Holds.finishChunk (h : Holds stage written) (hne : written ≠ []) :
    (CarrierObjectStage.finishChunk stage).files = numbered 0 (chunks written)
      ∧ (CarrierObjectStage.finishChunk stage).chunkIndex = (chunks written).length := by
  obtain ⟨full, part, hstaged, hpart⟩ := h
  cases hcurrent : stage.current with
  | none =>
    -- no chunk is open: the object ended exactly at a chunk's end
    have hnil := hstaged.closed hcurrent
    have hwhole : written = full.flatten := by rw [hstaged.whole, hnil, List.append_nil]
    have hfull : full ≠ [] := fun h => hne (by rw [hwhole, h]; rfl)
    rw [hwhole, chunks_flatten (canonical_full hstaged.full_chunks hfull),
      CarrierObjectStage.finishChunk, hcurrent]
    exact ⟨hstaged.files, hstaged.index⟩
  | some content =>
    -- the open chunk is the last one, and it is not empty
    obtain ⟨rfl, -⟩ := hstaged.opened content hcurrent
    have hsome : content ≠ [] := fun hnil => by
      have := hpart hnil
      rw [hcurrent] at this
      cases this
    have hwhole : written = (full ++ [content]).flatten := by
      rw [hstaged.whole, List.flatten_append, List.flatten_singleton]
    rw [hwhole, chunks_flatten (canonical_concat hstaged.full_chunks hsome hstaged.part_lt.le),
      CarrierObjectStage.finishChunk, hcurrent]
    dsimp only
    rw [numbered_append, Nat.zero_add, ← hstaged.files, ← hstaged.index, List.length_append,
      ← hstaged.index]
    exact ⟨rfl, rfl⟩

end CarrierObjectStage

theorem maxBytes_le (kind : ObjectKind) : kind.maxBytes ≤ MAX_OBJECT_BYTES := by
  cases kind with
  | pack => exact Nat.le_refl _
  | manifest => decide

theorem isObjectId_objectId (P : Primitives) (bytes : Bytes) :
    isObjectId (objectId P bytes) = true := by
  rw [isObjectId, objectId, hexEncode_lower, length_hexEncode, (P.sha256 bytes).property]
  rfl

namespace ValidatingObjectStage

open CarrierObjectStage (Holds)

/-- What the stage has taken, for the kind it is for. -/
structure Taken (kind : ObjectKind) (bytes : Bytes) (stage : ValidatingObjectStage) : Prop where
  sink : Holds stage.sink bytes
  written : stage.written = bytes
  kind : stage.kind = kind

variable {kind : ObjectKind} {written : Bytes} {stage : ValidatingObjectStage}

theorem taken_begin (kind : ObjectKind) : Taken kind [] («begin» kind) :=
  ⟨CarrierObjectStage.holds_new, rfl, rfl⟩

/-- One write is taken if there is room for it. -/
theorem Taken.write (h : Taken kind written stage) {data : Bytes}
    (hroom : written.length + data.length ≤ kind.maxBytes) :
    ∃ stage', stage.write data = .ok stage' ∧ Taken kind (written ++ data) stage' := by
  have hmax := maxBytes_le kind
  obtain ⟨sink, hsink, hholds⟩ := CarrierObjectStage.writeLoop_holds data.length data h.sink
    (Nat.le_refl _) (by omega)
  refine ⟨{ stage with sink, written := stage.written ++ data }, ?_, hholds, ?_, h.kind⟩
  · rw [ValidatingObjectStage.write, if_neg (by rw [h.kind, h.written]; omega),
      CarrierObjectStage.write, hsink]
    rfl
  · rw [h.written]

/-- **However the data is cut**: pieces are taken as long as they fit, and refused if they do
not. -/
theorem Taken.writePieces (pieces : List Bytes) :
    ∀ {written : Bytes} {stage : ValidatingObjectStage},
    Taken kind written stage →
    (written.length + pieces.flatten.length ≤ kind.maxBytes →
      ∃ stage', stage.writePieces pieces = .ok stage'
        ∧ Taken kind (written ++ pieces.flatten) stage')
    ∧ (kind.maxBytes < written.length + pieces.flatten.length → written.length ≤ kind.maxBytes →
      ∃ e, stage.writePieces pieces = .error e) := by
  induction pieces with
  | nil =>
    intro written stage h
    refine ⟨fun _ => ⟨stage, rfl, by rw [List.flatten_nil, List.append_nil]; exact h⟩, ?_⟩
    intro hover hle
    rw [List.flatten_nil, List.length_nil] at hover
    omega
  | cons piece pieces ih =>
    intro written stage h
    rw [List.flatten_cons, List.length_append]
    -- the bound is checked at every piece, so the first one that passes it is refused
    by_cases hroom : written.length + piece.length ≤ kind.maxBytes
    · obtain ⟨stage₁, hwrite, htaken⟩ := h.write hroom
      obtain ⟨hfits, hover⟩ := ih htaken
      rw [List.length_append] at hfits hover
      rw [ValidatingObjectStage.writePieces, hwrite, ← List.append_assoc]
      exact ⟨fun hle => hfits (by omega), fun hlt _ => hover (by omega) hroom⟩
    · refine ⟨fun hle => absurd hle (by omega), fun _ _ => ?_⟩
      rw [ValidatingObjectStage.writePieces, ValidatingObjectStage.write,
        if_pos (by rw [h.kind, h.written]; omega)]
      exact ⟨_, rfl⟩

theorem Taken.finish (P : Primitives) (h : Taken kind written stage) (hne : written ≠ []) :
    stage.finish P none (objectId P written) = .ok (numbered 0 (chunks written)) := by
  obtain ⟨hfiles, hindex⟩ := h.sink.finishChunk hne
  have hcount : (chunks written).length ≠ 0 := fun hzero =>
    (canonical_chunks hne).ne_nil (List.length_eq_zero_iff.mp hzero)
  rw [ValidatingObjectStage.finish, validateId, isObjectId_objectId, h.written,
    CarrierObjectStage.publish, hfiles, hindex]
  simp [bailIf, hcount, pure, Except.pure, bind, Except.bind]

end ValidatingObjectStage

/-! ## Both readers -/

theorem length_chunks_le {object : Bytes} (hne : object ≠ [])
    (h : object.length ≤ MAX_OBJECT_BYTES) :
    (chunks object).length ≤ MAX_CHUNKS_PER_OBJECT := by
  have hbounds := (canonical_chunks hne).length_bounds.1
  rw [flatten_chunks] at hbounds
  have hlt : ((chunks object).length - 1) * CARRIER_CHUNK_BYTES
      < MAX_CHUNKS_PER_OBJECT * CARRIER_CHUNK_BYTES := by
    rw [Nat.mul_comm MAX_CHUNKS_PER_OBJECT]
    exact Nat.lt_of_lt_of_le hbounds h
  have := Nat.lt_of_mul_lt_mul_right hlt
  omega

namespace ObjectTree

variable {tree : ObjectTree} {object : Bytes}

/-- The files of the directory are the chunks of the object. -/
def Chunked (tree : ObjectTree) (object : Bytes) : Prop :=
  object ≠ [] ∧ tree.entries.Perm (numbered 0 (chunks object))

/-- The checkout takes the files for an object, and reading them to the end returns it, whatever
the buffers and however much a file has at hand. -/
def FilesYield (tree : ObjectTree) (object : Bytes) : Prop :=
  ∃ files, validatedChunkPaths tree.entries = .ok files
    ∧ ∀ schedule fuel, object.length < fuel →
      ∃ r, drain ChunkReader.read schedule fuel ⟨files, none⟩ = (.ok object, r)

/-- The same, from the blobs of a commit. -/
def BlobsYield (tree : ObjectTree) (object : Bytes) : Prop :=
  ∃ listed, parseChunkListing tree.listing tree.directory = .ok listed
    ∧ ∀ schedule fuel, object.length < fuel →
      ∃ r, drain (GitChunkReader.read tree.git) schedule fuel (.new listed) = (.ok object, r)

/-- The listing is refused, or every way of reading the blobs to the end fails. -/
def BlobsRefused (tree : ObjectTree) : Prop :=
  (∃ e, parseChunkListing tree.listing tree.directory = .error e)
    ∨ ∃ listed, parseChunkListing tree.listing tree.directory = .ok listed
      ∧ ∀ schedule fuel, (tree.sorted.map TreeFile.content).flatten.length < fuel →
        ∃ e r, drain (GitChunkReader.read tree.git) schedule fuel (.new listed) = (.error e, r)

/-- Two drains that end agree. -/
theorem eq_of_drains {ρ : Type} {read : Nat → Nat → Action Error ρ Bytes} {r : ρ} {a b : Bytes}
    (ha : ∀ schedule fuel, a.length < fuel → ∃ r', drain read schedule fuel r = (.ok a, r'))
    (hb : ∀ schedule fuel, b.length < fuel → ∃ r', drain read schedule fuel r = (.ok b, r')) :
    a = b := by
  obtain ⟨ra, hra⟩ := ha (fun _ => (0, 0)) (a.length + b.length + 1) (by omega)
  obtain ⟨rb, hrb⟩ := hb (fun _ => (0, 0)) (a.length + b.length + 1) (by omega)
  rw [hra] at hrb
  cases hrb
  rfl

theorem drain_files (files : List Bytes) (schedule : Nat → Nat × Nat) (fuel : Nat)
    (h : files.flatten.length < fuel) :
    ∃ r, drain ChunkReader.read schedule fuel ⟨files, none⟩ = (.ok files.flatten, r) :=
  ChunkReader.drain_read schedule fuel ⟨files, none⟩ h

/-- **The checkout** yields the objects whose chunks the files are. -/
theorem filesYield_iff (hcount : tree.files.length ≤ MAX_CHUNKS_PER_OBJECT) :
    tree.FilesYield object ↔ tree.Chunked object := by
  have hentries : tree.entries.length ≤ MAX_CHUNKS_PER_OBJECT := by
    rw [entries, List.length_map]
    exact hcount
  constructor
  · rintro ⟨files, hfiles, hdrain⟩
    obtain ⟨hperm, hcanonical⟩ := (validatedChunkPaths_ok hentries).mp hfiles
    have hobject : object = files.flatten := eq_of_drains hdrain (drain_files files)
    refine ⟨by rw [hobject]; exact hcanonical.flatten_ne_nil, ?_⟩
    rw [hobject, chunks_flatten hcanonical]
    exact hperm
  · rintro ⟨hne, hperm⟩
    refine ⟨chunks object, (validatedChunkPaths_ok hentries).mpr ⟨hperm, canonical_chunks hne⟩, ?_⟩
    intro schedule fuel hfuel
    have hdrain := drain_files (chunks object) schedule fuel
    rw [flatten_chunks] at hdrain
    exact hdrain hfuel

theorem Chunked.sorted_contents (hcount : tree.files.length ≤ MAX_CHUNKS_PER_OBJECT)
    (h : tree.Chunked object) : tree.sorted.map TreeFile.content = chunks object := by
  have hlength : (chunks object).length ≤ MAX_CHUNKS_PER_OBJECT := by
    rw [← length_numbered 0, ← h.2.length_eq, entries, List.length_map]
    exact hcount
  have hsorted := (sortByName_eq_numbered hlength).mpr h.2
  have hfiles := congrArg (List.map DirEntry.file) hsorted
  rw [sortByName_entries, List.map_map] at hfiles
  have hnumbered : ∀ (index : Nat) (cs : List Bytes), (numbered index cs).map DirEntry.file
      = cs.map some := by
    intro index cs
    induction cs generalizing index with
    | nil => rfl
    | cons chunk rest ih => rw [numbered, List.map_cons, ih, List.map_cons]
  rw [hnumbered] at hfiles
  refine List.map_injective_iff.mpr (Option.some_injective _) ?_
  rw [List.map_map]
  exact hfiles

theorem sorted_contents_ne_nil (hne : tree.files ≠ []) : tree.sorted.map TreeFile.content ≠ [] := by
  rw [ne_eq, List.map_eq_nil_iff, ← List.length_eq_zero_iff, tree.sorted_perm.length_eq,
    List.length_eq_zero_iff]
  exact hne

/-- What reading the blobs of a listing to the end comes to. -/
theorem drain_listed (hne : tree.files ≠ []) :
    (Canonical (tree.sorted.map TreeFile.content) → ∀ schedule fuel,
      (tree.sorted.map TreeFile.content).flatten.length < fuel →
      ∃ r, drain (GitChunkReader.read tree.git) schedule fuel (.new (tree.sorted.map tree.chunkOf))
        = (.ok (tree.sorted.map TreeFile.content).flatten, r))
    ∧ (¬ Canonical (tree.sorted.map TreeFile.content) → ∀ schedule fuel,
      (tree.sorted.map TreeFile.content).flatten.length < fuel →
      ∃ e r,
        drain (GitChunkReader.read tree.git) schedule fuel (.new (tree.sorted.map tree.chunkOf))
        = (.error e, r)) := by
  have hdrain := fun schedule fuel => @GitChunkReader.drain_new _ _ _ tree.hasBlobs_sorted
    (sorted_contents_ne_nil hne) schedule fuel
  exact ⟨fun h schedule fuel hfuel => (hdrain schedule fuel hfuel).1 h,
    fun h schedule fuel hfuel => (hdrain schedule fuel hfuel).2 h⟩

/-- A listing that is accepted yields an object if its chunks are canonical. -/
theorem blobsYield_of_canonical (hcount : tree.files.length ≤ MAX_CHUNKS_PER_OBJECT)
    {listed : List (Text × Text)}
    (hlisted : parseChunkListing tree.listing tree.directory = .ok listed)
    (hcanonical : Canonical (tree.sorted.map TreeFile.content)) :
    tree.BlobsYield (tree.sorted.map TreeFile.content).flatten := by
  obtain ⟨-, hne, -, rfl⟩ := (tree.parseChunkListing_ok hcount listed).mp hlisted
  exact ⟨_, hlisted, (drain_listed hne).1 hcanonical⟩

/-- **The commit** yields the same objects, if no file is executable. -/
theorem blobsYield_iff (hcount : tree.files.length ≤ MAX_CHUNKS_PER_OBJECT) :
    tree.BlobsYield object ↔ tree.Plain ∧ tree.Chunked object := by
  constructor
  · rintro ⟨listed, hlisted, hdrain⟩
    obtain ⟨hplain, hne, hnumbered, rfl⟩ := (tree.parseChunkListing_ok hcount listed).mp hlisted
    by_cases hcanonical : Canonical (tree.sorted.map TreeFile.content)
    · have hobject : object = (tree.sorted.map TreeFile.content).flatten :=
        eq_of_drains hdrain ((drain_listed hne).1 hcanonical)
      refine ⟨hplain, by rw [hobject]; exact hcanonical.flatten_ne_nil, ?_⟩
      rw [hobject, chunks_flatten hcanonical, ← hnumbered]
      exact (sortByName_perm _).symm
    · -- every way of reading these blobs fails
      obtain ⟨r, hr⟩ := hdrain (fun _ => (0, 0))
        (object.length + (tree.sorted.map TreeFile.content).flatten.length + 1) (by omega)
      obtain ⟨e, r', hr'⟩ := (drain_listed hne).2 hcanonical (fun _ => (0, 0))
        (object.length + (tree.sorted.map TreeFile.content).flatten.length + 1) (by omega)
      rw [hr] at hr'
      cases hr'
  · rintro ⟨hplain, hchunked⟩
    have hcontents := hchunked.sorted_contents hcount
    have hcanonical := canonical_chunks hchunked.1
    have hne : tree.files ≠ [] := fun hnil => hcanonical.ne_nil <| by
      rw [← hcontents, sorted, hnil, List.mergeSort_nil, List.map_nil]
    have hlength : (chunks object).length ≤ MAX_CHUNKS_PER_OBJECT := by
      rw [← hcontents, List.length_map, tree.sorted_perm.length_eq]
      exact hcount
    have hlisted : parseChunkListing tree.listing tree.directory
        = .ok (tree.sorted.map tree.chunkOf) := by
      refine (tree.parseChunkListing_ok hcount _).mpr ⟨hplain, hne, ?_, rfl⟩
      rw [hcontents]
      exact (sortByName_eq_numbered hlength).mpr hchunked.2
    have hyield := blobsYield_of_canonical hcount hlisted (by rw [hcontents]; exact hcanonical)
    rw [hcontents, flatten_chunks] at hyield
    exact hyield

/-- What yields no object is refused. -/
theorem blobsRefused_of_not_yield (hcount : tree.files.length ≤ MAX_CHUNKS_PER_OBJECT)
    (h : ¬ ∃ object, tree.BlobsYield object) : tree.BlobsRefused := by
  cases hlisted : parseChunkListing tree.listing tree.directory with
  | error e => exact .inl ⟨e, hlisted⟩
  | ok listed =>
    by_cases hcanonical : Canonical (tree.sorted.map TreeFile.content)
    · exact absurd ⟨_, blobsYield_of_canonical hcount hlisted hcanonical⟩ h
    · obtain ⟨-, hne, -, rfl⟩ := (tree.parseChunkListing_ok hcount listed).mp hlisted
      exact .inr ⟨_, hlisted, (drain_listed hne).2 hcanonical⟩

theorem accepted_iff (hcount : tree.files.length ≤ MAX_CHUNKS_PER_OBJECT) :
    (∃ files, validatedChunkPaths tree.entries = .ok files) ↔ ∃ object, tree.Chunked object := by
  constructor
  · rintro ⟨files, hfiles⟩
    exact ⟨files.flatten, (filesYield_iff hcount).mp ⟨files, hfiles, drain_files files⟩⟩
  · rintro ⟨object, hchunked⟩
    obtain ⟨files, hfiles, -⟩ := (filesYield_iff hcount).mpr hchunked
    exact ⟨files, hfiles⟩

/-- The files are the chunks of one object only. -/
theorem Chunked.unique {a b : Bytes} (hcount : tree.files.length ≤ MAX_CHUNKS_PER_OBJECT)
    (ha : tree.Chunked a) (hb : tree.Chunked b) : a = b := by
  rw [← flatten_chunks a, ← ha.sorted_contents hcount, hb.sorted_contents hcount, flatten_chunks]

end ObjectTree

/-- What the writer and the two readers of a carrier agree on. -/
structure ChunksAgree (P : Primitives) : Prop where
  /-- An object of the size of its kind is stored as its chunks, whatever pieces it comes in. -/
  stored : ∀ (kind : ObjectKind) (pieces : List Bytes), pieces.flatten ≠ [] →
    pieces.flatten.length ≤ kind.maxBytes →
    ∃ stage, (ValidatingObjectStage.begin kind).writePieces pieces = .ok stage
      ∧ stage.finish P none (objectId P pieces.flatten) = .ok (numbered 0 (chunks pieces.flatten))
      ∧ (chunks pieces.flatten).length ≤ MAX_CHUNKS_PER_OBJECT
  /-- A longer one is refused while it is written. -/
  refused : ∀ (kind : ObjectKind) (pieces : List Bytes), kind.maxBytes < pieces.flatten.length →
    ∃ e, (ValidatingObjectStage.begin kind).writePieces pieces = .error e
  /-- A directory that holds these files yields the object to both readers. -/
  read_back : ∀ (tree : ObjectTree) (object : Bytes), object ≠ [] →
    object.length ≤ MAX_OBJECT_BYTES → tree.entries.Perm (numbered 0 (chunks object)) →
    tree.FilesYield object ∧ (tree.Plain → tree.BlobsYield object)
  /-- The checkout accepts the directories that hold the chunks of some object. -/
  files : ∀ tree : ObjectTree, tree.files.length ≤ MAX_CHUNKS_PER_OBJECT →
    ((∃ files, validatedChunkPaths tree.entries = .ok files) ↔ ∃ object, tree.Chunked object)
  /-- The commit accepts those of them without an executable file, and refuses all others. -/
  blobs : ∀ tree : ObjectTree, tree.files.length ≤ MAX_CHUNKS_PER_OBJECT →
    ((∃ object, tree.BlobsYield object) ↔ tree.Plain ∧ ∃ object, tree.Chunked object)
      ∧ ((¬ ∃ object, tree.BlobsYield object) → tree.BlobsRefused)
  /-- What a reader returns is the one object the files are the chunks of. -/
  unique : ∀ (tree : ObjectTree) (object : Bytes), tree.files.length ≤ MAX_CHUNKS_PER_OBJECT →
    tree.Chunked object → ∀ other,
        tree.Chunked other ∨ tree.FilesYield other ∨ tree.BlobsYield other →
      other = object

/-- **Objects in chunks**: the stage and the readers of a carrier have the same idea of them. -/
theorem carrier_chunks_agree (P : Primitives) : ChunksAgree P where
  stored := by
    intro kind pieces hne hlength
    have hmax := maxBytes_le kind
    obtain ⟨stage, hwrite, htaken⟩ :=
      ((ValidatingObjectStage.taken_begin kind).writePieces pieces).1 (by simpa using hlength)
    exact ⟨stage, hwrite, htaken.finish P hne, length_chunks_le hne (by omega)⟩
  refused := by
    intro kind pieces hlength
    exact ((ValidatingObjectStage.taken_begin kind).writePieces pieces).2 (by simpa using hlength)
      (Nat.zero_le _)
  read_back := by
    intro tree object hne hlength hperm
    have hcount : tree.files.length ≤ MAX_CHUNKS_PER_OBJECT := by
      have hentries := hperm.length_eq
      rw [ObjectTree.entries, List.length_map, length_numbered] at hentries
      rw [hentries]
      exact length_chunks_le hne hlength
    exact ⟨(ObjectTree.filesYield_iff hcount).mpr ⟨hne, hperm⟩,
      fun hplain => (ObjectTree.blobsYield_iff hcount).mpr ⟨hplain, hne, hperm⟩⟩
  files := fun _ hcount => ObjectTree.accepted_iff hcount
  blobs := by
    intro tree hcount
    refine ⟨⟨?_, ?_⟩, ObjectTree.blobsRefused_of_not_yield hcount⟩
    · rintro ⟨object, hyield⟩
      obtain ⟨hplain, hchunked⟩ := (ObjectTree.blobsYield_iff hcount).mp hyield
      exact ⟨hplain, object, hchunked⟩
    · rintro ⟨hplain, object, hchunked⟩
      exact ⟨object, (ObjectTree.blobsYield_iff hcount).mpr ⟨hplain, hchunked⟩⟩
  unique := by
    intro tree object hcount hobject other hother
    rcases hother with hother | hother | hother
    · exact hother.unique hcount hobject
    · exact ((ObjectTree.filesYield_iff hcount).mp hother).unique hcount hobject
    · exact ((ObjectTree.blobsYield_iff hcount).mp hother).2.unique hcount hobject

/-- A chunk that is full. -/
def fullChunk : Bytes := List.replicate CARRIER_CHUNK_BYTES 7

theorem length_fullChunk : fullChunk.length = CARRIER_CHUNK_BYTES := List.length_replicate

theorem fullChunk_ne : fullChunk ≠ [8] := by
  intro h
  have hlength := congrArg List.length h
  rw [length_fullChunk] at hlength
  exact absurd hlength (by decide)

/-- A directory of two chunks, listed from the last to the first. -/
def twoChunks : ObjectTree where
  directory := text "packs/aa/aa"
  files := [⟨text "00000001", [8], false⟩, ⟨text "00000000", fullChunk, false⟩]
  git id := if id = List.replicate 40 98 then some ⟨id, .blob, [8]⟩
    else if id = List.replicate 40 97 then some ⟨id, .blob, fullChunk⟩ else none
  blobId content := if content = [8] then List.replicate 40 98 else List.replicate 40 97
  ascii := by decide +kernel
  names := by
    intro file hfile
    rcases List.mem_pair.mp hfile with rfl | rfl <;> decide
  blobs := by
    intro file hfile
    rcases List.mem_pair.mp hfile with rfl | rfl
    · exact ⟨by rw [if_pos rfl, if_pos rfl], by rw [if_pos rfl]; decide, by decide⟩
    · refine ⟨?_, ?_, ?_⟩
      · rw [if_neg fullChunk_ne, if_neg (by decide), if_pos rfl]
      · rw [if_neg fullChunk_ne]
        decide
      · dsimp only
        rw [length_fullChunk]
        decide

theorem chunks_two : chunks (fullChunk ++ [8]) = [fullChunk, [8]] := by
  have hcanonical : Canonical [fullChunk, [8]] := ⟨length_fullChunk, by decide, by decide⟩
  have hchunks := chunks_flatten hcanonical
  rw [List.flatten_cons, List.flatten_singleton] at hchunks
  exact hchunks

/-- Both readers get the object of the two chunks, as the stage stored it, and no other. -/
theorem carrier_chunks_agree_two :
    (∃ stage, (ValidatingObjectStage.begin .pack).writePieces [fullChunk, [8]] = .ok stage
      ∧ ∃ entries, stage.finish Reference.primitives none
          (objectId Reference.primitives (fullChunk ++ [8])) = .ok entries
        ∧ twoChunks.entries.Perm entries)
    ∧ twoChunks.FilesYield (fullChunk ++ [8]) ∧ twoChunks.BlobsYield (fullChunk ++ [8])
    ∧ ∀ other, twoChunks.FilesYield other → other = fullChunk ++ [8] := by
  have hagree := carrier_chunks_agree Reference.primitives
  have hflatten : [fullChunk, [8]].flatten = fullChunk ++ [8] := by
    rw [List.flatten_cons, List.flatten_singleton]
  have hne : fullChunk ++ [8] ≠ [] := List.append_ne_nil_of_right_ne_nil _ (List.cons_ne_nil _ _)
  have hlength : (fullChunk ++ [8]).length = CARRIER_CHUNK_BYTES + 1 := by
    rw [List.length_append, length_fullChunk, List.length_singleton]
  have hperm : twoChunks.entries.Perm (numbered 0 (chunks (fullChunk ++ [8]))) := by
    have hfirst : chunkName 0 = text "00000000" := by decide
    have hsecond : chunkName 1 = text "00000001" := by decide
    rw [chunks_two, numbered, numbered, hfirst, hsecond]
    exact List.Perm.swap _ _ _
  obtain ⟨stage, hwrite, hfinish, -⟩ := hagree.stored .pack [fullChunk, [8]]
    (by rw [hflatten]; exact hne) (by rw [hflatten, hlength]; decide)
  obtain ⟨hfiles, hblobs⟩ := hagree.read_back twoChunks _ hne (by rw [hlength]; decide) hperm
  rw [hflatten] at hfinish
  refine ⟨⟨stage, hwrite, _, hfinish, hperm⟩, hfiles, hblobs fun file hfile => ?_,
    fun other hother => hagree.unique twoChunks _ (by decide) ⟨hne, hperm⟩ other
      (.inr (.inl hother))⟩
  rcases List.mem_pair.mp hfile with rfl | rfl <;> rfl

/-- A directory of one chunk whose file is executable. -/
def executableChunk : ObjectTree where
  directory := text "packs/aa/aa"
  files := [⟨text "00000000", [7], true⟩]
  git := fun id => if id = List.replicate 40 97 then some ⟨id, .blob, [7]⟩ else none
  blobId := fun _ => List.replicate 40 97
  ascii := by decide +kernel
  names := by decide
  blobs := by
    intro file hfile
    rw [List.mem_singleton.mp hfile]
    exact ⟨if_pos rfl, by decide, by decide⟩

/-- The checkout takes it for an object, and the listing of the commit is refused. -/
theorem executable_chunk_divides : executableChunk.files.length ≤ MAX_CHUNKS_PER_OBJECT
    ∧ (∃ files, validatedChunkPaths executableChunk.entries = .ok files)
    ∧ ∃ e, parseChunkListing executableChunk.listing executableChunk.directory = .error e := by
  refine ⟨by decide, ⟨[[7]], ?_⟩, "carrier object contains a non-regular blob", ?_⟩
  · rw [validatedChunkPaths, sortByName]
    simp only [ObjectTree.entries, executableChunk, List.map_cons, List.map_nil,
      List.mergeSort_singleton]
    decide +kernel
  · rw [parseChunkListing]
    decide +kernel

/-! ## Acknowledged objects -/

/-- Nothing written leaves no chunk. -/
theorem CarrierObjectStage.Holds.chunkIndex_nil {stage : CarrierObjectStage}
    (h : stage.Holds []) : (CarrierObjectStage.finishChunk stage).chunkIndex = 0 := by
  obtain ⟨full, part, hstaged, hpart⟩ := h
  have hlength := hstaged.length_eq
  have hpos := chunk_pos
  have hpartNil : part = [] :=
    List.length_eq_zero_iff.mp (by rw [List.length_nil] at hlength; omega)
  have hfull : full.length = 0 := by
    rw [List.length_nil, hpartNil, List.length_nil, Nat.add_zero, eq_comm,
      Nat.mul_eq_zero] at hlength
    exact hlength.resolve_right (by omega)
  rw [CarrierObjectStage.finishChunk, hpart hpartNil]
  dsimp only
  rw [hstaged.index, hfull]

namespace ValidatingObjectStage

/-- Pieces that were taken fit the kind. -/
theorem taken_of_writePieces {kind : ObjectKind} {pieces : List Bytes}
    {stage : ValidatingObjectStage}
    (h : («begin» kind).writePieces pieces = .ok stage) :
    pieces.flatten.length ≤ kind.maxBytes ∧ Taken kind pieces.flatten stage := by
  obtain ⟨hfits, hover⟩ := (taken_begin kind).writePieces pieces
  rw [List.length_nil, Nat.zero_add] at hfits hover
  by_cases hle : pieces.flatten.length ≤ kind.maxBytes
  · obtain ⟨stage', hwrite, htaken⟩ := hfits hle
    rw [h] at hwrite
    cases hwrite
    exact ⟨hle, htaken⟩
  · obtain ⟨e, he⟩ := hover (by omega) (Nat.zero_le _)
    rw [h] at he
    cases he

/-- What `finish` has checked. -/
theorem finish_ok {P : Primitives} {existing : Option (List DirEntry)}
    {stage : ValidatingObjectStage}
    {id : Text} {entries : List DirEntry} (h : stage.finish P existing id = .ok entries) :
    objectId P stage.written = id ∧ (CarrierObjectStage.finishChunk stage.sink).chunkIndex ≠ 0
      ∧ (existing = none → entries = (CarrierObjectStage.finishChunk stage.sink).files)
      ∧ ∀ found, existing = some found → entries = found
        ∧ ∃ files, validatedChunkPaths found = .ok files ∧ objectId P files.flatten = id := by
  simp only [ValidatingObjectStage.finish, CarrierObjectStage.publish, except_bind_eq_ok,
    bailIf_eq_ok] at h
  obtain ⟨-, -, -, hid, -, hindex, h⟩ := h
  refine ⟨not_not.mp hid, hindex, ?_, ?_⟩
  · rintro rfl
    cases h
    rfl
  · rintro found rfl
    simp only [except_bind_eq_ok, bailIf_eq_ok] at h
    obtain ⟨files, hfiles, -, hsame, h⟩ := h
    cases h
    exact ⟨rfl, files, hfiles, not_not.mp hsame⟩

end ValidatingObjectStage

/-- **What `finish` acknowledged can be read.** Whatever the directory of the object held before,
after `finish` returned both readers yield an object with that id: the one that was written, if the
directory is new, and otherwise the one that was there, which is left as it was. -/
theorem acknowledged_object_readable {P : Primitives} {kind : ObjectKind} {pieces : List Bytes}
    {stage : ValidatingObjectStage} {existing : Option (List DirEntry)} {id : Text}
    {entries : List DirEntry}
    (hwrite : (ValidatingObjectStage.begin kind).writePieces pieces = .ok stage)
    (hexisting : ∀ found, existing = some found → found.length ≤ MAX_CHUNKS_PER_OBJECT)
    (hfinish : stage.finish P existing id = .ok entries)
    {tree : ObjectTree} (hentries : tree.entries = entries) :
    ∃ object, objectId P object = id ∧ tree.FilesYield object
      ∧ (tree.Plain → tree.BlobsYield object)
      ∧ (existing = none → object = pieces.flatten)
      ∧ ∀ found, existing = some found → entries = found := by
  obtain ⟨hlength, htaken⟩ := ValidatingObjectStage.taken_of_writePieces hwrite
  obtain ⟨hid, hindex, hnew, hold⟩ := ValidatingObjectStage.finish_ok hfinish
  have hmax := maxBytes_le kind
  have hyields : ∀ object, tree.files.length ≤ MAX_CHUNKS_PER_OBJECT → tree.Chunked object →
      tree.FilesYield object ∧ (tree.Plain → tree.BlobsYield object) := fun object hcount h =>
    ⟨(ObjectTree.filesYield_iff hcount).mpr h,
      fun hplain => (ObjectTree.blobsYield_iff hcount).mpr ⟨hplain, h⟩⟩
  have hcount : tree.files.length = entries.length := by
    rw [← hentries, ObjectTree.entries, List.length_map]
  cases existing with
  | none =>
    have hne : pieces.flatten ≠ [] := fun hnil => by
      have hsink := htaken.sink
      rw [hnil] at hsink
      exact hindex hsink.chunkIndex_nil
    obtain ⟨hfiles, -⟩ := htaken.sink.finishChunk hne
    have hnumbered : entries = numbered 0 (chunks pieces.flatten) := (hnew rfl).trans hfiles
    have hchunked : tree.Chunked pieces.flatten := by
      refine ⟨hne, ?_⟩
      rw [hentries, hnumbered]
    have hle : tree.files.length ≤ MAX_CHUNKS_PER_OBJECT := by
      rw [hcount, hnumbered, length_numbered]
      exact length_chunks_le hne (by omega)
    obtain ⟨hread, hblobs⟩ := hyields _ hle hchunked
    refine ⟨pieces.flatten, ?_, hread, hblobs, fun _ => rfl, fun found hfound => ?_⟩
    · rw [← htaken.written]
      exact hid
    · cases hfound
  | some found =>
    obtain ⟨rfl, files, hfiles, hsame⟩ := hold found rfl
    have hle : tree.files.length ≤ MAX_CHUNKS_PER_OBJECT := by
      rw [hcount]
      exact hexisting entries rfl
    have hvalid : validatedChunkPaths tree.entries = .ok files := by rw [hentries]; exact hfiles
    have hchunked : tree.Chunked files.flatten :=
      (ObjectTree.filesYield_iff hle).mp ⟨files, hvalid, ObjectTree.drain_files files⟩
    obtain ⟨hread, hblobs⟩ := hyields _ hle hchunked
    refine ⟨files.flatten, hsame, hread, hblobs, fun hnone => ?_, fun other hother => ?_⟩
    · cases hnone
    · cases hother
      rfl

/-- A directory of one chunk, as the stage leaves it. -/
def plainChunk : ObjectTree where
  directory := text "packs/aa/aa"
  files := [⟨text "00000000", [7], false⟩]
  git := fun id => if id = List.replicate 40 97 then some ⟨id, .blob, [7]⟩ else none
  blobId := fun _ => List.replicate 40 97
  ascii := by decide +kernel
  names := by decide
  blobs := by
    intro file hfile
    rw [List.mem_singleton.mp hfile]
    exact ⟨if_pos rfl, by decide, by decide⟩

theorem plainChunk_entries : plainChunk.entries = numbered 0 (chunks [7]) := by
  have hname : chunkName 0 = text "00000000" := by decide
  have hchunks : chunks [7] = [[7]] := @chunks_flatten [[7]] ⟨by decide, by decide⟩
  rw [hchunks, numbered, hname]
  rfl

theorem acknowledged_object_readable_chunk :
    plainChunk.FilesYield [7] ∧ plainChunk.BlobsYield [7] := by
  obtain ⟨stage, hwrite, htaken⟩ :=
    ((ValidatingObjectStage.taken_begin .pack).writePieces [[7]]).1 (by decide)
  have hfinish := htaken.finish Reference.primitives (by decide)
  obtain ⟨object, -, hfiles, hblobs, hobject, -⟩ :=
    acknowledged_object_readable hwrite (fun found hfound => by cases hfound) hfinish
      plainChunk_entries
  obtain rfl : object = [7] := hobject rfl
  exact ⟨hfiles, hblobs (by simp [ObjectTree.Plain, plainChunk])⟩

end GitE2EE

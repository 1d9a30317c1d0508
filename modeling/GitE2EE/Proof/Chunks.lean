import GitE2EE.Model.Chunks
import GitE2EE.Proof.CatFile

/-!
# Objects and their chunks

A sequence of chunks is canonical if all but the last are full and the last is not empty.
Such sequences and the byte strings that are not empty correspond one to one. The stage
leaves the chunks of what was written to it, in whatever pieces it came, and both readers
take a directory for an object exactly if it holds a canonical sequence, and then read the
bytes it stands for.
-/

namespace GitE2EE

open Wire Effect

/-! ## Canonical sequences -/

/-- All chunks but the last are full, and the last is not empty. -/
def Canonical : List Bytes → Prop
  | [] => False
  | [last] => 0 < last.length ∧ last.length ≤ CARRIER_CHUNK_BYTES
  | chunk :: next :: rest => chunk.length = CARRIER_CHUNK_BYTES ∧ Canonical (next :: rest)

/-- A byte string cut into chunks. -/
def chunksFrom : Nat → Bytes → List Bytes
  | 0, _ => []
  | fuel + 1, bytes =>
    if bytes = [] then []
    else bytes.take CARRIER_CHUNK_BYTES :: chunksFrom fuel (bytes.drop CARRIER_CHUNK_BYTES)

/-- The chunks of a byte string; its length is fuel enough. -/
def chunks (bytes : Bytes) : List Bytes := chunksFrom bytes.length bytes

theorem chunk_pos : 0 < CARRIER_CHUNK_BYTES := by decide

theorem Canonical.ne_nil {cs : List Bytes} (h : Canonical cs) : cs ≠ [] := by
  rintro rfl
  exact h

theorem Canonical.cons {chunk : Bytes} {cs : List Bytes}
    (hfull : chunk.length = CARRIER_CHUNK_BYTES)
    (h : Canonical cs) : Canonical (chunk :: cs) := by
  cases cs with
  | nil => exact h.elim
  | cons next rest => exact ⟨hfull, h⟩

/-- Nothing is lost by cutting. -/
theorem flatten_chunksFrom (fuel : Nat) : ∀ bytes : Bytes, bytes.length ≤ fuel →
    (chunksFrom fuel bytes).flatten = bytes := by
  induction fuel with
  | zero =>
    intro bytes h
    rw [List.length_eq_zero_iff.mp (Nat.le_zero.mp h)]
    rfl
  | succ fuel ih =>
    intro bytes h
    have hpos := chunk_pos
    rw [chunksFrom]
    split
    · rename_i hnil
      rw [hnil]
      rfl
    · rename_i hne
      have hlength := List.length_pos_iff.mpr hne
      rw [List.flatten_cons, ih _ (by rw [List.length_drop]; omega), List.take_append_drop]

/-- What is cut off is full, and what is left is not empty. -/
theorem canonical_chunksFrom (fuel : Nat) : ∀ bytes : Bytes, bytes.length ≤ fuel → bytes ≠ [] →
    Canonical (chunksFrom fuel bytes) := by
  induction fuel with
  | zero =>
    intro bytes h hne
    exact absurd (List.length_eq_zero_iff.mp (Nat.le_zero.mp h)) hne
  | succ fuel ih =>
    intro bytes h hne
    have hpos := chunk_pos
    have hlength := List.length_pos_iff.mpr hne
    rw [chunksFrom, if_neg hne]
    by_cases hmore : bytes.drop CARRIER_CHUNK_BYTES = []
    · -- nothing behind this chunk
      have hrest : chunksFrom fuel (bytes.drop CARRIER_CHUNK_BYTES) = [] := by
        cases fuel with
        | zero => rfl
        | succ fuel => rw [chunksFrom, if_pos hmore]
      rw [List.drop_eq_nil_iff] at hmore
      rw [hrest, List.take_of_length_le hmore]
      exact ⟨hlength, hmore⟩
    · refine Canonical.cons ?_ (ih _ (by rw [List.length_drop]; omega) hmore)
      rw [List.drop_eq_nil_iff] at hmore
      rw [List.length_take]
      omega

theorem flatten_chunks (bytes : Bytes) : (chunks bytes).flatten = bytes :=
  flatten_chunksFrom _ _ (Nat.le_refl _)

theorem canonical_chunks {bytes : Bytes} (h : bytes ≠ []) : Canonical (chunks bytes) :=
  canonical_chunksFrom _ _ (Nat.le_refl _) h

theorem Canonical.flatten_ne_nil {cs : List Bytes} (h : Canonical cs) : cs.flatten ≠ [] := by
  cases cs with
  | nil => exact h.elim
  | cons chunk rest =>
    have hchunk : 0 < chunk.length := by
      cases rest with
      | nil => exact h.1
      | cons next rest =>
        have := chunk_pos
        rw [h.1]
        exact this
    rw [List.flatten_cons]
    exact List.append_ne_nil_of_left_ne_nil (List.length_pos_iff.mp hchunk) _

/-- A canonical sequence is cut where its chunks end. -/
theorem chunksFrom_flatten (fuel : Nat) : ∀ cs : List Bytes, Canonical cs →
    cs.flatten.length ≤ fuel → chunksFrom fuel cs.flatten = cs := by
  induction fuel with
  | zero =>
    intro cs h hlength
    exact absurd (List.length_eq_zero_iff.mp (Nat.le_zero.mp hlength)) h.flatten_ne_nil
  | succ fuel ih =>
    intro cs h hlength
    rw [chunksFrom, if_neg h.flatten_ne_nil]
    cases cs with
    | nil => exact h.elim
    | cons chunk rest =>
      cases rest with
      | nil =>
        rw [List.flatten_singleton, List.take_of_length_le h.2, List.drop_eq_nil_of_le h.2]
        cases fuel with
        | zero => rfl
        | succ fuel => rw [chunksFrom, if_pos rfl]
      | cons next rest =>
        have hpos := chunk_pos
        have hfull := h.1
        rw [List.flatten_cons, List.length_append] at hlength
        rw [List.flatten_cons, List.take_left' hfull, List.drop_left' hfull,
          ih _ h.2 (by omega)]

/-- **Canonical sequences are the chunks of byte strings**, each of exactly one. -/
theorem chunks_flatten {cs : List Bytes} (h : Canonical cs) : chunks cs.flatten = cs :=
  chunksFrom_flatten _ _ h (Nat.le_refl _)

/-- The length of an object tells how many chunks it has. -/
theorem Canonical.length_bounds {cs : List Bytes} (h : Canonical cs) :
    (cs.length - 1) * CARRIER_CHUNK_BYTES < cs.flatten.length
      ∧ cs.flatten.length ≤ cs.length * CARRIER_CHUNK_BYTES := by
  induction cs with
  | nil => exact h.elim
  | cons chunk rest ih =>
    cases rest with
    | nil =>
      rw [List.flatten_singleton, List.length_singleton, Nat.one_mul, Nat.sub_self, Nat.zero_mul]
      exact h
    | cons next rest =>
      -- one full chunk more moves both bounds by its size
      obtain ⟨hlow, hhigh⟩ := ih h.2
      have hfull := h.1
      rw [List.flatten_cons, List.length_append, List.length_cons]
      rw [List.length_cons, Nat.add_sub_cancel] at hlow
      rw [List.length_cons] at hhigh
      simp only [List.length_cons, Nat.add_mul, Nat.add_sub_cancel, Nat.one_mul] at hlow hhigh ⊢
      omega

/-! ## Numbered files -/

/-- The chunks as files, numbered from `index` on. -/
def numbered : Nat → List Bytes → List DirEntry
  | _, [] => []
  | index, chunk :: rest => ⟨chunkName index, some chunk⟩ :: numbered (index + 1) rest

theorem length_numbered (index : Nat) (cs : List Bytes) :
    (numbered index cs).length = cs.length := by
  induction cs generalizing index with
  | nil => rfl
  | cons chunk rest ih => rw [numbered, List.length_cons, ih, List.length_cons]

theorem numbered_append (index : Nat) (cs ds : List Bytes) :
    numbered index (cs ++ ds) = numbered index cs ++ numbered (index + cs.length) ds := by
  induction cs generalizing index with
  | nil => rfl
  | cons chunk rest ih =>
    rw [List.cons_append, numbered, ih, numbered, List.cons_append, List.length_cons,
      Nat.add_assoc, Nat.add_comm 1]

/-- A numbered file has one of the numbers. -/
theorem mem_numbered {index : Nat} {cs : List Bytes} {entry : DirEntry}
    (h : entry ∈ numbered index cs) :
    ∃ i, index ≤ i ∧ i < index + cs.length ∧ entry.name = chunkName i := by
  induction cs generalizing index with
  | nil => cases h
  | cons chunk rest ih =>
    rw [List.length_cons]
    rcases List.mem_cons.mp h with rfl | h
    · exact ⟨index, Nat.le_refl _, by omega, rfl⟩
    · obtain ⟨i, hlow, hhigh, hname⟩ := ih h
      exact ⟨i, by omega, by omega, hname⟩

/-- The names in use come in order, and are told apart. -/
theorem chunkName_lt {i j : Nat} (h : i < j) (hj : j ≤ MAX_CHUNKS_PER_OBJECT) :
    lexLt (chunkName i) (chunkName j) = true := by
  have hmax : MAX_CHUNKS_PER_OBJECT = 4096 := rfl
  rw [chunkName, chunkName, zeroPadded_eq (by decide) (by omega),
    zeroPadded_eq (by decide) (by omega)]
  exact padded_lt h (by omega)

theorem chunkName_ne {i j : Nat} (h : i < j) (hj : j ≤ MAX_CHUNKS_PER_OBJECT) :
    chunkName i ≠ chunkName j := by
  intro heq
  have hlt := chunkName_lt h hj
  rw [heq, lexLt, lexLe_refl] at hlt
  cases hlt

theorem lexLe_of_lexLt {a b : Bytes} (h : lexLt a b = true) : lexLe a b = true := by
  rcases lexLe_total a b with hle | hle
  · exact hle
  · rw [lexLt, hle] at h
    cases h

/-- Numbered files come in the order of their names. -/
theorem sorted_numbered {index : Nat} {cs : List Bytes}
    (h : index + cs.length ≤ MAX_CHUNKS_PER_OBJECT) :
    (numbered index cs).Pairwise fun a b => lexLt a.name b.name = true := by
  induction cs generalizing index with
  | nil => exact .nil
  | cons chunk rest ih =>
    rw [List.length_cons] at h
    refine .cons (fun entry hentry => ?_) (ih (by omega))
    obtain ⟨i, hlow, hhigh, hname⟩ := mem_numbered hentry
    rw [hname]
    exact chunkName_lt (by omega) (by omega)

theorem nodup_numbered {index : Nat} {cs : List Bytes}
    (h : index + cs.length ≤ MAX_CHUNKS_PER_OBJECT) :
    ((numbered index cs).map DirEntry.name).Nodup := by
  refine List.pairwise_map.mpr ((sorted_numbered h).imp fun hlt heq => ?_)
  rw [heq, lexLt, lexLe_refl] at hlt
  cases hlt

theorem sortByName_perm (entries : List DirEntry) : (sortByName entries).Perm entries :=
  List.mergeSort_perm _ _

theorem sortByName_sorted (entries : List DirEntry) :
    (sortByName entries).Pairwise fun a b => lexLe a.name b.name = true :=
  @List.pairwise_mergeSort DirEntry (fun a b => lexLe a.name b.name) (fun _ _ _ => lexLe_trans)
    (fun a b => by simpa using lexLe_total a.name b.name) entries

/-- Sorting puts numbered files back in order. -/
theorem sortByName_eq_numbered {entries : List DirEntry} {cs : List Bytes}
    (hcount : cs.length ≤ MAX_CHUNKS_PER_OBJECT) :
    sortByName entries = numbered 0 cs ↔ entries.Perm (numbered 0 cs) := by
  constructor
  · intro h
    rw [← h]
    exact (sortByName_perm entries).symm
  · intro h
    have hsorted : (numbered 0 cs).Pairwise fun a b => lexLt a.name b.name = true :=
      sorted_numbered (by omega)
    -- two sorted lists of the same files agree if no name comes twice
    refine List.Perm.eq_of_pairwise (fun a b ha hb hab hba => ?_) (sortByName_sorted entries)
      (hsorted.imp fun hlt => lexLe_of_lexLt hlt) ((sortByName_perm entries).trans h)
    have ha' : a ∈ numbered 0 cs := h.subset ((sortByName_perm entries).subset ha)
    exact List.inj_on_of_nodup_map (nodup_numbered (by omega)) ha' hb (lexLe_antisymm hab hba)

/-! ## The checks -/

/-- What the checks of the checkout accept: numbered files, canonical chunks. -/
theorem checkChunkFiles_ok {total index : Nat} {entries : List DirEntry} {files : List Bytes}
    (htotal : index + entries.length = total) (hne : entries ≠ []) :
    checkChunkFiles total index entries = .ok files
      ↔ entries = numbered index files ∧ Canonical files := by
  induction entries generalizing index files with
  | nil => exact absurd rfl hne
  | cons entry rest ih =>
    obtain ⟨name, file⟩ := entry
    rw [List.length_cons] at htotal
    cases file with
    -- not a regular file
    | none =>
      rw [checkChunkFiles]
      constructor
      · intro h
        cases h
      · rintro ⟨h, -⟩
        cases files with
        | nil => cases h
        | cons chunk files => cases h
    | some content =>
      simp only [checkChunkFiles, except_bind_eq_ok, bailIf_eq_ok, not_not, not_or, not_and]
      cases rest with
      | nil =>
        -- the last file: any size from one byte to a full chunk
        rw [List.length_nil] at htotal
        constructor
        · rintro ⟨-, rfl, -, hsize, files', h, hfiles⟩
          cases h
          cases hfiles
          exact ⟨rfl, by have := hsize.2 (by omega); omega, by have := hsize.2 (by omega); omega⟩
        · rintro ⟨h, hcanonical⟩
          cases files with
          | nil => cases h
          | cons chunk files =>
            cases files with
            | nil =>
              cases h
              exact ⟨(), rfl, (), ⟨fun _ => by omega, fun _ => ⟨by have := hcanonical.1; omega,
                by have := hcanonical.2; omega⟩⟩, [], rfl, rfl⟩
            | cons next files => cases h
      | cons next rest =>
        rw [List.length_cons] at htotal
        have hrest := fun files => @ih (index + 1) files (by rw [List.length_cons]; omega)
          (List.cons_ne_nil _ _)
        constructor
        · rintro ⟨-, rfl, -, hsize, files', h, hfiles⟩
          cases hfiles
          obtain ⟨hentries, hcanonical⟩ := (hrest files').mp h
          refine ⟨by rw [numbered, hentries], .cons (hsize.1 (by omega)) hcanonical⟩
        · rintro ⟨h, hcanonical⟩
          cases files with
          | nil => cases h
          | cons chunk files =>
            cases files with
            | nil => cases h
            | cons second files =>
              rw [numbered, List.cons.injEq] at h
              obtain ⟨hentry, hentries⟩ := h
              cases hentry
              exact ⟨(), rfl, (), ⟨fun _ => hcanonical.1, fun _ => by omega⟩, second :: files,
                (hrest _).mpr ⟨hentries, hcanonical.2⟩, rfl⟩

/-- **What a checkout takes for an object.** -/
theorem validatedChunkPaths_ok {entries : List DirEntry} {files : List Bytes}
    (hcount : entries.length ≤ MAX_CHUNKS_PER_OBJECT) :
    validatedChunkPaths entries = .ok files
      ↔ entries.Perm (numbered 0 files) ∧ Canonical files := by
  have hlength : (sortByName entries).length = entries.length := (sortByName_perm entries).length_eq
  have hsorted : entries ≠ [] → sortByName entries ≠ [] := fun hne hnil => by
    rw [hnil, List.length_nil, eq_comm, List.length_eq_zero_iff] at hlength
    exact hne hlength
  simp only [validatedChunkPaths, except_bind_eq_ok, bailIf_eq_ok]
  constructor
  · rintro ⟨-, hne, h⟩
    obtain ⟨hnumbered, hcanonical⟩ := (checkChunkFiles_ok (by omega) (hsorted hne)).mp h
    refine ⟨?_, hcanonical⟩
    rw [← hnumbered]
    exact (sortByName_perm entries).symm
  · rintro ⟨hperm, hcanonical⟩
    have hfiles : entries.length = files.length := by rw [hperm.length_eq, length_numbered]
    have hsort := (sortByName_eq_numbered (by omega)).mpr hperm
    have hne : entries ≠ [] := fun hnil => by
      rw [hnil, List.length_nil, eq_comm, List.length_eq_zero_iff] at hfiles
      exact hcanonical.ne_nil hfiles
    exact ⟨(), hne, (checkChunkFiles_ok (by omega) (hsorted hne)).mpr ⟨hsort, hcanonical⟩⟩

/-! ## Reading to the end -/

/-- Reads until nothing more comes, with buffers of any size and reads of any length: the
`n`-th read from the end has a buffer of `(schedule n).1 + 1` bytes. -/
def drain {ρ : Type} (read : Nat → Nat → Action Error ρ Bytes) (schedule : Nat → Nat × Nat) :
    Nat → Action Error ρ Bytes
  | 0 => Action.fail (.msg "more to read")
  | fuel + 1 => do
    let bytes ← read ((schedule fuel).1 + 1) (schedule fuel).2
    if bytes = [] then pure []
    else do
      let more ← drain read schedule fuel
      pure (bytes ++ more)

section

variable {ρ : Type} {read : Nat → Nat → Action Error ρ Bytes} {schedule : Nat → Nat × Nat}

/-- A read that returns nothing is the last. -/
theorem drain_end {fuel : Nat} {r r' : ρ}
    (h : read ((schedule fuel).1 + 1) (schedule fuel).2 r = (.ok [], r')) :
    drain read schedule (fuel + 1) r = (.ok [], r') := by
  rw [drain, Action.bind_of_ok h, if_pos rfl]
  rfl

/-- A read that returns something is followed by others. -/
theorem drain_step {fuel : Nat} {r r₁ r' : ρ} {bytes more : Bytes} (hne : bytes ≠ [])
    (h : read ((schedule fuel).1 + 1) (schedule fuel).2 r = (.ok bytes, r₁))
    (hmore : drain read schedule fuel r₁ = (.ok more, r')) :
    drain read schedule (fuel + 1) r = (.ok (bytes ++ more), r') := by
  rw [drain, Action.bind_of_ok h, if_neg hne, Action.bind_of_ok hmore]
  rfl

theorem drain_error {fuel : Nat} {r r₁ : ρ} {e : Error}
    (h : read ((schedule fuel).1 + 1) (schedule fuel).2 r = (.error e, r₁)) :
    drain read schedule (fuel + 1) r = (.error e, r₁) := by
  rw [drain, Action.bind_of_error h]

theorem drain_step_error {fuel : Nat} {r r₁ r' : ρ} {bytes : Bytes} {e : Error} (hne : bytes ≠ [])
    (h : read ((schedule fuel).1 + 1) (schedule fuel).2 r = (.ok bytes, r₁))
    (hmore : drain read schedule fuel r₁ = (.error e, r')) :
    drain read schedule (fuel + 1) r = (.error e, r') := by
  rw [drain, Action.bind_of_ok h, if_neg hne, Action.bind_of_error hmore]

end

/-! ### Files -/

namespace ChunkReader

/-- What is left to read. -/
def left (reader : ChunkReader) : Bytes := reader.current.getD [] ++ reader.files.flatten

/-- Files that are at their end are passed over until one has bytes. -/
theorem readFrom_left (ready : Nat) {want : Nat} (hwant : 0 < want) (file : Bytes)
    (files : List Bytes) :
    (readFrom want ready file files).1 ++ (readFrom want ready file files).2.left
        = file ++ files.flatten
      ∧ ((readFrom want ready file files).1 = [] → file ++ files.flatten = []) := by
  have hcount : 0 < min want (ready + 1) := by omega
  have htake : ∀ file : Bytes, file.take (min want (ready + 1)) = [] → file = [] := fun file h =>
    (List.take_eq_nil_iff.mp h).resolve_left (by omega)
  induction files generalizing file with
  | nil =>
    rw [readFrom]
    split
    · -- this file is at its end
      rename_i hnil
      rw [htake file hnil]
      exact ⟨rfl, fun _ => rfl⟩
    · rename_i hne
      refine ⟨?_, fun hnil => absurd hnil hne⟩
      rw [left, Option.getD_some, ← List.append_assoc, List.take_append_drop]
  | cons next files ih =>
    rw [readFrom]
    split
    · rename_i hnil
      rw [htake file hnil, List.nil_append]
      exact ih next
    · rename_i hne
      refine ⟨?_, fun hnil => absurd hnil hne⟩
      rw [left, Option.getD_some, ← List.append_assoc, List.take_append_drop]

/-- One read takes off what it returns, and returns something while there is something. -/
theorem read_left (ready : Nat) {want : Nat} (hwant : 0 < want) (reader : ChunkReader) :
    ∃ bytes reader', read want ready reader = (.ok bytes, reader')
      ∧ reader.left = bytes ++ reader'.left ∧ (bytes = [] → reader.left = []) := by
  obtain ⟨files, current⟩ := reader
  cases current with
  | some file =>
    obtain ⟨hleft, hnil⟩ := readFrom_left ready hwant file files
    exact ⟨_, _, rfl, hleft.symm, hnil⟩
  | none =>
    cases files with
    | nil => exact ⟨[], _, rfl, rfl, fun _ => rfl⟩
    | cons file files =>
      obtain ⟨hleft, hnil⟩ := readFrom_left ready hwant file files
      exact ⟨_, _, rfl, hleft.symm, hnil⟩

/-- **The reader of a checkout** yields the files one after the other. -/
theorem drain_read (schedule : Nat → Nat × Nat) (fuel : Nat) : ∀ reader : ChunkReader,
    reader.left.length < fuel →
    ∃ reader', drain read schedule fuel reader = (.ok reader.left, reader') := by
  induction fuel with
  | zero => exact fun _ h => absurd h (by omega)
  | succ fuel ih =>
    intro reader hfuel
    obtain ⟨bytes, reader', hread, hleft, hnil⟩ :=
      read_left (schedule fuel).2 (Nat.succ_pos (schedule fuel).1) reader
    by_cases hbytes : bytes = []
    · rw [hnil hbytes]
      rw [hbytes] at hread
      exact ⟨reader', drain_end hread⟩
    · have hlength := List.length_pos_iff.mpr hbytes
      rw [hleft, List.length_append] at hfuel
      obtain ⟨final, hmore⟩ := ih reader' (by omega)
      rw [hleft]
      exact ⟨final, drain_step hbytes hread hmore⟩

end ChunkReader

/-! ### Blobs -/

/-- The repository has these bytes as the blob `id`. -/
structure HasBlob (git : ObjectNames) (id : Text) (content : Bytes) : Prop where
  found : git id = some ⟨id, .blob, content⟩
  isId : isGitId id = true
  size : content.length < 2 ^ 64

/-- Git can announce such a blob in a line. -/
theorem HasBlob.printable {git : ObjectNames} {id : Text} {content : Bytes}
    (h : HasBlob git id content) : StoredObject.Printable ⟨id, .blob, content⟩ := by
  obtain ⟨hne, hbytes⟩ := isGitId_bytes h.isId
  exact ⟨hne, fun b hb => (hbytes b hb).1, fun b hb => (hbytes b hb).2.1, h.size⟩

namespace GitChunkReader

variable {git : ObjectNames} {chunks : List (Text × Text)} {contents : List Bytes}

/-- The reader in front of chunk `next`, with `rest` left of the one before. -/
def facing (chunks : List (Text × Text)) (next : Nat) (rest : Bytes) : GitChunkReader :=
  ⟨⟨.batch, if rest = [] then [] else rest ++ [10], true, false⟩, chunks, next, rest.length⟩

/-- **A read inside a chunk** takes bytes of it, and the newline behind it with the last ones.
-/
theorem readChunk_at {next want ready : Nat} {rest : Bytes} (hrest : rest ≠ []) (hwant : 0 < want) :
    ∃ count, 0 < count ∧ count ≤ rest.length
      ∧ readChunk want ready (facing chunks next rest)
        = (.ok (rest.take count), facing chunks next (rest.drop count)) := by
  have hlength := List.length_pos_iff.mpr hrest
  obtain ⟨count, hcount⟩ : ∃ count, count = min (min want rest.length) (ready + 1) := ⟨_, rfl⟩
  have hpositive : 0 < count := by omega
  have hle : count ≤ rest.length := by omega
  have htake : (rest ++ [10]).take count = rest.take count := List.take_append_of_le_length hle
  have hdrop : (rest ++ [10]).drop count = rest.drop count ++ [10] :=
    List.drop_append_of_le_length hle
  have hbytes : (rest.take count).length = count := by rw [List.length_take]; omega
  have hbody : onCat (CatFile.readBody (min want rest.length) ready) (facing chunks next rest)
      = (.ok (rest.take count), ⟨⟨.batch, rest.drop count ++ [10], true, false⟩, chunks, next,
          rest.length⟩) := by
    rw [onCat, Action.zoom, facing, if_neg hrest, CatFile.readBody, ← hcount,
      Action.bind_of_ok (x := Action.get) rfl, Action.bind_of_ok (x := Action.modify _) rfl]
    dsimp only
    rw [htake, hdrop]
    rfl
  refine ⟨count, hpositive, hle, ?_⟩
  rw [readChunk, Action.bind_of_ok (x := Action.get) rfl]
  dsimp only
  rw [show (facing chunks next rest).remaining = rest.length from rfl, Action.bind_of_ok hbody,
    if_neg (List.length_pos_iff.mp (by omega)), Action.bind_of_ok (x := Action.modify _) rfl,
    hbytes]
  -- the last bytes of the chunk, or some before them
  by_cases hend : rest.length = count
  · have hnil : rest.drop count = [] := List.drop_eq_nil_of_le (by omega)
    rw [if_pos hend, hnil]
    have hnewline : CatFile.endBody ⟨.batch, [] ++ [10], true, false⟩
        = (.ok (), ⟨.batch, [], true, false⟩) := CatFile.endBody_newline rfl
    have hbodyEnd : onCat CatFile.endBody (⟨⟨.batch, [] ++ [10], true, false⟩, chunks, next,
        rest.length - count⟩ : GitChunkReader) = (.ok (), facing chunks next []) := by
      rw [onCat, Action.zoom, hnewline, facing, hend, Nat.sub_self]
      rfl
    rw [Action.bind_of_ok hbodyEnd]
    rfl
  · have hne : rest.drop count ≠ [] := fun hnil => by
      rw [List.drop_eq_nil_iff] at hnil
      omega
    rw [if_neg hend, facing, if_neg hne, List.length_drop]
    rfl

/-- The size a chunk must have. -/
def SizeOk (last : Bool) (size : Nat) : Prop :=
  (last = false → size = CARRIER_CHUNK_BYTES)
    ∧ (last = true → 0 < size ∧ size ≤ CARRIER_CHUNK_BYTES)

/-- **The next chunk** is opened if its size is right, and refused if it is not. -/
theorem startNextChunk_at {next : Nat} {chunk : Text × Text} {content : Bytes}
    (hchunk : chunks[next]? = some chunk) (hblob : HasBlob git chunk.2 content) :
    (SizeOk (next + 1 = chunks.length) content.length →
      startNextChunk git (facing chunks next []) = (.ok (), facing chunks (next + 1) content))
    ∧ (¬ SizeOk (next + 1 = chunks.length) content.length →
      ∃ e r, startNextChunk git (facing chunks next []) = (.error e, r)) := by
  obtain ⟨hne, hcontrol⟩ := isGitId_control_free hblob.isId
  have hrequest : onCat (CatFile.request git chunk.2) (facing chunks next [])
      = (.ok (.object chunk.2 .blob content.length),
          ⟨⟨.batch, content ++ [10], true, false⟩, chunks, next, 0⟩) := by
    rw [onCat, Action.zoom, CatFile.request_found hne hcontrol hblob.found hblob.printable rfl rfl]
    rfl
  have hexpected :
      (((facing chunks next []).chunks[(facing chunks next []).next]?).map Prod.snd).getD []
        = chunk.2 := by
    rw [show (facing chunks next []).chunks = chunks from rfl,
      show (facing chunks next []).next = next
      from rfl, hchunk]
    rfl
  -- what is left after the answer of Git is the check of the size
  have hstart : startNextChunk git (facing chunks next [])
      = (if ((decide (next + 1 = chunks.length)) = false ∧ content.length ≠ CARRIER_CHUNK_BYTES)
          ∨ ((decide (next + 1 = chunks.length)) = true
            ∧ (content.length = 0 ∨ CARRIER_CHUNK_BYTES < content.length)) then
        Action.fail (.of (.io .invalidData "carrier object chunk has invalid size"))
        else Action.modify fun reader => { reader with
          next := reader.next + 1, remaining := content.length })
        (⟨⟨.batch, content ++ [10], true, false⟩, chunks, next, 0⟩ : GitChunkReader) := by
    rw [startNextChunk, Action.bind_of_ok (x := Action.get) rfl]
    dsimp only
    rw [hexpected, Action.bind_of_ok hrequest]
    dsimp only
    rw [if_neg (by simp)]
    rfl
  rw [hstart]
  constructor
  · intro hsize
    rw [if_neg ?_]
    · have hcontent : content ≠ [] := by
        have hpos := chunk_pos
        rintro rfl
        cases hlast : decide (next + 1 = chunks.length) with
        | true => exact absurd (hsize.2 hlast).1 (by decide)
        | false => exact absurd (hsize.1 hlast) (by decide)
      rw [facing, if_neg hcontent]
      rfl
    · rintro (⟨hlast, hne⟩ | ⟨hlast, hbad⟩)
      · exact hne (hsize.1 hlast)
      · have := hsize.2 hlast
        omega
  · intro hsize
    rw [if_pos ?_]
    · exact ⟨_, _, rfl⟩
    · by_contra hgood
      rw [not_or, not_and, not_and] at hgood
      refine hsize ⟨fun hlast => not_not.mp (hgood.1 hlast), fun hlast => ?_⟩
      have := hgood.2 hlast
      omega

/-- A sequence is canonical if each chunk has the size its place asks for. -/
theorem canonical_cons_iff {chunk : Bytes} {cs : List Bytes} :
    Canonical (chunk :: cs)
      ↔ SizeOk (cs = []) chunk.length ∧ (cs = [] ∨ Canonical cs) := by
  cases cs with
  | nil => simp [Canonical, SizeOk]
  | cons next rest => simp [Canonical, SizeOk]

/-- A chunk that is open is read on. -/
theorem read_rest {next want ready : Nat} {rest : Bytes} (hrest : rest ≠ []) (hwant : 0 < want) :
    read git want ready (facing chunks next rest)
      = readChunk want ready (facing chunks next rest) := by
  have hremaining : (facing chunks next rest).remaining ≠ 0 :=
    fun h => hrest (List.length_eq_zero_iff.mp h)
  rw [read, if_neg (by omega), Action.bind_of_ok (x := Action.get) rfl]
  rw [if_neg hremaining]

/-- Behind the last chunk a read returns nothing. -/
theorem read_end {want ready : Nat} (hwant : 0 < want) :
    ∃ r, read git want ready (facing chunks chunks.length []) = (.ok [], r) := by
  have hnone : (facing chunks chunks.length []).remaining = 0 := rfl
  have hend : (facing chunks chunks.length []).next
      = (facing chunks chunks.length []).chunks.length := rfl
  rw [read, if_neg (by omega), Action.bind_of_ok (x := Action.get) rfl, if_pos hnone, if_pos hend]
  exact ⟨_, rfl⟩

/-- Between two chunks the next one is opened first. -/
theorem read_next {next want ready : Nat} (hwant : 0 < want) (hnext : next < chunks.length) :
    read git want ready (facing chunks next [])
      = (startNextChunk git >>= fun _ => readChunk want ready) (facing chunks next []) := by
  have hmore : (facing chunks next []).next ≠ (facing chunks next []).chunks.length :=
    Nat.ne_of_lt hnext
  have hnone : (facing chunks next []).remaining = 0 := rfl
  rw [read, if_neg (by omega), Action.bind_of_ok (x := Action.get) rfl, if_pos hnone, if_neg hmore]

/-- The blobs of a listing, one for each chunk. -/
abbrev HasBlobs (git : ObjectNames) (chunks : List (Text × Text)) (contents : List Bytes) : Prop :=
  List.Forall₂ (fun chunk content => HasBlob git chunk.2 content) chunks contents

/-- What is left of a sequence of chunks has the right sizes. -/
def SizesOk (cs : List Bytes) : Prop := cs = [] ∨ Canonical cs

theorem sizesOk_cons {chunk : Bytes} {cs : List Bytes} :
    SizesOk (chunk :: cs) ↔ SizeOk (cs = []) chunk.length ∧ SizesOk cs := by
  rw [SizesOk, canonical_cons_iff, or_iff_right (List.cons_ne_nil _ _), SizesOk]

/-- No chunk is empty. -/
theorem SizeOk.ne_nil {last : Bool} {content : Bytes} (h : SizeOk last content.length) :
    content ≠ [] := by
  rintro rfl
  have hpos := chunk_pos
  cases last with
  | true => exact absurd (h.2 rfl).1 (Nat.lt_irrefl 0)
  | false => exact absurd (h.1 rfl) (Nat.ne_of_lt hpos)

/-- What a read that returned bytes has done: it took them off the front. -/
structure Took (chunks : List (Text × Text)) (contents : List Bytes) (next : Nat)
    (rest bytes : Bytes)
    (next' : Nat) (rest' : Bytes) : Prop where
  some : bytes ≠ []
  inside : next' ≤ chunks.length
  front : rest ++ (contents.drop next).flatten = bytes ++ (rest' ++ (contents.drop next').flatten)
  sizes : SizesOk (contents.drop next) ↔ SizesOk (contents.drop next')

/-- A read with bytes left of the open chunk. -/
theorem readChunk_took {next want ready : Nat} {rest : Bytes} (hrest : rest ≠ []) (hwant : 0 < want)
    (hnext : next ≤ chunks.length) :
    ∃ bytes rest', Took chunks contents next rest bytes next rest'
      ∧ readChunk want ready (facing chunks next rest)
        = (.ok bytes, facing chunks next rest') := by
  obtain ⟨count, hpos, hle, hread⟩ := @readChunk_at chunks next _ ready rest hrest hwant
  have hbytes : rest.take count ≠ [] := fun h => by
    rw [List.take_eq_nil_iff] at h
    exact h.elim (by omega) hrest
  refine ⟨_, _, ⟨hbytes, hnext, ?_, Iff.rfl⟩, hread⟩
  rw [← List.append_assoc, List.take_append_drop]

/-- **One read**: it takes bytes off the front of what is left, or nothing is left, or the size of
the next chunk is wrong. -/
theorem read_facing (hblobs : HasBlobs git chunks contents) {next want ready : Nat} {rest : Bytes}
    (hwant : 0 < want) (hnext : next ≤ chunks.length) :
    (∃ bytes next' rest', Took chunks contents next rest bytes next' rest'
        ∧ read git want ready (facing chunks next rest) = (.ok bytes, facing chunks next' rest'))
    ∨ (rest = [] ∧ contents.drop next = []
        ∧ ∃ r, read git want ready (facing chunks next rest) = (.ok [], r))
    ∨ (¬ SizesOk (contents.drop next)
        ∧ ∃ e r, read git want ready (facing chunks next rest) = (.error e, r)) := by
  have hlength := hblobs.length_eq
  by_cases hrest : rest = []
  · subst hrest
    rcases Nat.lt_or_eq_of_le hnext with hlt | rfl
    · -- the next chunk is opened, and its first bytes are read
      have hltc : next < contents.length := by omega
      have hdrop : contents.drop next = contents[next] :: contents.drop (next + 1) :=
        List.drop_eq_getElem_cons hltc
      have hblob : HasBlob git (chunks[next]).2 contents[next] := hblobs.get hlt hltc
      obtain ⟨hgood, hbad⟩ := startNextChunk_at (List.getElem?_eq_getElem hlt) hblob
      have hlast : (next + 1 = chunks.length) ↔ contents.drop (next + 1) = [] := by
        rw [List.drop_eq_nil_iff]
        omega
      simp only [hlast] at hgood hbad
      rw [hdrop, sizesOk_cons, read_next hwant hlt]
      by_cases hsize : SizeOk (contents.drop (next + 1) = []) contents[next].length
      · obtain ⟨bytes, rest', htook, hread⟩ :=
          @readChunk_took chunks contents _ _ ready _ hsize.ne_nil hwant hlt
        rw [Action.bind_of_ok (hgood hsize), hread]
        refine .inl ⟨bytes, next + 1, rest', ⟨htook.some, hlt, ?_, ?_⟩, rfl⟩
        · rw [hdrop, List.nil_append, List.flatten_cons, htook.front]
        · rw [hdrop, sizesOk_cons, and_iff_right hsize]
      · obtain ⟨e, r, hr⟩ := hbad hsize
        exact .inr (.inr ⟨fun h => hsize h.1, e, r, Action.bind_of_error hr⟩)
    · exact .inr (.inl ⟨rfl, List.drop_eq_nil_of_le (by omega), read_end hwant⟩)
  · obtain ⟨bytes, rest', htook, hread⟩ :=
      @readChunk_took chunks contents _ _ ready _ hrest hwant hnext
    exact .inl ⟨bytes, next, rest', htook, by rw [read_rest hrest hwant, hread]⟩

/-- Reading to the end returns what is left if the sizes are right, and fails if they are not. -/
theorem drain_facing (hblobs : HasBlobs git chunks contents) (schedule : Nat → Nat × Nat)
    (fuel : Nat) : ∀ next rest, next ≤ chunks.length →
      rest.length + (contents.drop next).flatten.length < fuel →
      (SizesOk (contents.drop next) →
        ∃ r, drain (read git) schedule fuel (facing chunks next rest)
          = (.ok (rest ++ (contents.drop next).flatten), r))
      ∧ (¬ SizesOk (contents.drop next) →
        ∃ e r, drain (read git) schedule fuel (facing chunks next rest) = (.error e, r)) := by
  induction fuel with
  | zero =>
    intro next rest _ hfuel
    omega
  | succ fuel ih =>
    intro next rest hnext hfuel
    have hwant : 0 < (schedule fuel).1 + 1 := Nat.succ_pos _
    rcases @read_facing git chunks contents hblobs next _ (schedule fuel).2 rest hwant hnext with
      ⟨bytes, next', rest', htook, hread⟩ | ⟨hnil, hend, r, hread⟩ | ⟨hbad, e, r, hread⟩
    · -- fewer bytes are left, so the fuel lasts
      have hshorter := congrArg List.length htook.front
      have hbytes := List.length_pos_iff.mpr htook.some
      rw [List.length_append, List.length_append, List.length_append] at hshorter
      obtain ⟨hmore, hless⟩ := ih next' rest' htook.inside (by omega)
      refine ⟨fun hsizes => ?_, fun hsizes => ?_⟩
      · obtain ⟨r, hr⟩ := hmore (htook.sizes.mp hsizes)
        rw [htook.front]
        exact ⟨r, drain_step htook.some hread hr⟩
      · obtain ⟨e, r, hr⟩ := hless fun h => hsizes (htook.sizes.mpr h)
        exact ⟨e, r, drain_step_error htook.some hread hr⟩
    · rw [hend, hnil]
      rw [hnil] at hread
      exact ⟨fun _ => ⟨r, drain_end hread⟩, fun h => absurd (.inl rfl) h⟩
    · exact ⟨fun h => absurd h hbad, fun _ => ⟨e, r, drain_error hread⟩⟩

/-- **The reader over blobs** returns the bytes the chunks stand for if they are canonical, and
fails if they are not. -/
theorem drain_new (hblobs : HasBlobs git chunks contents) (hne : contents ≠ [])
    (schedule : Nat → Nat × Nat) {fuel : Nat} (hfuel : contents.flatten.length < fuel) :
    (Canonical contents →
      ∃ r, drain (read git) schedule fuel (new chunks) = (.ok contents.flatten, r))
    ∧ (¬ Canonical contents →
      ∃ e r, drain (read git) schedule fuel (new chunks) = (.error e, r)) := by
  have hsizes : SizesOk contents ↔ Canonical contents := or_iff_right hne
  have hdrain := drain_facing hblobs schedule fuel 0 [] (Nat.zero_le _)
    (by rw [List.length_nil, Nat.zero_add]; exact hfuel)
  rw [List.drop_zero, hsizes, List.nil_append] at hdrain
  exact hdrain

end GitChunkReader

end GitE2EE

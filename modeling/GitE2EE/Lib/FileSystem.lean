import GitE2EE.Lib.Wire
import Mathlib.Data.List.AList
import Mathlib.Logic.Function.Basic

/-!
# A file system, and what of it is flushed

Directories and files are nodes, numbered in the order they were made; node 0 is the
top directory, and a path is the names that lead down from it. Each directory has the
entries a running program sees and the entries that were there when it was last
flushed; each file has its content and the content last flushed. What is flushed is what
would be left by a power cut.

A name can lead to a new node after the old one was removed, so what is flushed is
told by nodes, not by paths.
-/

namespace Files

open Wire (Bytes)

/-- Why a call failed, as far as callers tell reasons apart. -/
inductive Fault where
  | notFound
  | alreadyExists
  | other
deriving DecidableEq, Repr

/-- What a path leads to. -/
inductive Node where
  | directory
  | file (content : Bytes)
deriving DecidableEq

abbrev Entries (N : Type) := AList (fun _ : N => Nat)

/-- Directories and files as numbered nodes. What is linked and written now is kept apart from
what would survive a crash: `flushed` and `saved`. -/
structure FileSystem (N : Type) [DecidableEq N] where
  entries : Nat → Entries N
  flushed : Nat → Entries N
  /-- A directory has no content. -/
  content : Nat → Option Bytes
  saved : Nat → Option Bytes
  next : Nat
  top : 0 < next
  linked : ∀ d name i, (entries d).lookup name = some i → i < next

namespace FileSystem

variable {N : Type} [DecidableEq N] (fs : FileSystem N)

/-- One empty directory. -/
def empty : FileSystem N where
  entries _ := ∅
  flushed _ := ∅
  content _ := none
  saved _ := none
  next := 1
  top := Nat.one_pos
  linked d name i h := by simp at h

/-! ## Looking -/

/-- What a name in a directory leads to. A file has no entries. -/
def entry (d : Nat) (name : N) : Option Nat :=
  if fs.content d = none then (fs.entries d).lookup name else none

theorem entry_lt {d i : Nat} {name : N} (h : fs.entry d name = some i) : i < fs.next := by
  unfold entry at h
  split at h
  · exact fs.linked d name i h
  · cases h

/-- Walks a path from a node. -/
def lookupFrom : Nat → List N → Option Nat
  | node, [] => some node
  | node, name :: path =>
    match fs.entry node name with
    | some child => lookupFrom child path
    | none => none

/-- The node at a path from the root, which is node 0. -/
def lookup (path : List N) : Option Nat := fs.lookupFrom 0 path

/-- What a node is. -/
def node (i : Nat) : Node :=
  match fs.content i with
  | none => .directory
  | some content => .file content

def read (path : List N) : Option Node := (fs.lookup path).map fs.node

def «exists» (path : List N) : Bool := (fs.lookup path).isSome

def isDir (path : List N) : Bool := fs.read path = some .directory

/-- The node of a directory. -/
def directory (path : List N) : Option Nat :=
  (fs.lookup path).filter fun i => fs.content i = none

/-! ## Changing -/

def setEntries (d : Nat) (entries : Entries N)
    (h : ∀ name i, entries.lookup name = some i → i < fs.next) : FileSystem N :=
  { fs with
    entries := Function.update fs.entries d entries
    linked := by
      intro e name i hi
      by_cases he : e = d
      · subst he
        rw [Function.update_self] at hi
        exact h name i hi
      · rw [Function.update_of_ne he] at hi
        exact fs.linked e name i hi }

/-- A name for a node. -/
def insert (d : Nat) (name : N) (i : Nat) (h : i < fs.next) : FileSystem N :=
  fs.setEntries d ((fs.entries d).insert name i) (by
    intro other j hj
    by_cases hn : other = name
    · subst hn
      rw [AList.lookup_insert] at hj
      cases hj
      exact h
    · rw [AList.lookup_insert_ne hn] at hj
      exact fs.linked d other j hj)

def erase (d : Nat) (name : N) : FileSystem N :=
  fs.setEntries d ((fs.entries d).erase name) (by
    intro other j hj
    by_cases hn : other = name
    · subst hn
      rw [AList.lookup_erase] at hj
      cases hj
    · rw [AList.lookup_erase_ne hn] at hj
      exact fs.linked d other j hj)

/-- One more node, with no entries and no name. -/
def allocate (content : Option Bytes) : FileSystem N where
  entries := Function.update fs.entries fs.next ∅
  flushed := Function.update fs.flushed fs.next ∅
  content := Function.update fs.content fs.next content
  saved := Function.update fs.saved fs.next none
  next := fs.next + 1
  top := Nat.succ_pos _
  linked := by
    intro e name i h
    by_cases he : e = fs.next
    · subst he
      rw [Function.update_self] at h
      simp at h
    · rw [Function.update_of_ne he] at h
      exact Nat.lt_succ_of_lt (fs.linked e name i h)

theorem next_lt_allocate (content : Option Bytes) : fs.next < (fs.allocate content).next :=
  Nat.lt_succ_self _

/-- A new node under a free name. -/
def insertNew (d : Nat) (name : N) (content : Option Bytes) : FileSystem N :=
  (fs.allocate content).insert d name fs.next (fs.next_lt_allocate content)

/-- `mkdir`. -/
def createDir (path : List N) (name : N) : Except Fault Unit × FileSystem N :=
  match fs.directory path with
  | none => (.error .notFound, fs)
  | some d =>
    match fs.entry d name with
    | some _ => (.error .alreadyExists, fs)
    | none => (.ok (), fs.insertNew d name none)

/-- `rmdir`: of an empty directory. -/
def removeDir (path : List N) (name : N) : Except Fault Unit × FileSystem N :=
  match fs.directory path with
  | none => (.error .notFound, fs)
  | some d =>
    match fs.entry d name with
    | none => (.error .notFound, fs)
    | some i =>
      if fs.content i = none ∧ (fs.entries i).entries = [] then (.ok (), fs.erase d name)
      else (.error .other, fs)

/-- Opens a file for writing that must not be there yet. -/
def createNew (path : List N) (name : N) : Except Fault Nat × FileSystem N :=
  match fs.directory path with
  | none => (.error .notFound, fs)
  | some d =>
    match fs.entry d name with
    | some _ => (.error .alreadyExists, fs)
    | none => (.ok fs.next, fs.insertNew d name (some []))

/-- Appends to an open file. -/
def write (i : Nat) (data : Bytes) : FileSystem N :=
  match fs.content i with
  | none => fs
  | some content => { fs with content := Function.update fs.content i (some (content ++ data)) }

/-- Flushes the content of an open file. -/
def syncFile (i : Nat) : FileSystem N :=
  { fs with saved := Function.update fs.saved i (fs.content i) }

/-- `rename` within a directory, over whatever file has the new name. -/
def rename (path : List N) (source target : N) : Except Fault Unit × FileSystem N :=
  match fs.directory path with
  | none => (.error .notFound, fs)
  | some d =>
    match h : fs.entry d source with
    | none => (.error .notFound, fs)
    | some i =>
      if source = target then (.ok (), fs)
      else if (fs.entry d target).map fs.node = some .directory then (.error .other, fs)
      else (.ok (), (fs.insert d target i (fs.entry_lt h)).erase d source)

/-- `link`: a second name for a file, in any directory. -/
def hardLink (path : List N) (source : N) (targetPath : List N) (target : N) :
    Except Fault Unit × FileSystem N :=
  match fs.directory path, fs.directory targetPath with
  | some d, some e =>
    match h : fs.entry d source with
    | none => (.error .notFound, fs)
    | some i =>
      if fs.content i = none then (.error .other, fs)
      else
        match fs.entry e target with
        | some _ => (.error .alreadyExists, fs)
        | none => (.ok (), fs.insert e target i (fs.entry_lt h))
  | _, _ => (.error .notFound, fs)

/-- `unlink`. -/
def removeFile (path : List N) (name : N) : Except Fault Unit × FileSystem N :=
  match fs.directory path with
  | none => (.error .notFound, fs)
  | some d =>
    match fs.entry d name with
    | none => (.error .notFound, fs)
    | some i =>
      if fs.content i = none then (.error .other, fs) else (.ok (), fs.erase d name)

/-- What is in a directory now survives. -/
def flush (d : Nat) : FileSystem N :=
  { fs with flushed := Function.update fs.flushed d (fs.entries d) }

/-- Flushes the entries of a directory. -/
def syncDir (path : List N) : Except Fault Unit × FileSystem N :=
  match fs.directory path with
  | none => (.error .notFound, fs)
  | some d => (.ok (), fs.flush d)

/-! ## What the primitive changes do -/

variable {fs}

/-- A file has no entries. -/
theorem entry_of_content {d : Nat} {content : Bytes} (h : fs.content d = some content) (name : N) :
    fs.entry d name = none := by
  rw [entry, h, if_neg (Option.some_ne_none _)]

theorem entry_insert {d e i : Nat} {name other : N} {h : i < fs.next} (hd : fs.content d = none) :
    (fs.insert d name i h).entry e other
      = if e = d ∧ other = name then some i else fs.entry e other := by
  show (if fs.content e = none then
    (Function.update fs.entries d ((fs.entries d).insert name i) e).lookup other else none) = _
  by_cases he : e = d
  · subst he
    rw [Function.update_self, if_pos hd]
    by_cases hn : other = name
    · subst hn
      rw [AList.lookup_insert, if_pos ⟨rfl, rfl⟩]
    · rw [AList.lookup_insert_ne hn, if_neg fun h => hn h.2, entry, if_pos hd]
  · rw [Function.update_of_ne he, if_neg (c := e = d ∧ other = name) fun h => he h.1]
    rfl

theorem entry_erase {d e : Nat} {name other : N} :
    (fs.erase d name).entry e other
      = if e = d ∧ other = name then none else fs.entry e other := by
  show (if fs.content e = none then
    (Function.update fs.entries d ((fs.entries d).erase name) e).lookup other else none) = _
  by_cases he : e = d
  · subst he
    rw [Function.update_self]
    by_cases hn : other = name
    · subst hn
      rw [AList.lookup_erase, ite_self, if_pos ⟨rfl, rfl⟩]
    · rw [AList.lookup_erase_ne hn, if_neg (c := e = e ∧ other = name) fun h => hn h.2]
      rfl
  · rw [Function.update_of_ne he, if_neg (c := e = d ∧ other = name) fun h => he h.1]
    rfl

theorem entry_allocate {e : Nat} {other : N} {content : Option Bytes} (he : e ≠ fs.next) :
    (fs.allocate content).entry e other = fs.entry e other := by
  show (if Function.update fs.content fs.next content e = none then
    (Function.update fs.entries fs.next ∅ e).lookup other else none) = _
  rw [Function.update_of_ne he, Function.update_of_ne he]
  rfl

theorem entry_insertNew {d e : Nat} {name other : N} {content : Option Bytes}
    (hd : fs.content d = none) (hlt : d < fs.next) (he : e ≠ fs.next) :
    (fs.insertNew d name content).entry e other
      = if e = d ∧ other = name then some fs.next else fs.entry e other := by
  have hd' : (fs.allocate content).content d = none := by
    show Function.update fs.content fs.next content d = none
    rw [Function.update_of_ne (Nat.ne_of_lt hlt)]
    exact hd
  rw [insertNew, entry_insert hd', entry_allocate he]

@[simp] theorem content_insertNew {d i : Nat} {name : N} {content : Option Bytes} :
    (fs.insertNew d name content).content i = if i = fs.next then content else fs.content i := by
  show Function.update fs.content fs.next content i = _
  rw [Function.update_apply]

@[simp] theorem content_write {i j : Nat} {data : Bytes} :
    (fs.write i data).content j
      = if j = i then (fs.content i).map (· ++ data) else fs.content j := by
  unfold write
  cases hc : fs.content i with
  | none =>
    by_cases hj : j = i
    · subst hj
      rw [if_pos rfl, hc]
      rfl
    · rw [if_neg hj]
  | some content =>
    show Function.update fs.content i (some (content ++ data)) j = _
    rw [Function.update_apply]
    rfl

theorem entry_write {i d : Nat} {name : N} {data : Bytes} :
    (fs.write i data).entry d name = fs.entry d name := by
  have hentries : (fs.write i data).entries = fs.entries := by
    unfold write
    split <;> rfl
  -- writing turns no directory into a file
  have hkind : (fs.write i data).content d = none ↔ fs.content d = none := by
    rw [content_write]
    by_cases hd : d = i
    · subst hd
      rw [if_pos rfl, Option.map_eq_none_iff]
    · rw [if_neg hd]
  rw [entry, entry, hentries]
  simp only [hkind]

theorem directory_eq_some {path : List N} {d : Nat} :
    fs.directory path = some d ↔ fs.lookup path = some d ∧ fs.content d = none := by
  rw [directory, Option.filter_eq_some_iff, decide_eq_true_eq]

/-! ## What a call does, by its answer -/

/-- A new directory under a free name, or nothing. -/
theorem createDir_cases {path : List N} {name : N} {reply : Except Fault Unit}
    {after : FileSystem N} (h : fs.createDir path name = (reply, after)) :
    (reply = .ok () ∧ ∃ d, fs.directory path = some d ∧ fs.entry d name = none
      ∧ after = fs.insertNew d name none)
    ∨ ((∃ fault, reply = .error fault) ∧ after = fs) := by
  unfold createDir at h
  split at h
  · cases h
    exact .inr ⟨⟨_, rfl⟩, rfl⟩
  · rename_i d hd
    split at h
    · cases h
      exact .inr ⟨⟨_, rfl⟩, rfl⟩
    · rename_i hfree
      cases h
      exact .inl ⟨rfl, d, hd, hfree, rfl⟩

/-- A new and empty file under a free name, or nothing. -/
theorem createNew_cases {path : List N} {name : N} {reply : Except Fault Nat}
    {after : FileSystem N} (h : fs.createNew path name = (reply, after)) :
    (reply = .ok fs.next ∧ ∃ d, fs.directory path = some d ∧ fs.entry d name = none
      ∧ after = fs.insertNew d name (some []))
    ∨ ((∃ fault, reply = .error fault) ∧ after = fs) := by
  unfold createNew at h
  split at h
  · cases h
    exact .inr ⟨⟨_, rfl⟩, rfl⟩
  · rename_i d hd
    split at h
    · cases h
      exact .inr ⟨⟨_, rfl⟩, rfl⟩
    · rename_i hfree
      cases h
      exact .inl ⟨rfl, d, hd, hfree, rfl⟩

theorem entry_of_empty {k : Nat} (h : (fs.entries k).entries = []) (name : N) :
    fs.entry k name = none := by
  have hk : fs.entries k = ∅ := AList.ext h
  rw [entry, hk, AList.lookup_empty, ite_self]

/-- An empty directory is removed, or nothing is. -/
theorem removeDir_cases {path : List N} {name : N} {reply : Except Fault Unit}
    {after : FileSystem N} (h : fs.removeDir path name = (reply, after)) :
    (reply = .ok () ∧ ∃ d k, fs.directory path = some d ∧ fs.entry d name = some k
      ∧ (∀ other, fs.entry k other = none) ∧ after = fs.erase d name)
    ∨ ((∃ fault, reply = .error fault) ∧ after = fs) := by
  unfold removeDir at h
  split at h
  · cases h
    exact .inr ⟨⟨_, rfl⟩, rfl⟩
  · rename_i d hd
    split at h
    · cases h
      exact .inr ⟨⟨_, rfl⟩, rfl⟩
    · rename_i k hk
      split at h
      · rename_i hempty
        cases h
        exact .inl ⟨rfl, d, k, hd, hk, entry_of_empty hempty.2, rfl⟩
      · cases h
        exact .inr ⟨⟨_, rfl⟩, rfl⟩

/-- The name of a file is removed, or nothing is. -/
theorem removeFile_cases {path : List N} {name : N} {reply : Except Fault Unit}
    {after : FileSystem N} (h : fs.removeFile path name = (reply, after)) :
    (reply = .ok () ∧ ∃ d k, fs.directory path = some d ∧ fs.entry d name = some k
      ∧ fs.content k ≠ none ∧ after = fs.erase d name)
    ∨ ((∃ fault, reply = .error fault) ∧ after = fs) := by
  unfold removeFile at h
  split at h
  · cases h
    exact .inr ⟨⟨_, rfl⟩, rfl⟩
  · rename_i d hd
    split at h
    · cases h
      exact .inr ⟨⟨_, rfl⟩, rfl⟩
    · rename_i k hk
      split at h
      · cases h
        exact .inr ⟨⟨_, rfl⟩, rfl⟩
      · rename_i hfile
        cases h
        exact .inl ⟨rfl, d, k, hd, hk, hfile, rfl⟩

/-- The entries of a directory are flushed, or nothing is. -/
theorem syncDir_cases {path : List N} {reply : Except Fault Unit} {after : FileSystem N}
    (h : fs.syncDir path = (reply, after)) :
    (reply = .ok () ∧ ∃ d, fs.directory path = some d ∧ after = fs.flush d)
    ∨ ((∃ fault, reply = .error fault) ∧ after = fs) := by
  unfold syncDir at h
  split at h
  · cases h
    exact .inr ⟨⟨_, rfl⟩, rfl⟩
  · rename_i d hd
    cases h
    exact .inl ⟨rfl, d, hd, rfl⟩

/-- A rename replaces what the target was, which was not a directory with anything in it, or
does nothing. -/
theorem rename_cases {path : List N} {source target : N} {reply : Except Fault Unit}
    {after : FileSystem N} (hne : source ≠ target)
    (h : fs.rename path source target = (reply, after)) :
    (reply = .ok () ∧ ∃ d i, ∃ hi : i < fs.next, fs.directory path = some d
      ∧ fs.entry d source = some i
      ∧ (∀ k, fs.entry d target = some k → ∀ other, fs.entry k other = none)
      ∧ after = (fs.insert d target i hi).erase d source)
    ∨ ((∃ fault, reply = .error fault) ∧ after = fs) := by
  unfold rename at h
  split at h
  · cases h
    exact .inr ⟨⟨_, rfl⟩, rfl⟩
  · rename_i d hd
    split at h
    · cases h
      exact .inr ⟨⟨_, rfl⟩, rfl⟩
    · rename_i i hi
      rw [if_neg hne] at h
      split at h
      · cases h
        exact .inr ⟨⟨_, rfl⟩, rfl⟩
      · rename_i hfile
        cases h
        refine .inl ⟨rfl, d, i, _, hd, hi, fun k hk => ?_, rfl⟩
        rw [hk] at hfile
        cases hc : fs.content k with
        | none =>
          refine absurd ?_ hfile
          show some (fs.node k) = _
          rw [node, hc]
        | some content => exact entry_of_content hc

/-! ## Paths -/

theorem lookupFrom_lt {i j : Nat} {path : List N} (hi : i < fs.next)
    (h : fs.lookupFrom i path = some j) : j < fs.next := by
  induction path generalizing i with
  | nil =>
    cases h
    exact hi
  | cons name path ih =>
    rw [lookupFrom] at h
    split at h
    · rename_i child hc
      exact ih (fs.entry_lt hc) h
    · cases h

theorem lookup_lt {path : List N} {i : Nat} (h : fs.lookup path = some i) : i < fs.next :=
  lookupFrom_lt fs.top h

theorem lookupFrom_append {i : Nat} {path rest : List N} :
    fs.lookupFrom i (path ++ rest) = (fs.lookupFrom i path).bind (fs.lookupFrom · rest) := by
  induction path generalizing i with
  | nil => rfl
  | cons name path ih =>
    show (match fs.entry i name with
      | some child => fs.lookupFrom child (path ++ rest)
      | none => none) = (match fs.entry i name with
      | some child => fs.lookupFrom child path
      | none => none).bind _
    cases fs.entry i name with
    | none => rfl
    | some child => exact ih

/-- Paths depend on entries only. -/
theorem lookupFrom_congr {fs' : FileSystem N} (h : ∀ d name, fs'.entry d name = fs.entry d name)
    (i : Nat) (path : List N) : fs'.lookupFrom i path = fs.lookupFrom i path := by
  induction path generalizing i with
  | nil => rfl
  | cons name path ih =>
    rw [lookupFrom, lookupFrom, h]
    cases fs.entry i name with
    | none => rfl
    | some child => exact ih child

theorem lookup_flush (d : Nat) (path : List N) : (fs.flush d).lookup path = fs.lookup path := by
  have hentry : ∀ e name, (fs.flush d).entry e name = fs.entry e name := fun _ _ => rfl
  exact lookupFrom_congr hentry 0 path

theorem lookup_concat {path : List N} {name : N} {d : Nat} (h : fs.lookup path = some d) :
    fs.lookup (path ++ [name]) = fs.entry d name := by
  rw [lookup, lookupFrom_append]
  show (fs.lookup path).bind _ = _
  rw [h]
  show (match fs.entry d name with
    | some child => some child
    | none => none) = _
  cases fs.entry d name <;> rfl

/-- What a path leads to stays when one entry changes that the path does not use: it was
free, or led to a node without entries that is not where the path ends. -/
theorem lookupFrom_other {fs' : FileSystem N} {i j : Nat} (d : Nat) (name : N) {path : List N}
    (hsame : ∀ e other, e < fs.next → ¬ (e = d ∧ other = name) →
      fs'.entry e other = fs.entry e other)
    (hleaf : ∀ k, fs.entry d name = some k → k ≠ j ∧ ∀ other, fs.entry k other = none)
    (hi : i < fs.next) (h : fs.lookupFrom i path = some j) : fs'.lookupFrom i path = some j := by
  induction path generalizing i with
  | nil => exact h
  | cons other path ih =>
    rw [lookupFrom] at h ⊢
    cases hc : fs.entry i other with
    | none =>
      rw [hc] at h
      cases h
    | some child =>
      rw [hc] at h
      have hused : ¬ (i = d ∧ other = name) := by
        rintro ⟨rfl, rfl⟩
        obtain ⟨hne, hempty⟩ := hleaf child hc
        -- the path would end at that node, or go on from it
        cases path with
        | nil =>
          cases h
          exact hne rfl
        | cons following path =>
          change (match fs.entry child following with
            | some below => fs.lookupFrom below path
            | none => none) = some j at h
          rw [hempty] at h
          cases h
      rw [hsame i other hi hused, hc]
      exact ih (fs.entry_lt hc) h

/-- A node without entries is not the directory it is in. -/
theorem leaf_ne {d k : Nat} {name : N} (hk : fs.entry d name = some k)
    (hempty : ∀ other, fs.entry k other = none) : k ≠ d := by
  rintro rfl
  rw [hempty] at hk
  cases hk

/-- Paths are not changed by a new name. -/
theorem lookup_insertNew {path : List N} {d j : Nat} {name : N} {content : Option Bytes}
    (hd : fs.content d = none) (hlt : d < fs.next) (hfree : fs.entry d name = none)
    (h : fs.lookup path = some j) : (fs.insertNew d name content).lookup path = some j := by
  refine lookupFrom_other d name (fun e other he hne => ?_) ?_ fs.top h
  · rw [entry_insertNew hd hlt (Nat.ne_of_lt he), if_neg hne]
  · intro k hk
    rw [hfree] at hk
    cases hk

/-- A path that leads to `d` does not go through an entry of `d` that has none of its own. -/
theorem lookup_erase {path : List N} {d k : Nat} {name : N} (hk : fs.entry d name = some k)
    (hempty : ∀ other, fs.entry k other = none) (h : fs.lookup path = some d) :
    (fs.erase d name).lookup path = some d := by
  refine lookupFrom_other d name (fun e other _ hne => ?_) ?_ fs.top h
  · rw [entry_erase, if_neg hne]
  · intro k' hk'
    rw [hk] at hk'
    cases hk'
    exact ⟨leaf_ne hk hempty, hempty⟩

/-- A path that leads to `d` survives a new entry of `d` in the place of a leaf. -/
theorem lookup_insert {path : List N} {d i : Nat} {name : N} {hi : i < fs.next}
    (hd : fs.content d = none)
    (hleaf : ∀ k, fs.entry d name = some k → ∀ other, fs.entry k other = none)
    (h : fs.lookup path = some d) : (fs.insert d name i hi).lookup path = some d := by
  refine lookupFrom_other d name (fun e other _ hne => ?_) ?_ fs.top h
  · rw [entry_insert hd, if_neg hne]
  · exact fun k hk => ⟨leaf_ne hk (hleaf k hk), hleaf k hk⟩

/-- Every path to a place that exists exists. -/
theorem lookup_of_append {path rest : List N} {i : Nat} (h : fs.lookup (path ++ rest) = some i) :
    ∃ j, fs.lookup path = some j ∧ fs.lookupFrom j rest = some i := by
  rw [lookup, lookupFrom_append] at h
  cases hj : fs.lookup path with
  | none =>
    change (fs.lookup path).bind _ = some i at h
    rw [hj] at h
    cases h
  | some j =>
    change (fs.lookup path).bind _ = some i at h
    rw [hj] at h
    exact ⟨j, rfl, h⟩

/-! ## What is left alone -/

/-- What the name in a directory leads to. -/
def child (fs : FileSystem N) (d : Nat) (name : N) : Option Node := (fs.entry d name).map fs.node

/-- From one file system to another nothing changed in directory `d` but the entries
under the touched names, and no file changed. -/
structure Frame (d : Nat) (touched : N → Prop) (before after : FileSystem N) : Prop where
  entry : ∀ name, ¬ touched name → after.entry d name = before.entry d name
  content : ∀ i, i < before.next → after.content i = before.content i
  next : before.next ≤ after.next

namespace Frame

variable {d : Nat} {touched : N → Prop} {a b c : FileSystem N}

theorem refl : Frame d touched a a := ⟨fun _ _ => rfl, fun _ _ => rfl, Nat.le_refl _⟩

theorem child (h : Frame d touched a b) {name : N} (hn : ¬ touched name) :
    b.child d name = a.child d name := by
  rw [FileSystem.child, FileSystem.child, h.entry name hn]
  cases hc : a.entry d name with
  | none => rfl
  | some i =>
    show some (b.node i) = some (a.node i)
    rw [node, node, h.content i (a.entry_lt hc)]

theorem insertNew {name : N} {content : Option Bytes} (hlt : d < a.next)
    (hd : a.content d = none) (hn : touched name) :
      Frame d touched a (a.insertNew d name content) where
  entry other h := by
    rw [entry_insertNew hd hlt (Nat.ne_of_lt hlt), if_neg]
    rintro ⟨-, rfl⟩
    exact h hn
  content i h := by rw [content_insertNew, if_neg (Nat.ne_of_lt h)]
  next := Nat.le_succ _

theorem flush (e : Nat) : Frame d touched a (a.flush e) :=
  ⟨fun _ _ => rfl, fun _ _ => rfl, Nat.le_refl _⟩

theorem erase {name : N} (hn : touched name) : Frame d touched a (a.erase d name) where
  entry other h := by
    rw [entry_erase, if_neg]
    rintro ⟨-, rfl⟩
    exact h hn
  content i h := rfl
  next := Nat.le_refl _

end Frame

end FileSystem

end Files

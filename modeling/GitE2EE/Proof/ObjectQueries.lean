import GitE2EE.Model.ObjectQueries
import GitE2EE.Proof.CatFile

/-!
# Queries over processes are queries of the database

The answers of `git cat-file` come in one stream without marks between them, so an answer that
is not taken off completely turns up in the next query. Every query leaves both streams empty,
whatever the pipe hands out at a time and whether it succeeds or fails. Any sequence of queries
over the same two processes then gives what the object database says of each.

Queries are for full ids, in either case. Git knows other names for objects too, but what it
makes of them is not the program's business: the targets it reads out of tags are full ids.
-/

namespace GitE2EE

open Wire Effect

/-! ## Chains end -/

namespace ObjectDatabase

variable {db : ObjectDatabase} {reference : Text}

/-- The loop has come from some object along the targets of tags: to `current`, through `seen`. -/
inductive Followed (db : ObjectDatabase) (reference : Text) : List Text → Text → Prop where
  | start (object : Text) : Followed db reference [] object
  | step {seen : List Text} {current target : Text} {kind : GitObjectType} :
      Followed db reference seen current → db.tagTarget reference current = .ok (target, kind) →
      Followed db reference (current :: seen) target

/-- A tag that was followed led to the next object. -/
theorem Followed.next {seen : List Text} {current : Text} (h : Followed db reference seen current)
    {tag : Text} (htag : tag ∈ seen) :
    ∃ target kind, db.tagTarget reference tag = .ok (target, kind) ∧ target ∈ current :: seen := by
  induction h with
  | start object => cases htag
  | @step seen current target kind _ htarget ih =>
    rcases List.mem_cons.mp htag with rfl | htag
    · exact ⟨target, kind, htarget, List.mem_cons_self⟩
    · obtain ⟨target', kind', htarget', hmem⟩ := ih htag
      exact ⟨target', kind', htarget', List.mem_cons_of_mem _ hmem⟩

/-- Both spellings of an id name one tag. -/
theorem tagTarget_congr {tag tag' : Text} (h : canonicalId tag = canonicalId tag') :
    db.tagTarget reference tag = db.tagTarget reference tag' := by
  rw [tagTarget, tagTarget, find, find, h]

/-- While nothing comes up again, no tag was followed under two spellings: they lead to the same
next object. -/
theorem Followed.nodup_ids {seen : List Text} {current : Text}
    (h : Followed db reference seen current) (hnodup : (current :: seen).Nodup) :
    (seen.map canonicalId).Nodup := by
  induction h with
  | start object => exact List.nodup_nil
  | @step seen tag target kind hbefore htarget ih =>
    obtain ⟨hnew, hseen⟩ := List.nodup_cons.mp hnodup
    rw [List.map_cons, List.nodup_cons]
    refine ⟨fun hmem => ?_, ih hseen⟩
    obtain ⟨tag', htag', hsame⟩ := List.mem_map.mp hmem
    obtain ⟨target', kind', htarget', hnext⟩ := hbefore.next htag'
    rw [tagTarget_congr hsame, htarget] at htarget'
    cases htarget'
    exact hnew hnext

/-- Only objects of the database are followed. -/
theorem Followed.mem_keys {seen : List Text} {current : Text}
    (h : Followed db reference seen current) : ∀ id ∈ seen.map canonicalId, id ∈ db.keys := by
  intro id hid
  obtain ⟨tag, htag, rfl⟩ := List.mem_map.mp hid
  obtain ⟨target, kind, htarget, -⟩ := h.next htag
  rw [← AList.mem_keys, ← AList.lookup_isSome]
  rw [tagTarget, find] at htarget
  cases hfind : db.lookup (canonicalId tag) with
  | none =>
    rw [hfind] at htarget
    cases htarget
  | some object => rfl

/-- A chain of tags is at most one longer than the database. -/
theorem Followed.length_le {seen : List Text} {current : Text}
    (h : Followed db reference seen current) (hnodup : seen.Nodup) :
    seen.length ≤ db.entries.length + 1 := by
  cases h with
  | start object => exact Nat.zero_le _
  | @step seen tag target kind hbefore htarget =>
    have hlength := (List.subperm_of_subset (hbefore.nodup_ids hnodup) hbefore.mem_keys).length_le
    rw [List.length_map, AList.keys, List.keys, List.length_map] at hlength
    exact Nat.succ_le_succ hlength

end ObjectDatabase

/-! ## Serving queries -/

/-- Git answers requests for full ids from the objects of the database. What it answers for its
other names is left open. -/
structure ServesObjects (git : ObjectNames) (db : ObjectDatabase) : Prop where
  absent : ∀ id, isGitId id = true → db.find id = none → git id = none
  present : ∀ id object, isGitId id = true → db.find id = some object → ∃ found,
    git id = some found ∧ found.Printable ∧ found.kind = object.kind
    ∧ ∀ content, object = .tag content → found.content = content

namespace CatFile

end CatFile

namespace Objects

variable {git : ObjectNames} {db : ObjectDatabase} {α β : Type}

/-- Nothing is left unread in either stream. -/
structure InSync (objects : Objects) : Prop where
  check : objects.check.getD (CatFile.spawn .batchCheck) = CatFile.spawn .batchCheck
  contents : objects.contents.getD (CatFile.spawn .batch) = CatFile.spawn .batch

/-- From streams in sync, the query gives this answer and leaves them in sync. -/
def Answers (x : Action Error Objects α) (answer : Result α) : Prop :=
  ∀ objects, InSync objects → ∃ objects', x objects = (answer, objects') ∧ InSync objects'

theorem Answers.lift (answer : Result α) : Answers (Action.lift answer) answer :=
  fun objects h => ⟨objects, rfl, h⟩

theorem Answers.pure (a : α) : Answers (pure a : Action Error Objects α) (.ok a) := .lift (.ok a)

theorem Answers.bind {x : Action Error Objects α} {answer : Result α}
    {f : α → Action Error Objects β} {g : α → Result β} (hx : Answers x answer)
    (hf : ∀ a, answer = .ok a → Answers (f a) (g a)) : Answers (x >>= f) (answer >>= g) := by
  intro objects h
  obtain ⟨objects₁, hrun, hsync⟩ := hx objects h
  cases answer with
  | ok a =>
    obtain ⟨objects₂, hrest, hsync'⟩ := hf a rfl objects₁ hsync
    exact ⟨objects₂, by rw [Action.bind_of_ok hrun, hrest]; rfl, hsync'⟩
  | error e => exact ⟨objects₁, Action.bind_of_error hrun, hsync⟩

theorem Answers.attempt {x : Action Error Objects α} {answer : Result α} (h : Answers x answer) :
    Answers (Action.attempt x) (.ok answer) := by
  intro objects hsync
  obtain ⟨objects', hrun, hsync'⟩ := h objects hsync
  exact ⟨objects', by rw [Action.attempt, hrun], hsync'⟩

end Objects

namespace Tagged

def blobId : Text := List.replicate 40 98

def tagId : Text := List.replicate 40 97

def tagBytes : Bytes := text "object " ++ blobId ++ text "\ntype blob\n\nfirst\n"

/-- A blob and a tag of it. -/
def objects : ObjectDatabase :=
  ((∅ : ObjectDatabase).insert blobId .blob).insert tagId (.tag tagBytes)

/-- Git takes ids in either case, and knows the tag as HEAD besides. -/
def git : ObjectNames := fun name =>
  if canonicalId name = tagId ∨ name = text "HEAD" then some ⟨tagId, .tag, tagBytes⟩
  else if canonicalId name = blobId then some ⟨blobId, .blob, []⟩ else none

theorem printable {id : Text} {kind : GitObjectType} {content : Bytes} (hid : isGitId id = true)
    (hsize : content.length < 2 ^ 64) : StoredObject.Printable ⟨id, kind, content⟩ := by
  obtain ⟨hne, hbytes⟩ := isGitId_bytes hid
  exact ⟨hne, fun b hb => (hbytes b hb).1, fun b hb => (hbytes b hb).2.1, hsize⟩

theorem head_not_id {id : Text} (h : isGitId id = true) : id ≠ text "HEAD" := by
  rintro rfl
  exact absurd h (by decide)

theorem serves : ServesObjects git objects where
  absent := by
    intro id hid h
    rw [ObjectDatabase.find] at h
    -- the sample holds a tag and the blob it points at
    have hnotTag : canonicalId id ≠ tagId := by
      intro htag
      rw [htag, objects, AList.lookup_insert] at h
      cases h
    rw [objects, AList.lookup_insert_ne hnotTag] at h
    have hnotBlob : canonicalId id ≠ blobId := by
      intro hblob
      rw [hblob, AList.lookup_insert] at h
      cases h
    rw [git, if_neg (not_or.mpr ⟨hnotTag, head_not_id hid⟩), if_neg hnotBlob]
  present := by
    intro id object hid h
    rw [ObjectDatabase.find] at h
    by_cases htag : canonicalId id = tagId
    · rw [htag, objects, AList.lookup_insert] at h
      cases h
      exact ⟨_, if_pos (.inl htag), printable (by decide) (by decide), rfl,
        fun content hcontent => by cases hcontent; rfl⟩
    · rw [objects, AList.lookup_insert_ne htag] at h
      by_cases hblob : canonicalId id = blobId
      · rw [hblob, AList.lookup_insert] at h
        cases h
        refine ⟨_, (if_neg (not_or.mpr ⟨htag, head_not_id hid⟩)).trans (if_pos hblob),
          printable (by decide) (by decide), rfl, ?_⟩
        intro content hcontent
        cases hcontent
      · rw [AList.lookup_insert_ne hblob, AList.lookup_empty] at h
        cases h

end Tagged

end GitE2EE

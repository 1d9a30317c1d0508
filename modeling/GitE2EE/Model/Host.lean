import GitE2EE.Lib.FileSystem
import GitE2EE.Lib.Thread
import GitE2EE.Model.Error

/-!
# System calls

What the directory backend asks of the operating system, one call at a time. Processes
share the file system and the advisory lock on HEAD.lock. A call may fail at any time
for reasons of its own, so every call is answered under an outcome the platform chooses:
a failed call changes nothing, except that a failed write may have written a first part.

A question whose failure the code does not ask about (`Path::exists`,
`symlink_metadata(..).is_ok()`) is answered with no when it fails.
-/

namespace GitE2EE

open Wire Effect Files

/-- A path as its components, from the root of the file system. -/
abbrev Path := List Text

/-- The system calls of `persist.rs` and of the directory backend. -/
inductive FileCall where
  /-- `Path::exists`, or `symlink_metadata(..).is_ok()`. -/
  | «exists» (path : Path)
  | isDir (path : Path)
  | createDir (parent : Path) (name : Text)
  | removeDir (parent : Path) (name : Text)
  /-- `OpenOptions::new().write(true).create_new(true)`. -/
  | createNew (parent : Path) (name : Text)
  /-- `write_all` on an open file. -/
  | writeAll (file : Nat) (data : Bytes)
  /-- `File::sync_all` on an open file. -/
  | syncAll (file : Nat)
  | rename (directory : Path) (source target : Text)
  | hardLink (directory : Path) (source : Text) (parent : Path) (name : Text)
  | removeFile (parent : Path) (name : Text)
  /-- `open_regular` and what is read from the file it opens. -/
  | readFile (path : Path)
  | syncDirectory (path : Path)
  /-- `OpenOptions::new().create(true).truncate(false)`. -/
  | openLock (root : Path) (name : Text)
  | lockExclusive
  | unlock
  /-- The lock file is closed when its handle is dropped. -/
  | closeLock

/-- What a call returns. A question cannot fail, and closing has nothing to report. -/
def FileCall.Reply : FileCall → Type
  | «exists» _ | isDir _ => Bool
  | createNew _ _ => Except Files.Fault Nat
  | readFile _ => Except Files.Fault (Option Node)
  | closeLock => Unit
  | _ => Except Files.Fault Unit

/-- What the platform decides about a call. -/
inductive Outcome where
  | succeeds
  /-- The call fails; a write has written this many bytes. -/
  | fails (fault : Files.Fault) (written : Nat)

/-- The state the processes share. -/
@[ext] structure Host (ι : Type) where
  files : FileSystem Text
  /-- Who holds the lock on HEAD.lock. -/
  lock : Option ι
  /-- Every rename that took effect, oldest first: who made it, and onto which name.
  No process reads this. -/
  renames : List (ι × Text)

namespace Host

variable {ι : Type}

/-- A call on the file system, or the failure the platform chose. -/
def onFiles {α : Type} (outcome : Outcome)
    (call : FileSystem Text → Except Files.Fault α × FileSystem Text) (m : Host ι) :
    Option (Except Files.Fault α × Host ι) :=
  match outcome with
  | .fails fault _ => some (.error fault, m)
  | .succeeds => some ((call m.files).1, { m with files := (call m.files).2 })

/-- A question, which is answered with no where it fails. -/
def ask (outcome : Outcome) (answer : Bool) (m : Host ι) : Option (Bool × Host ι) :=
  match outcome with
  | .fails _ _ => some (false, m)
  | .succeeds => some (answer, m)

/-- A question changes nothing, and a yes is the truth. -/
theorem ask_cases {outcome : Outcome} {answer reply : Bool} {m m' : Host ι}
    (h : m.ask outcome answer = some (reply, m')) : m' = m ∧ (reply = true → answer = true) := by
  cases outcome with
  | succeeds =>
    cases h
    exact ⟨rfl, id⟩
  | fails fault written =>
    cases h
    exact ⟨rfl, fun h => by cases h⟩

/-- Either the call failed and nothing changed, or the file system changed and nothing else did.
-/
theorem onFiles_cases {α : Type} {outcome : Outcome}
    {call : FileSystem Text → Except Files.Fault α × FileSystem Text} {reply : Except Files.Fault α}
    {m m' : Host ι} (h : m.onFiles outcome call = some (reply, m')) :
    ((∃ fault, reply = .error fault) ∧ m' = m)
    ∨ (call m.files = (reply, m'.files) ∧ m'.lock = m.lock ∧ m'.renames = m.renames) := by
  cases outcome with
  | succeeds =>
    cases h
    exact .inr ⟨rfl, rfl, rfl⟩
  | fails fault written =>
    cases h
    exact .inl ⟨⟨fault, rfl⟩, rfl⟩

variable [DecidableEq ι]

/-- The lock without a process: closing or losing a lock file releases only what its
process holds. -/
def release (i : ι) (m : Host ι) : Host ι :=
  if m.lock = some i then { m with lock := none } else m

/-- Opens the lock file, which stays if it is there. -/
def createLock (root : Path) (name : Text) (files : FileSystem Text) :
    Except Files.Fault Unit × FileSystem Text :=
  match files.createNew root name with
  | (.ok _, created) => (.ok (), created)
  | (.error .alreadyExists, _) =>
    -- a directory cannot be opened for writing
    if files.isDir (root ++ [name]) then (.error .other, files) else (.ok (), files)
  | (.error fault, _) => (.error fault, files)

/-- One call of process `i`. Without an answer the process waits: an exclusive lock is not
granted while anyone holds it. -/
def perform (i : ι) (outcome : Outcome) :
    (call : FileCall) → Host ι → Option (call.Reply × Host ι)
  | .exists path, m => m.ask outcome (m.files.exists path)
  | .isDir path, m => m.ask outcome (m.files.isDir path)
  | .createDir parent name, m => m.onFiles outcome (·.createDir parent name)
  | .removeDir parent name, m => m.onFiles outcome (·.removeDir parent name)
  | .createNew parent name, m => m.onFiles outcome (·.createNew parent name)
  | .writeAll file data, m =>
    match outcome with
    | .succeeds => some (.ok (), { m with files := m.files.write file data })
    | .fails fault written =>
      some (.error fault, { m with files := m.files.write file (data.take written) })
  | .syncAll file, m => m.onFiles outcome fun files => (.ok (), files.syncFile file)
  | .rename directory source target, m =>
    match outcome with
    | .fails fault _ => some (.error fault, m)
    | .succeeds =>
      match m.files.rename directory source target with
      | (.error fault, _) => some (.error fault, m)
      | (.ok (), files) => some (.ok (), ⟨files, m.lock, m.renames ++ [(i, target)]⟩)
  | .hardLink directory source parent name, m =>
    m.onFiles outcome (·.hardLink directory source parent name)
  | .removeFile parent name, m => m.onFiles outcome (·.removeFile parent name)
  | .readFile path, m => m.onFiles outcome fun files => (.ok (files.read path), files)
  | .syncDirectory path, m => m.onFiles outcome (·.syncDir path)
  | .openLock root name, m => m.onFiles outcome (createLock root name)
  | .lockExclusive, m =>
    match outcome with
    | .fails fault _ => some (.error fault, m)
    | .succeeds => if m.lock = none then some (.ok (), { m with lock := some i }) else none
  | .unlock, m =>
    match outcome with
    | .fails fault _ => some (.error fault, m)
    | .succeeds => some (.ok (), m.release i)
  | .closeLock, m => some ((), m.release i)

/-- A stopped process loses its lock and nothing else. -/
def platform : Platform ι FileCall FileCall.Reply Outcome (Host ι) where
  perform := perform
  halt := release

end Host

/-- A process of this program. -/
abbrev Process := Thread FileCall FileCall.Reply Error

/-! ## The calls as processes -/

namespace Sys

def «exists» (path : Path) : Process Bool := Thread.perform (FileCall.exists path)

def isDir (path : Path) : Process Bool := Thread.perform (FileCall.isDir path)

def createDir (parent : Path) (name : Text) : Process (Except Files.Fault Unit) :=
  Thread.perform (FileCall.createDir parent name)

def removeDir (parent : Path) (name : Text) : Process (Except Files.Fault Unit) :=
  Thread.perform (FileCall.removeDir parent name)

def createNew (parent : Path) (name : Text) : Process (Except Files.Fault Nat) :=
  Thread.perform (FileCall.createNew parent name)

def writeAll (file : Nat) (data : Bytes) : Process (Except Files.Fault Unit) :=
  Thread.perform (FileCall.writeAll file data)

def syncAll (file : Nat) : Process (Except Files.Fault Unit) :=
  Thread.perform (FileCall.syncAll file)

def rename (directory : Path) (source target : Text) : Process (Except Files.Fault Unit) :=
  Thread.perform (FileCall.rename directory source target)

def hardLink (directory : Path) (source : Text) (parent : Path) (name : Text) :
    Process (Except Files.Fault Unit) :=
  Thread.perform (FileCall.hardLink directory source parent name)

def removeFile (parent : Path) (name : Text) : Process (Except Files.Fault Unit) :=
  Thread.perform (FileCall.removeFile parent name)

def readFile (path : Path) : Process (Except Files.Fault (Option Node)) :=
  Thread.perform (FileCall.readFile path)

def syncDirectory (path : Path) : Process (Except Files.Fault Unit) :=
  Thread.perform (FileCall.syncDirectory path)

def openLock (root : Path) (name : Text) : Process (Except Files.Fault Unit) :=
  Thread.perform (FileCall.openLock root name)

def lockExclusive : Process (Except Files.Fault Unit) := Thread.perform FileCall.lockExclusive

def unlock : Process (Except Files.Fault Unit) := Thread.perform FileCall.unlock

def closeLock : Process Unit := Thread.perform FileCall.closeLock

end Sys

/-! ## Errors of calls -/

/-- `io::Error::kind`, as far as the program tells kinds apart. -/
def kindOf : Files.Fault → IoKind
  | .notFound => .notFound
  | _ => .other

def describeFault : Files.Fault → String
  | .notFound => "entity not found"
  | .alreadyExists => "entity already exists"
  | .other => "other error"

/-- `std::io::Error` on its way into `anyhow::Error`. -/
def ioError (fault : Files.Fault) : Error := .of (.io (kindOf fault) (describeFault fault))

/-- `call(..)?`. -/
def orRaise {α : Type} (reply : Except Files.Fault α) : Process α :=
  Thread.lift (reply.mapError ioError)

/-- `call(..).context(text)?`. -/
def orRaiseWith {α : Type} (text : String) (reply : Except Files.Fault α) : Process α :=
  Thread.lift (reply.mapError fun fault => (ioError fault).context text)

end GitE2EE

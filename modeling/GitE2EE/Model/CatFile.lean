import GitE2EE.Lib.Split
import GitE2EE.Model.Objects

/-!
# A `git cat-file` process

One process answers many queries, over a pair of pipes. The answers come one after the
other in a single stream: a header line, and in `--batch` mode the body behind it and a
line feed. Nothing in the stream says where an answer starts, so the caller has to take
each one off completely before it asks for the next.

Git answers as it should; it may run ahead of its reader, but not of its requests.
-/

namespace GitE2EE

open Wire Effect

/-- An object as `cat-file` sees it. -/
structure StoredObject where
  id : Text
  kind : GitObjectType
  content : Bytes

/-- What a repository has under a name. -/
abbrev ObjectNames := Text → Option StoredObject

/-- Whether Git answers with contents or with kinds only. -/
inductive BatchMode where
  /-- `--batch` -/
  | batch
  /-- `--batch-check` -/
  | batchCheck
deriving DecidableEq

def GitObjectType.name : GitObjectType → Text
  | .commit => text "commit"
  | .tree => text "tree"
  | .blob => text "blob"
  | .tag => text "tag"

/-- `u8::is_ascii_whitespace`. -/
def isAsciiWhitespace (b : UInt8) : Bool := b == 32 || b == 9 || b == 10 || b == 12 || b == 13

/-- `split_ascii_whitespace`. -/
def asciiFields (line : Text) : List Text := Split.words isAsciiWhitespace line

/-- `str::parse::<u64>`. -/
def parseU64 (digits : Text) : Option Nat :=
  let digits := if digits.head? = some 43 then digits.tail else digits
  let (n, rest) := Json.parseDigits 0 digits
  if digits ≠ [] ∧ rest = [] ∧ n < 2 ^ 64 then some n else none

/-- The first line of an answer. -/
inductive BatchHeader where
  | missing
  | object (id : Text) (kind : GitObjectType) (size : Nat)

/-- A running `git cat-file`, from the side of its pipes. -/
structure CatFile where
  mode : BatchMode
  /-- What Git has written and nobody has read. -/
  output : Bytes
  /-- The pipe to Git is open. -/
  input : Bool
  finished : Bool

namespace CatFile

def spawn (mode : BatchMode) : CatFile := ⟨mode, [], true, false⟩

/-- What Git writes behind the header of an object. -/
def body (mode : BatchMode) (found : StoredObject) : Bytes :=
  match mode with
  | .batch => found.content ++ [10]
  | .batchCheck => []

/-- What Git writes for a request. -/
def answer (git : ObjectNames) (mode : BatchMode) (object : Text) : Bytes :=
  match git object with
  | none => object ++ text " missing\n"
  | some found =>
    found.id ++ [32] ++ found.kind.name ++ [32] ++ Json.decimal found.content.length ++ [10]
      ++ body mode found

def ioFail {α : Type} (kind : IoKind) (message : String) : Action Error CatFile α :=
  Action.fail (.of (.io kind message))

/-- `read_line`: up to a line feed, which is taken along, or up to the end. -/
def takeLine : Bytes → Bytes × Bytes
  | [] => ([], [])
  | b :: rest => if b = 10 then ([b], rest) else (b :: (takeLine rest).1, (takeLine rest).2)

/-- One line of output, which has to be UTF-8. -/
def readLine : Action Error CatFile Text := do
  let cat ← Action.get
  let (line, rest) := takeLine cat.output
  Action.modify ({ · with output := rest })
  if isUtf8 line then pure line else ioFail .invalidData "stream did not contain valid UTF-8"

/-- An answer has two fields where the object is missing and three where it is not. -/
def parseHeader (header : Text) : Result BatchHeader :=
  let invalid := Error.of (.io .invalidData "git cat-file returned an invalid header")
  match asciiFields header with
  | [_, second] => if second = text "missing" then .ok .missing else .error invalid
  | [id, kind, size] =>
    match GitObjectType.parse kind, parseU64 size with
    | some kind, some size => .ok (.object id kind size)
    | _, _ => .error invalid
  | _ => .error invalid

/-- Asks for one object. A name with a control character could be read as two requests, and is
refused. -/
def request (git : ObjectNames) (object : Text) : Action Error CatFile BatchHeader := do
  if object = [] ∨ object.any isAsciiControl = true then
    ioFail .other "invalid Git object name for git cat-file"
  else do
    let cat ← Action.get
    if cat.input = false then ioFail .other "git cat-file already finished"
    else do
      Action.modify fun cat => { cat with output := cat.output ++ answer git cat.mode object }
      let header ← readLine
      if header = [] then ioFail .unexpectedEof "git cat-file ended before answering"
      else Action.lift (parseHeader header)

/-- One `read` from `body()` into a buffer of `want` bytes, of which the pipe has `ready + 1`
at hand. -/
def readBody (want ready : Nat) : Action Error CatFile Bytes := do
  let cat ← Action.get
  let count := min want (ready + 1)
  Action.modify ({ · with output := cat.output.drop count })
  pure (cat.output.take count)

/-- Takes off the line feed behind a body. -/
def endBody : Action Error CatFile Unit := do
  let cat ← Action.get
  match cat.output with
  | [] => ioFail .unexpectedEof "failed to fill whole buffer"
  | trailer :: rest => do
    Action.modify ({ · with output := rest })
    if trailer = 10 then pure ()
    else ioFail .invalidData "git cat-file returned a malformed object trailer"

/-- Closes the pipe and waits for Git. -/
def finish : Action Error CatFile Unit :=
  Action.modify ({ · with input := false, finished := true })

end CatFile

end GitE2EE

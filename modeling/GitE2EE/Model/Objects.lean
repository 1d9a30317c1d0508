import GitE2EE.Model.Git
import Mathlib.Data.List.AList

/-!
# Git objects

The objects of an inner repository, as far as the program looks at them, and what it
reads from annotated tags itself. Everything else about a tag is Git's: which object it
leads to is on its first line, while the program looks for that line anywhere in a header
of bounded size.

An object database is finite and does not change during a query, so `git cat-file`
answers every request from the same objects. It has them by their ids in lower case, and
finds an object by its id in either case; other names that Git has for objects (branches,
abbreviations) are not in it.
-/

namespace GitE2EE

open Wire Effect

inductive GitObjectType where
  | commit
  | tree
  | blob
  | tag
deriving DecidableEq

def GitObjectType.parse (name : Bytes) : Option GitObjectType :=
  if name = text "commit" then some .commit
  else if name = text "tree" then some .tree
  else if name = text "blob" then some .blob
  else if name = text "tag" then some .tag
  else none

inductive EntryMode where
  | tree
  | blob
  /-- `160000`: a commit of another repository. -/
  | gitlink
deriving DecidableEq

structure TreeEntry where
  mode : EntryMode
  object : Text
deriving DecidableEq

inductive GitObject where
  | commit (tree : Text) (parents : List Text)
  | tree (entries : List TreeEntry)
  | blob
  /-- The bytes of an annotated tag. -/
  | tag (content : Bytes)
deriving DecidableEq

def GitObject.kind : GitObject → GitObjectType
  | .commit _ _ => .commit
  | .tree _ => .tree
  | .blob => .blob
  | .tag _ => .tag

/-- The objects by their ids. -/
abbrev ObjectDatabase := AList (fun _ : Text => GitObject)

def asciiLower (b : UInt8) : UInt8 := if 65 ≤ b ∧ b ≤ 90 then b + 32 else b

/-- The id as Git writes it. -/
def canonicalId (id : Text) : Text := id.map asciiLower

/-! ## Annotated tags -/

def MAX_TAG_HEADER_BYTES : Nat := 64 * 1024

/-- Where the first two newlines in a row are. -/
def headerEnd : Bytes → Option Nat
  | a :: b :: rest =>
    if a = 10 ∧ b = 10 then some 0 else (headerEnd (b :: rest)).map (· + 1)
  | _ => none

/-- `strip_prefix`. -/
def stripStart (start line : Bytes) : Option Bytes :=
  if start.isPrefixOf line then some (line.drop start.length) else none

/-- `Objects::tag_header`: the header block, if it is within the bound. -/
def tagHeader (reference : Text) (content : Bytes) : Result Bytes :=
  let start := content.take MAX_TAG_HEADER_BYTES
  match headerEnd start with
  | some position => pure (start.take position)
  | none =>
    if content.length - start.length = 0 then pure start
    else bail (s!"annotated tag of {render reference} has a header larger than "
      ++ s!"{MAX_TAG_HEADER_BYTES} bytes")

/-- The values of the `object` and `type` lines. -/
def tagFields (reference : Text) :
    Option Bytes → Option Bytes → List Bytes → Result (Option Bytes × Option Bytes)
  | target, kind, [] => pure (target, kind)
  | target, kind, line :: rest =>
    match stripStart (text "object ") line with
    | some value => do
      bailIf (target.isSome)
        s!"annotated tag {render reference} has duplicate target objects"
      tagFields reference (some value) kind rest
    | none =>
      match stripStart (text "type ") line with
      | some value => do
        bailIf (kind.isSome) s!"annotated tag {render reference} has duplicate target types"
        tagFields reference target (some value) rest
      | none => tagFields reference target kind rest

/-- `u8::is_ascii_hexdigit`. -/
def isAsciiHexDigit (b : UInt8) : Bool :=
  (48 ≤ b && b ≤ 57) || (97 ≤ b && b ≤ 102) || (65 ≤ b && b ≤ 70)

/-- An object id of Git, in hex. -/
def isGitId (id : Bytes) : Bool :=
  (id.length == 40 || id.length == 64) && id.all isAsciiHexDigit

/-- What the header of an annotated tag points at. -/
def readTagHeader (reference : Text) (header : Bytes) : Result (Text × GitObjectType) := do
  let (target, kind) ← tagFields reference none none (header.splitOn 10)
  let target ← orBail target "annotated tag is missing its target object"
  bailIf (isGitId target = false)
    s!"annotated tag {render reference} has a malformed target object"
  let kind ← orBail kind "annotated tag is missing its target type"
  let kind ← orBail (GitObjectType.parse kind)
    s!"annotated tag {render reference} has an unknown target type"
  pure (target, kind)

namespace ObjectDatabase

variable (db : ObjectDatabase)

/-- The object with an id, in whatever case it is written. -/
def find (id : Text) : Option GitObject := db.lookup (canonicalId id)

/-- `Objects::kind`. -/
def kind (object : Text) : Option GitObjectType := (db.find object).map GitObject.kind

def «exists» (object : Text) : Bool := (db.find object).isSome

/-- `Objects::tag_target`. -/
def tagTarget (reference tag : Text) : Result (Text × GitObjectType) :=
  match db.find tag with
  | some (.tag content) => do
    let header ← tagHeader reference content
    readTagHeader reference header
  | some _ => bail s!"annotated tag of {render reference} changed type while reading"
  | none => bail s!"annotated tag of {render reference} disappeared while reading"

def missingError (label : String) (reference : Text) : Error :=
  if label = "verified" then .msg s!"verified ref {render reference} is missing locally"
  else .msg s!"fetched ref {render reference} does not resolve to a complete Git object graph"

/-- `objects.kind(..)?.ok_or_else(missing)?`. -/
def requireKind (label : String) (reference object : Text) : Result GitObjectType :=
  match db.kind object with
  | some kind => .ok kind
  | none => .error (missingError label reference)

/-- The loop of `resolve_tag_chain`. The fuel is for Lean: it never runs out where it exceeds the
number of objects by two. -/
def tagChainLoop (label : String) (reference : Text) :
    Nat → List Text → Text → Result (Text × GitObjectType)
  | 0, _, _ => bail "tag chain bound exceeded"
  | fuel + 1, seen, current =>
    if current ∈ seen then bail s!"{label} ref {render reference} contains a cyclic tag chain"
    else do
      let kind ← db.requireKind label reference current
      if kind ≠ .tag then pure (current, kind)
      else do
        let (target, expected) ← db.tagTarget reference current
        let found ← db.requireKind label reference target
        if found ≠ expected then
          bail s!"annotated tag {render reference} has a mismatched target type"
        else tagChainLoop label reference fuel (current :: seen) target

def resolveTagChain (label : String) (reference object : Text) : Result (Text × GitObjectType) :=
  db.tagChainLoop label reference (db.entries.length + 2) [] object

def ensureBranchTarget (reference object : Text) : Result Unit := do
  let target ← db.resolveTagChain "pushed" reference object
  bailIf (target.2 ≠ .commit) s!"branch ref {render reference} must resolve to a commit"

end ObjectDatabase

end GitE2EE

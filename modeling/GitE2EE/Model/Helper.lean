import GitE2EE.Lib.Split
import GitE2EE.Model.Repository

/-!
# The remote helper

`git-remote-e2ee` is started by Git and talks to it in lines: Git asks for the helper's
capabilities, for a list of refs, sets options, and sends batches of `fetch` and `push`
commands, each ended by an empty line or by the end of the input. The loop over the input
and the loops over a batch read from one iterator, so a state of the loop is where in them
the helper is.

An answer is a list of lines. What goes to standard error besides, and a pipe that Git has
closed, are left out. A text is written as characters of the same code.
-/

namespace GitE2EE

open Wire Effect

/-! ## Errors in words -/

def IoKind.display : IoKind → String
  | .notFound => "entity not found"
  | .invalidData => "invalid data"
  | .unexpectedEof => "unexpected end of file"
  | .interrupted => "operation interrupted"
  | .other => "other error"

/-- `{:?}` of an `Option<String>`. -/
def debugOption : Option Text → String
  | none => "None"
  | some value => s!"Some({quoted value})"

def PushRejection.display : PushRejection → String
  | .nonFastForward reference => s!"non-fast-forward update rejected for {render reference}"
  | .fetchFirst reference => s!"remote tip for {render reference} is missing locally; fetch first"
  | .alreadyExists reference => s!"tag {render reference} already exists; use --force to move it"

/-- `PushRejection::git_status`: the texts that Git's transport layer recognizes. -/
def PushRejection.gitStatus : PushRejection → String
  | .nonFastForward _ => "non-fast forward"
  | .fetchFirst _ => "fetch first"
  | .alreadyExists _ => "already exists"

/-- A failure and what it was caused by. -/
def Cause.chain : Cause → List String
  | .message words | .unsupported words | .budgetExhausted words | .io _ words
  | .storageOccupied words => [words]
  | .notActiveReader => ["device is not an active reader of the current generation (revoked, "
      ++ "never added, or envelope malformed)"]
  | .foreignRepository => ["key file belongs to a different repository"]
  | .objectUnavailable storage id source =>
    s!"{storage} object {render id} is unavailable" :: source.toList.map IoKind.display
  | .missingStorageHead => ["encrypted repository has no storage HEAD"]
  | .casConflict expected actual => [s!"head changed concurrently (expected "
      ++ s!"{debugOption expected}, actual {debugOption actual})"]
  | .readOnlyDevice => ["this device is read-only; ask an administrator for the write role"]
  | .pushRejection rejection => [rejection.display]

def Note.display : Note → String
  | .message words => words
  | .invalidState => "authenticated repository state is invalid"

/-- `format!("{error:#}")`. -/
def Error.display (e : Error) : String :=
  ": ".intercalate (e.notes.map Note.display ++ e.cause.chain)

/-- `split_whitespace`. -/
def splitWhitespace (words : List Char) : List (List Char) :=
  (words.splitOnP fun c => isWhitespace c.toNat).filter (· ≠ [])

/-- `single_line`. -/
def singleLine (e : Error) : String :=
  String.ofList ([' '].intercalate (splitWhitespace e.display.toList))

/-- `push_status`. -/
def pushStatus (e : Error) : String :=
  match e.cause with
  | .pushRejection rejection => rejection.gitStatus
  | .casConflict _ _ => "fetch first"
  | _ => singleLine e

def readOnlyMessage (remote : Text) : String :=
  s!"this device is read-only for {render remote}; ask an administrator for the write role"

/-- The line of `report_push_error`. -/
def reportPushError (remote destination : Text) (e : Error) : String :=
  match e.cause with
  | .readOnlyDevice => s!"error {render destination} {readOnlyMessage remote}"
  | _ => s!"error {render destination} {pushStatus e}"

/-- The line for one change of a batch. -/
def PushReport.line (remote : Text) : PushReport → String
  | .ok destination => s!"ok {render destination}"
  | .error destination e => reportPushError remote destination e

/-! ## Push commands -/

/-- `parse_push` on a line that starts with `push `. -/
def parsePush (command : Text) : Result RefPush := do
  let spec := command.drop (text "push ").length
  let force := spec.head? = some 43
  let (source, destination) ← orBail (Split.splitOnce 58 (if force then spec.tail else spec))
    "push refspec must contain ':'"
  pure ⟨destination, if source = [] then .delete else .update source force⟩

/-! ## The loop -/

/-- Where the helper is in its loops. -/
inductive HelperMode where
  | commands
  /-- In `consume_batch`. -/
  | fetching
  /-- In the loop of `process_push_batch`, with the commands of the batch so far. -/
  | pushing (commands : List Text)

structure Session (S G : Type) where
  machine : Machine S G
  /-- The lines written. -/
  output : List String
  dryRun : Bool

section

variable {S G : Type} (P : Primitives) (storage : Storage S) (repo : GitRepository G)
    (key : KeyFile)
  (remote : Text) (draws : Session S G → Draws)

/-- `writeln!(output, ..)`. -/
def say (lines : List String) : Action Error (Session S G) Unit :=
  Action.modify fun session => { session with output := session.output ++ lines }

def onRepository {α : Type} (x : Action Error (Machine S G) α) : Action Error (Session S G) α :=
  Action.zoom Session.machine (fun machine session => { session with machine }) x

def capabilities : List String :=
  ["fetch", "push", "option", s!"refspec refs/heads/*:refs/remotes/{render remote}/*",
    "refspec refs/tags/*:refs/tags/*", ""]

/-- The answer to `list`. -/
def listing (refs : RefMap) : List String :=
  (if (refs.get? (text "refs/heads/main")).isSome then ["@refs/heads/main HEAD"] else [])
    ++ refs.entries.map (fun e => s!"{render e.2} {render e.1}") ++ [""]

def setOption (option : Text) : Action Error (Session S G) Unit :=
  if option = text "dry-run true" then do
    Action.modify ({ · with dryRun := true })
    say ["ok"]
  else if option = text "dry-run false" then do
    Action.modify ({ · with dryRun := false })
    say ["ok"]
  else if (text "verbosity ").isPrefixOf option || (text "progress ").isPrefixOf option then
    say ["ok"]
  else say ["unsupported"]

/-- A command that is one line. -/
def answer (command : Text) : Action Error (Session S G) Unit := do
  if command = text "capabilities" then say (capabilities remote)
  else if command = text "list" ∨ command = text "list for-push" then do
    let accepted ← onRepository (observeManifest P storage repo key)
    say (listing accepted.value.refs)
  else if (text "option ").isPrefixOf command then
    setOption (command.drop (text "option ").length)
  else Action.fail (.msg s!"unsupported remote-helper command: {render command}")

/-- The end of a `fetch` batch. -/
def finishFetch : Action Error (Session S G) Unit := do
  let _ ← onRepository (importPacks P storage repo key)
  say [""]

/-- The end of a `push` batch. -/
def finishPush (commands : List Text) : Action Error (Session S G) Unit := do
  let pushes ← Action.lift (commands.mapM parsePush)
  let session ← Action.get
  let mode := if session.dryRun then PushMode.dryRun else .publish
  let outcome ← Action.attempt
    (onRepository (push P storage repo key pushes mode (draws session)))
  say ((reportPush pushes (outcome.map Accepted.value)).map (PushReport.line remote) ++ [""])

/-- `run_protocol`, from a state of its loops. -/
def runProtocol : HelperMode → List (Result Text) → Action Error (Session S G) Unit
  | .commands, [] => pure ()
  | .fetching, [] => finishFetch P storage repo key
  | .pushing commands, [] => finishPush P storage repo key remote draws commands
  | _, .error e :: _ => Action.fail e
  | .commands, .ok line :: rest => do
    if line = [] then runProtocol .commands rest
    else if (text "fetch ").isPrefixOf line then runProtocol .fetching rest
    else if (text "push ").isPrefixOf line then runProtocol (.pushing [line]) rest
    else do
      answer P storage repo key remote line
      runProtocol .commands rest
  | .fetching, .ok line :: rest => do
    if line = [] then do
      finishFetch P storage repo key
      runProtocol .commands rest
    else if (text "fetch ").isPrefixOf line then runProtocol .fetching rest
    else Action.fail (.msg s!"unexpected command in batch: {render line}")
  | .pushing commands, .ok line :: rest => do
    if line = [] then do
      finishPush P storage repo key remote draws commands
      runProtocol .commands rest
    else if (text "push ").isPrefixOf line then runProtocol (.pushing (commands ++ [line])) rest
    else Action.fail (.msg s!"unexpected command in push batch: {render line}")

end

end GitE2EE

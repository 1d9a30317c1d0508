import GitE2EE.Lib.Split
import GitE2EE.Model.Helper
import GitE2EE.Proof.RefNames
import GitE2EE.Proof.Stocked

/-!
# The helper keeps in step with Git

The input of the helper is a sequence of requests, and its output the sequence of their
answers: each answer has the shape its request calls for, so Git always knows which line
belongs to what. A push batch is answered by one status for each of its commands, in their
order, and an empty line.

What is written as a line has to be one. Error texts are put on one line before they are
written, and ref names are checked. The values of refs are not: a manifest whose ref value has
a line break in it is listed with that break, and this is the only way to more lines.
-/

namespace GitE2EE

open Wire Effect

/-! ## Requests -/

/-- What Git asks of the helper: a command of its own, or a batch. -/
inductive Request where
  | command (line : Text)
  | fetch
  | push (commands : List Text)
deriving DecidableEq

/-- The requests that the input completes, up to a line that does not belong there. -/
def requests : HelperMode → List (Result Text) → List Request
  | .commands, [] => []
  | .fetching, [] => [.fetch]
  | .pushing commands, [] => [.push commands]
  | _, .error _ :: _ => []
  | .commands, .ok line :: rest =>
    if line = [] then requests .commands rest
    else if (text "fetch ").isPrefixOf line then requests .fetching rest
    else if (text "push ").isPrefixOf line then requests (.pushing [line]) rest
    else .command line :: requests .commands rest
  | .fetching, .ok line :: rest =>
    if line = [] then .fetch :: requests .commands rest
    else if (text "fetch ").isPrefixOf line then requests .fetching rest
    else []
  | .pushing commands, .ok line :: rest =>
    if line = [] then .push commands :: requests .commands rest
    else if (text "push ").isPrefixOf line then requests (.pushing (commands ++ [line])) rest
    else []

/-- How the input ends: where it should, or at a line that does not belong there. -/
def ending : HelperMode → List (Result Text) → Result Unit
  | _, [] => .ok ()
  | _, .error e :: _ => .error e
  | .commands, .ok line :: rest =>
    if line = [] then ending .commands rest
    else if (text "fetch ").isPrefixOf line then ending .fetching rest
    else if (text "push ").isPrefixOf line then ending (.pushing [line]) rest
    else ending .commands rest
  | .fetching, .ok line :: rest =>
    if line = [] then ending .commands rest
    else if (text "fetch ").isPrefixOf line then ending .fetching rest
    else .error (.msg s!"unexpected command in batch: {render line}")
  | .pushing commands, .ok line :: rest =>
    if line = [] then ending .commands rest
    else if (text "push ").isPrefixOf line then ending (.pushing (commands ++ [line])) rest
    else .error (.msg s!"unexpected command in push batch: {render line}")

section

variable {S G : Type} (P : Primitives) (storage : Storage S) (repo : GitRepository G)
    (key : KeyFile)
  (remote : Text) (draws : Session S G → Draws)

/-- What the helper does for one request. -/
def serve : Request → Action Error (Session S G) Unit
  | .command line => answer P storage repo key remote line
  | .fetch => finishFetch P storage repo key
  | .push commands => finishPush P storage repo key remote draws commands

/-- The requests one after the other, until one fails. -/
def serveAll : List Request → Action Error (Session S G) Unit
  | [] => pure ()
  | request :: rest => do
    serve P storage repo key remote draws request
    serveAll rest

/-- The loops of the helper come to this: it serves the requests of its input, and then the
input has ended. -/
theorem runProtocol_eq (mode : HelperMode) (input : List (Result Text)) :
    runProtocol P storage repo key remote draws mode input
      = serveAll P storage repo key remote draws (requests mode input) >>= fun _ =>
          Action.lift (ending mode input) := by
  -- along the input; every line belongs to the loop the helper is in
  induction input generalizing mode with
  | nil => cases mode <;> simp [runProtocol, requests, ending, serveAll, serve, Action.lift_ok]
  | cons line rest ih =>
    cases line with
    | error e => cases mode <;> rfl
    | ok line =>
      cases mode with
      | commands =>
        rw [runProtocol, requests, ending]
        split
        · exact ih .commands
        split
        · exact ih .fetching
        split
        · exact ih (.pushing [line])
        · rw [serveAll, bind_assoc, ih .commands]
          rfl
      | fetching =>
        rw [runProtocol, requests, ending]
        split
        · rw [serveAll, bind_assoc, ih .commands]
          rfl
        split
        · exact ih .fetching
        · rfl
      | pushing commands =>
        rw [runProtocol, requests, ending]
        split
        · rw [serveAll, bind_assoc, ih .commands]
          rfl
        split
        · exact ih (.pushing (commands ++ [line]))
        · rfl

end

/-! ## Answers -/

/-- A line of its own: nothing in it ends it. -/
def OneLine (line : String) : Prop := '\n' ∉ line.toList

instance instDecidableOneLine (line : String) : Decidable (OneLine line) :=
  inferInstanceAs (Decidable ('\n' ∉ line.toList))

/-- The status of one push. -/
inductive StatusOf (remote : Text) (push : RefPush) : String → Prop where
  | ok : StatusOf remote push s!"ok {render push.destination}"
  | error {reason : String} : OneLine reason →
      StatusOf remote push s!"error {render push.destination} {reason}"
  | readOnly : StatusOf remote push s!"error {render push.destination} {readOnlyMessage remote}"

/-- The lines that answer a request. -/
inductive AnswerTo (remote : Text) : Request → List String → Prop where
  | capabilities : AnswerTo remote (.command (text "capabilities")) (capabilities remote)
  | listing {line : Text} {refs : RefMap} : line = text "list" ∨ line = text "list for-push" →
      validateInnerRefs refs = .ok () → AnswerTo remote (.command line) (listing refs)
  | option {line : Text} {reply : String} : (text "option ").isPrefixOf line = true →
      reply = "ok" ∨ reply = "unsupported" → AnswerTo remote (.command line) [reply]
  | fetch : AnswerTo remote .fetch [""]
  | push {commands : List Text} {pushes : List RefPush} {statuses : List String} :
      commands.mapM parsePush = .ok pushes → List.Forall₂ (StatusOf remote) pushes statuses →
      AnswerTo remote (.push commands) (statuses ++ [""])

/-! ### Lines -/

/-- A text without a line break. -/
def Unbroken (t : Text) : Prop := 10 ∉ t

instance instDecidableUnbroken (t : Text) : Decidable (Unbroken t) :=
  inferInstanceAs (Decidable (10 ∉ t))

theorem oneLine_append {a b : String} (ha : OneLine a) (hb : OneLine b) : OneLine (a ++ b) := by
  rw [OneLine, String.toList_append, List.mem_append, not_or]
  exact ⟨ha, hb⟩

/-- A text without a line break is rendered without one. -/
theorem oneLine_render {t : Text} (h : Unbroken t) : OneLine (render t) := by
  rw [OneLine, render, String.toList_ofList, List.mem_map]
  rintro ⟨b, hb, hchar⟩
  have hvalid : b.toNat.isValidChar := .inl (Nat.lt_trans b.toNat_lt (by decide))
  -- a byte is rendered as the character of its value
  have hcode := congrArg Char.toNat hchar
  rw [Char.ofNat, dif_pos hvalid] at hcode
  obtain rfl : b = 10 := UInt8.toNat_inj.mp hcode
  exact h hb

/-- The name of a ref has no line break, since it has no control character. -/
theorem unbroken_of_valid {name : Text} {kind : InnerRefKind}
    (h : validateInnerRef name = .ok kind) : Unbroken name := by
  obtain ⟨kind', -, h⟩ := except_bind_eq_ok.mp h
  obtain ⟨⟨⟩, hvalid, -⟩ := except_bind_eq_ok.mp h
  rw [bailIf_eq_ok, Bool.not_eq_false] at hvalid
  intro hbreak
  have hplain : Plain 10 := ((isValidRefName_iff name).mp hvalid).2.2.2.2.1 10 hbreak
  exact absurd hplain.1 (by decide)

/-- Listed refs are one line each, if their values are. -/
theorem oneLine_listing {refs : RefMap} (hvalid : validateInnerRefs refs = .ok ())
    (hvalues : ∀ e ∈ refs.entries, Unbroken e.2) : ∀ line ∈ listing refs, OneLine line := by
  intro line hline
  rw [listing, List.mem_append, List.mem_append] at hline
  rcases hline with (hhead | hentry) | hend
  · split at hhead
    · rw [List.mem_singleton.mp hhead]
      decide
    · cases hhead
  · obtain ⟨e, he, rfl⟩ := List.mem_map.mp hentry
    have hchecked := forM_eq_ok.mp hvalid e he
    obtain ⟨kind, hkind, -⟩ := except_bind_eq_ok.mp hchecked
    have hspace : OneLine " " := by decide
    exact oneLine_append (oneLine_append (oneLine_render (hvalues e he)) hspace)
      (oneLine_render (unbroken_of_valid hkind))
  · rw [List.mem_singleton.mp hend]
    decide

/-- A status is one line. -/
theorem oneLine_status {remote : Text} {push : RefPush} {line : String} (hremote : Unbroken remote)
    (hdestination : Unbroken push.destination) (h : StatusOf remote push line) : OneLine line := by
  have hok : OneLine "ok " := by decide
  have herror : OneLine "error " := by decide
  have hspace : OneLine " " := by decide
  have hname := oneLine_render hdestination
  cases h with
  | ok => exact oneLine_append hok hname
  | error hreason =>
    exact oneLine_append (oneLine_append (oneLine_append herror hname) hspace) hreason
  | readOnly =>
    refine oneLine_append (oneLine_append (oneLine_append herror hname) hspace) ?_
    exact oneLine_append (oneLine_append (by decide) (oneLine_render hremote)) (by decide)

/-- So is each capability. -/
theorem oneLine_capabilities {remote : Text} (hremote : Unbroken remote) :
    ∀ line ∈ capabilities remote, OneLine line := by
  have hrefspec : OneLine s!"refspec refs/heads/*:refs/remotes/{render remote}/*" :=
    oneLine_append (oneLine_append (by decide) (oneLine_render hremote)) (by decide)
  simp only [capabilities, List.forall_mem_cons, List.not_mem_nil, false_implies, implies_true,
    and_true, hrefspec, true_and]
  decide

/-- A destination stands in its command. -/
theorem mem_of_parsePush {command : Text} {push : RefPush} (h : parsePush command = .ok push)
    {b : UInt8} (hb : b ∈ push.destination) : b ∈ command := by
  obtain ⟨⟨source, destination⟩, hsplit, hpush⟩ := except_bind_eq_ok.mp h
  cases hpush
  have hspec := Split.eq_of_splitOnce (orBail_eq_ok.mp hsplit)
  have hmem : b ∈ source ++ 58 :: destination :=
    List.mem_append_right _ (List.mem_cons_of_mem _ hb)
  rw [← hspec] at hmem
  split at hmem
  · exact List.mem_of_mem_drop (List.mem_of_mem_tail hmem)
  · exact List.mem_of_mem_drop hmem

/-- The lines of the input that a request was made of. -/
def Request.lines : Request → List Text
  | .command line => [line]
  | .fetch => []
  | .push commands => commands

/-- An answer that lists a ref whose value has a line break. -/
def ListsBreak (answer : List String) : Prop :=
  ∃ refs name value, answer = listing refs ∧ (name, value) ∈ refs.entries ∧ ¬ Unbroken value

/-- **What is written for a line is one**, unless it is the value of a ref that is not. -/
theorem AnswerTo.oneLine {remote : Text} {request : Request} {answer : List String}
    (h : AnswerTo remote request answer) (hremote : Unbroken remote)
    (hlines : ∀ line ∈ request.lines, Unbroken line) :
    (∀ line ∈ answer, OneLine line) ∨ ListsBreak answer := by
  cases h with
  | capabilities => exact .inl (oneLine_capabilities hremote)
  | @listing line refs _ hvalid =>
    by_cases hvalues : ∀ e ∈ refs.entries, Unbroken e.2
    · exact .inl (oneLine_listing hvalid hvalues)
    · push Not at hvalues
      obtain ⟨⟨name, value⟩, hentry, hbreak⟩ := hvalues
      exact .inr ⟨refs, name, value, rfl, hentry, hbreak⟩
  | option _ hreply =>
    refine .inl fun line hline => ?_
    rw [List.mem_singleton.mp hline]
    rcases hreply with rfl | rfl <;> decide
  | fetch =>
    refine .inl fun line hline => ?_
    rw [List.mem_singleton.mp hline]
    decide
  | @push commands pushes statuses hparse hstatuses =>
    refine .inl fun line hline => ?_
    rcases List.mem_append.mp hline with hstatus | hend
    · obtain ⟨push, hpush, hstatus⟩ := forall₂_exists_left hstatuses hstatus
      obtain ⟨command, hcommand, hparsed⟩ := forall₂_exists_left (mapM_eq_ok.mp hparse) hpush
      exact oneLine_status hremote
        (fun hbreak => hlines command hcommand (mem_of_parsePush hparsed hbreak)) hstatus
    · rw [List.mem_singleton.mp hend]
      decide

/-- The lines of a batch that the helper is in the middle of. -/
def HelperMode.pending : HelperMode → List Text
  | .pushing lines => lines
  | .commands | .fetching => []

/-- Requests are made of the lines of the input. -/
theorem requests_lines (mode : HelperMode) (input : List (Result Text)) :
    ∀ request ∈ requests mode input, ∀ line ∈ request.lines,
      line ∈ mode.pending ∨ .ok line ∈ input := by
  induction input generalizing mode with
  | nil =>
    cases mode with
    | commands => simp [requests]
    | fetching => simp [requests, Request.lines]
    | pushing commands => simp [requests, Request.lines, HelperMode.pending]
  | cons first rest ih =>
    cases first with
    | error e => cases mode <;> simp [requests]
    | ok first =>
      -- what is asked behind this line is made of the lines behind it
      have hrest : ∀ {request line}, request ∈ requests .commands rest → line ∈ request.lines →
          line ∈ mode.pending ∨ .ok line ∈ Except.ok first :: rest := fun hrequest hline =>
        .inr (List.mem_cons_of_mem _ (((ih .commands) _ hrequest _ hline).resolve_left
          List.not_mem_nil))
      intro request hrequest line hline
      cases mode with
      | commands =>
        rw [requests] at hrequest
        split at hrequest
        · exact hrest hrequest hline
        split at hrequest
        · exact .inr (List.mem_cons_of_mem _ ((ih .fetching _ hrequest _ hline).resolve_left
            List.not_mem_nil))
        split at hrequest
        · rcases ih _ _ hrequest _ hline with hfirst | hlater
          · rw [List.mem_singleton.mp hfirst]
            exact .inr List.mem_cons_self
          · exact .inr (List.mem_cons_of_mem _ hlater)
        · rcases List.mem_cons.mp hrequest with rfl | hlater
          · rw [List.mem_singleton.mp hline]
            exact .inr List.mem_cons_self
          · exact hrest hlater hline
      | fetching =>
        rw [requests] at hrequest
        split at hrequest
        · rcases List.mem_cons.mp hrequest with rfl | hlater
          · cases hline
          · exact hrest hlater hline
        split at hrequest
        · exact .inr (List.mem_cons_of_mem _ ((ih .fetching _ hrequest _ hline).resolve_left
            List.not_mem_nil))
        · cases hrequest
      | pushing commands =>
        rw [requests] at hrequest
        split at hrequest
        · rcases List.mem_cons.mp hrequest with rfl | hlater
          · exact .inl hline
          · exact hrest hlater hline
        split at hrequest
        · rcases ih _ _ hrequest _ hline with hbatch | hlater
          · rcases List.mem_append.mp hbatch with hold | hnew
            · exact .inl hold
            · rw [List.mem_singleton.mp hnew]
              exact .inr List.mem_cons_self
          · exact .inr (List.mem_cons_of_mem _ hlater)
        · cases hrequest

/-! ### Statuses -/

/-- An error text is put on one line word by word. -/
theorem oneLine_singleLine (e : Error) : OneLine (singleLine e) := by
  rw [OneLine, singleLine, String.toList_ofList]
  intro h
  rcases Split.mem_of_mem_intercalate h with h | ⟨word, hword, h⟩
  · exact absurd (List.mem_singleton.mp h) (by decide)
  · exact absurd (Split.not_of_mem_splitOnP (List.mem_filter.mp hword).1 h) (by decide)

/-- The reason of a rejected push, too. -/
theorem oneLine_pushStatus (e : Error) : OneLine (pushStatus e) := by
  unfold pushStatus
  split
  · rename_i rejection _
    cases rejection <;> simp only [PushRejection.gitStatus] <;> decide
  · decide
  · exact oneLine_singleLine e

theorem statusOf_error (remote : Text) (push : RefPush) (e : Error) :
    StatusOf remote push (reportPushError remote push.destination e) := by
  unfold reportPushError
  split
  · exact .readOnly
  · exact .error (oneLine_pushStatus e)

/-- Whatever became of a push, it is told in one line. -/
theorem statusOf_line (remote : Text) (publication : Result Text) (push : RefPush)
    (outcome : RefOutcome) :
    StatusOf remote push ((reportChange publication push outcome).line remote) := by
  cases outcome with
  | rejected e => exact statusOf_error remote push e
  | accepted =>
    cases publication with
    | ok id => exact .ok
    | error e => exact statusOf_error remote push e

/-- One status for each push, if there is one outcome for each. -/
theorem statuses_of_report (remote : Text) (pushes : List RefPush) {result : Result PushOutcome}
    (h : ∀ outcome, result = .ok outcome → outcome.refs.length = pushes.length) :
    List.Forall₂ (StatusOf remote) pushes
      ((reportPush pushes result).map (PushReport.line remote)) := by
  cases result with
  -- a batch that failed as a whole is told to every push
  | error e =>
    rw [reportPush, List.map_map]
    exact List.forall₂_map_right_iff.mpr (List.forall₂_same.mpr fun push _ =>
      statusOf_error remote push e)
  | ok outcome =>
    have hzip : ∀ (pushes : List RefPush) (refs : List RefOutcome), refs.length = pushes.length →
        List.Forall₂ (StatusOf remote) pushes ((pushes.zip refs).map fun pair =>
          (reportChange outcome.publication pair.1 pair.2).line remote) := by
      intro pushes
      induction pushes with
      | nil => exact fun _ _ => .nil
      | cons push pushes ih =>
        intro refs hlength
        cases refs with
        | nil => cases hlength
        | cons first refs =>
          exact .cons (statusOf_line remote outcome.publication push first)
            (ih refs (Nat.succ.inj hlength))
    rw [reportPush, List.map_map]
    exact hzip pushes outcome.refs (h outcome rfl)

/-! ### One outcome for each push -/

section

variable {S G : Type} {P : Primitives} {storage : Storage S} {repo : GitRepository G}
    {key : KeyFile}

/-- Each push adds one outcome. -/
theorem record_length (parentRefs : RefMap) (state : PushState) (destination : Text)
    (preflight : Result (Option Text)) :
    (state.record parentRefs destination preflight).refs.length = state.refs.length + 1 := by
  rcases preflight with _ | _ | _ <;> simp [PushState.record]

/-- The batch has one outcome for each push it looked at. -/
theorem pushChanges_length {parentRefs : RefMap} {pushes : List RefPush} {state batch : PushState}
    {g g' : G} (h : pushChanges repo parentRefs state pushes g = (.ok batch, g')) :
    batch.refs.length = state.refs.length + pushes.length := by
  induction pushes generalizing state g with
  | nil =>
    cases h
    rfl
  | cons push pushes ih =>
    obtain ⟨next, g₁, hchange, h⟩ := Action.bind_eq_ok.mp h
    obtain ⟨judged, g₂, -, hchange⟩ := Action.bind_eq_ok.mp hchange
    obtain ⟨rfl, -⟩ := Action.pure_eq_ok.mp hchange
    simp only [ih h, record_length, List.length_cons]
    omega

/-- So has the check of a whole batch. -/
theorem preflight_length {pushes : List RefPush} {checked : Preflight} {m m' : Machine S G}
    (h : preflight P storage repo key pushes m = (.ok checked, m')) :
    checked.batch.refs.length = pushes.length := by
  obtain ⟨_, m₁, -, h⟩ := Action.bind_eq_ok.mp h
  obtain ⟨⟨current, chain⟩, m₂, -, h⟩ := Action.bind_eq_ok.mp h
  obtain ⟨_, m₃, -, h⟩ := Action.bind_eq_ok.mp h
  obtain ⟨_, m₄, -, h⟩ := Action.bind_eq_ok.mp h
  obtain ⟨batch, m₅, hbatch, h⟩ := Action.bind_eq_ok.mp h
  obtain ⟨rfl, -⟩ := Action.pure_eq_ok.mp h
  obtain ⟨hbatch, -⟩ := Action.zoom_eq hbatch
  have hlength := pushChanges_length hbatch
  rwa [List.length_nil, Nat.zero_add] at hlength

/-- And however a push ends, if it returns, no outcome is missing. -/
theorem push_length {pushes : List RefPush} {mode : PushMode} {draws : Draws}
    {m m' : Machine S G} {accepted : Accepted PushOutcome}
    (h : push P storage repo key pushes mode draws m = (.ok accepted, m')) :
    accepted.value.refs.length = pushes.length := by
  have hrun : PushRun P storage repo key pushes mode draws m _ _ := push_run
  rw [h] at hrun
  cases hrun with
  | idle hchecked _ _ => exact preflight_length hchecked
  | uncommitted hchecked _ _ _ => exact preflight_length hchecked
  | unrecorded hchecked _ _ _ _ => exact preflight_length hchecked
  | published hchecked _ _ _ _ => exact preflight_length hchecked

end

/-! ## In step -/

section

variable {S G : Type} (P : Primitives) (storage : Storage S) (repo : GitRepository G)
    (key : KeyFile)
  (remote : Text) (draws : Session S G → Draws)

/-- What serving one request does to the output: an answer, or the helper gives up with
nothing said. -/
def AnswersRequest (request : Request) (x : Action Error (Session S G) Unit) : Prop :=
  ∀ session, ((x session).1 = .ok () ∧ ∃ lines, AnswerTo remote request lines
      ∧ (x session).2.output = session.output ++ lines)
    ∨ ((∃ e, (x session).1 = .error e) ∧ (x session).2.output = session.output)

/-- What is listed has valid names. -/
theorem observeManifest_valid {accepted : Accepted Manifest} {m m' : Machine S G}
    (h : observeManifest P storage repo key m = (.ok accepted, m')) :
    validateInnerRefs accepted.value.refs = .ok () := by
  obtain ⟨⟨⟩, m₁, -, h⟩ := Action.bind_eq_ok.mp h
  obtain ⟨⟨⟩, m₂, -, h⟩ := Action.bind_eq_ok.mp h
  obtain ⟨⟨current, chain⟩, m₃, -, h⟩ := Action.bind_eq_ok.mp h
  obtain ⟨⟨⟩, m₄, hvalid, h⟩ := Action.bind_eq_ok.mp h
  obtain ⟨⟨⟩, m₅, -, h⟩ := Action.bind_eq_ok.mp h
  obtain ⟨⟨⟩, m₆, -, h⟩ := Action.bind_eq_ok.mp h
  obtain ⟨rfl, -⟩ := Action.pure_eq_ok.mp h
  exact (Action.lift_eq_ok.mp hvalid).1

/-- A batch of fetches is answered by one empty line. -/
theorem answersRequest_fetch : AnswersRequest remote .fetch
    (finishFetch P storage repo key : Action Error (Session S G) _) := by
  intro session
  rcases Action.bind_cases (onRepository (importPacks P storage repo key))
    (fun _ => say [""]) session
    with ⟨accepted, session₁, hrun, heq⟩ | ⟨e, session₁, hrun, heq⟩
  · refine .inl ?_
    obtain ⟨-, rfl⟩ := Action.zoom_eq hrun
    rw [show finishFetch P storage repo key session = _ from heq]
    exact ⟨rfl, [""], .fetch, rfl⟩
  · refine .inr ?_
    obtain ⟨-, rfl⟩ := Action.zoom_eq hrun
    rw [show finishFetch P storage repo key session = _ from heq]
    exact ⟨⟨e, rfl⟩, rfl⟩

/-- A batch of pushes is answered by a status for each. -/
theorem answersRequest_push (commands : List Text) :
    AnswersRequest remote (.push commands)
      (finishPush P storage repo key remote draws commands) := by
  intro session
  cases hparse : commands.mapM parsePush with
  | error e =>
    refine .inr ?_
    rw [finishPush, Action.bind_of_error (x := Action.lift (commands.mapM parsePush)) (e := e)
      (s := session) (by rw [hparse]; rfl)]
    exact ⟨⟨e, rfl⟩, rfl⟩
  | ok pushes =>
    refine .inl ?_
    rw [finishPush, Action.bind_of_ok (x := Action.lift (commands.mapM parsePush)) (a := pushes)
      (s := session) (by rw [hparse]; rfl), Action.bind_of_ok (x := Action.get) (s := session) rfl,
      Action.bind_of_ok (Action.attempt_apply _ _)]
    refine ⟨rfl, _, .push hparse (statuses_of_report remote pushes fun outcome houtcome => ?_), rfl⟩
    cases hrun : push P storage repo key pushes (if session.dryRun then .dryRun else .publish)
        (draws session) session.machine with
    | mk result machine =>
      have hresult : (onRepository (push P storage repo key pushes
          (if session.dryRun then .dryRun else .publish) (draws session)) session).1 = result := by
        simp only [onRepository, Action.zoom, hrun]
      rw [hresult] at houtcome
      cases result with
      | error e => cases houtcome
      | ok accepted =>
        cases houtcome
        exact push_length hrun

/-- A command is answered in its own way. -/
theorem answersRequest_command (line : Text) :
    AnswersRequest remote (.command line)
      (answer P storage repo key remote line : Action Error (Session S G) _) := by
  intro session
  unfold answer
  split
  · rename_i hline
    subst hline
    exact .inl ⟨rfl, _, .capabilities, rfl⟩
  split
  · rename_i hline
    rcases Action.bind_cases (onRepository (observeManifest P storage repo key))
        (fun accepted => say (listing accepted.value.refs)) session
      with ⟨accepted, session₁, hrun, heq⟩ | ⟨e, session₁, hrun, heq⟩
    · obtain ⟨hobserved, rfl⟩ := Action.zoom_eq hrun
      rw [heq]
      exact .inl ⟨rfl, _, .listing hline (observeManifest_valid P storage repo key hobserved), rfl⟩
    · obtain ⟨-, rfl⟩ := Action.zoom_eq hrun
      rw [heq]
      exact .inr ⟨⟨e, rfl⟩, rfl⟩
  split
  · rename_i hoption
    refine .inl ?_
    unfold setOption
    split
    · exact ⟨rfl, _, .option hoption (.inl rfl), rfl⟩
    split
    · exact ⟨rfl, _, .option hoption (.inl rfl), rfl⟩
    split
    · exact ⟨rfl, _, .option hoption (.inl rfl), rfl⟩
    · exact ⟨rfl, _, .option hoption (.inr rfl), rfl⟩
  · exact .inr ⟨⟨_, rfl⟩, rfl⟩

/-- The output of a run: answers to the first requests, and to all of them if it ends well. -/
def InStep (asked : List Request) (session : Session S G) (result : Result Unit)
    (session' : Session S G) : Prop :=
  ∃ answers rest, session'.output = session.output ++ answers.flatten
    ∧ (∃ served, asked = served ++ rest ∧ List.Forall₂ (AnswerTo remote) served answers)
    ∧ (result = .ok () → rest = [])

theorem answersRequest_serve (request : Request) :
    AnswersRequest remote request (serve P storage repo key remote draws request) := by
  cases request with
  | command line => exact answersRequest_command P storage repo key remote line
  | fetch => exact answersRequest_fetch P storage repo key remote
  | push commands => exact answersRequest_push P storage repo key remote draws commands

/-- One answer for each request, as long as none fails. -/
theorem inStep_serveAll (asked : List Request) (session : Session S G) :
    InStep remote asked session (serveAll P storage repo key remote draws asked session).1
      (serveAll P storage repo key remote draws asked session).2 := by
  induction asked generalizing session with
  | nil => exact ⟨[], [], (List.append_nil _).symm, ⟨[], rfl, .nil⟩, fun _ => rfl⟩
  | cons request asked ih =>
    have hfirst := answersRequest_serve P storage repo key remote draws request session
    rcases Action.bind_cases (serve P storage repo key remote draws request)
        (fun _ => serveAll P storage repo key remote draws asked) session
      with ⟨_, session₁, hrun, heq⟩ | ⟨e, session₁, hrun, heq⟩
    · rw [hrun] at hfirst
      rcases hfirst with ⟨-, lines, hanswer, houtput⟩ | ⟨⟨e, he⟩, -⟩
      · obtain ⟨answers, rest, hrest, ⟨served, rfl, hserved⟩, hall⟩ := ih session₁
        rw [serveAll, heq]
        refine ⟨lines :: answers, rest, ?_, ⟨request :: served, rfl, .cons hanswer hserved⟩, hall⟩
        rw [hrest, houtput, List.flatten_cons, List.append_assoc]
      · cases he
    · rw [hrun] at hfirst
      rcases hfirst with ⟨hok, -⟩ | ⟨-, houtput⟩
      · cases hok
      · rw [serveAll, heq]
        -- asked
        refine ⟨[], request :: asked, ?_, ⟨[], rfl, .nil⟩, fun h => by cases h⟩
        rw [houtput, List.flatten_nil, List.append_nil]

/-- **The helper keeps in step with Git.** Whatever the lines of the input, the storage and
the local repository are: what the helper writes is the answers to the requests of the input,
in order and each of the shape its request calls for. Each line of an answer is one line,
unless the answer lists a ref whose value is not. If the helper gives up on a request, it has
answered all requests before, and nothing of this one. -/
theorem helper_keeps_in_step (P : Primitives) (storage : Storage S) (repo : GitRepository G)
    (key : KeyFile) (remote : Text) (draws : Session S G → Draws) (input : List (Result Text))
    (session : Session S G) (hremote : Unbroken remote)
    (hinput : ∀ line, .ok line ∈ input → Unbroken line) :
    ∃ answers served rest, requests .commands input = served ++ rest
      ∧ (runProtocol P storage repo key remote draws .commands input session).2.output
        = session.output ++ answers.flatten
      ∧ List.Forall₂ (AnswerTo remote) served answers
      ∧ (∀ answer ∈ answers, (∀ line ∈ answer, OneLine line) ∨ ListsBreak answer)
      ∧ ((runProtocol P storage repo key remote draws .commands input session).1 = .ok () →
        rest = []) := by
  obtain ⟨answers, rest, houtput, ⟨served, hasked, hserved⟩, hall⟩ :=
    inStep_serveAll P storage repo key remote draws (requests .commands input) session
  -- an answer names what its request names, and that came from the input
  have hlines : ∀ answer ∈ answers, (∀ line ∈ answer, OneLine line) ∨ ListsBreak answer := by
    intro answer hanswer
    obtain ⟨request, hrequest, hanswers⟩ := forall₂_exists_left hserved hanswer
    refine hanswers.oneLine hremote fun line hline => hinput line ?_
    have hmade := requests_lines .commands input request
      (hasked ▸ List.mem_append_left _ hrequest) line hline
    exact hmade.resolve_left List.not_mem_nil
  rw [runProtocol_eq]
  rcases Action.bind_cases (serveAll P storage repo key remote draws (requests .commands input))
      (fun _ => Action.lift (ending .commands input)) session
    with ⟨⟨⟩, session₁, hrun, heq⟩ | ⟨e, session₁, hrun, heq⟩
  · rw [hrun] at houtput hall
    rw [heq]
    exact ⟨answers, served, rest, hasked, houtput, hserved, hlines, fun _ => hall rfl⟩
  · rw [hrun] at houtput
    rw [heq]
    exact ⟨answers, served, rest, hasked, houtput, hserved, hlines, fun h => by cases h⟩

end

/-! ## A session -/

namespace Reference

/-- A listing, a dry run that deletes the tag, and a fetch. -/
def rehearsal : List (Result Text) :=
  [.ok (text "list for-push"), .ok (text "option dry-run true"), .ok (text "push :refs/tags/v1"),
    .ok [], .ok (text "option dry-run false"), .ok (text "fetch 0123 refs/tags/v1"), .ok []]

theorem requests_rehearsal : requests .commands rehearsal
    = [.command (text "list for-push"), .command (text "option dry-run true"),
      .push [text "push :refs/tags/v1"], .command (text "option dry-run false"), .fetch] := by
  decide

theorem ending_rehearsal : ending .commands rehearsal = .ok () := by
  have hok : (ending .commands rehearsal).isOk = true := by decide
  cases hending : ending .commands rehearsal with
  | ok u => rfl
  | error e =>
    rw [hending] at hok
    cases hok

/-- A session at the stocked directory. -/
def sessionAt (objects : List Bytes) (p : OpenedState) (floor : Option ContinuityFloor)
    (progress : Option CheckoutProgress) (output : List String) (dryRun : Bool) :
    Session Directory (Option CheckoutProgress) :=
  ⟨atShelf objects p floor progress, output, dryRun⟩

theorem onRepository_ok {S G α : Type} {x : Action Error (Machine S G) α} {m m' : Machine S G}
    {a : α} (h : x m = (.ok a, m')) (output : List String) (dryRun : Bool) :
    onRepository x (⟨m, output, dryRun⟩ : Session S G) = (.ok a, ⟨m', output, dryRun⟩) := by
  simp only [onRepository, Action.zoom, h]

section

variable {objects : List Bytes} {p : OpenedState} {chain : List OpenedState}

theorem Stocked.serves_list (h : Stocked objects p chain) :
    serve primitives (Directory.storage primitives "shelf") checkout ownerKey (text "origin")
        (fun _ => draws 2) (.command (text "list for-push"))
        (sessionAt objects p none none [] false)
      = (.ok (), sessionAt objects p (some (ContinuityFloor.at p.id p.manifest))
        (some (recorded p)) (listing tagged) false) := by
  rw [serve, answer, if_neg (by decide), if_pos (.inr rfl)]
  refine Action.bind_eq_ok.mpr ⟨_, _, onRepository_ok h.observes [] false, ?_⟩
  show (Except.ok (), sessionAt objects p _ _ ([] ++ listing p.manifest.refs) false) = _
  rw [h.refs]
  rfl

/-- The option is set, whatever was set before. -/
theorem serves_option (value : Bool) (floor : Option ContinuityFloor)
    (progress : Option CheckoutProgress) (output : List String) (dryRun : Bool) :
    serve primitives (Directory.storage primitives "shelf") checkout ownerKey (text "origin")
        (fun _ => draws 2) (.command (text "option dry-run " ++ text (toString value)))
        (sessionAt objects p floor progress output dryRun)
      = (.ok (), sessionAt objects p floor progress (output ++ ["ok"]) value) := by
  rw [serve, answer, if_neg (by cases value <;> decide),
    if_neg (by cases value <;> decide), if_pos (by cases value <;> decide)]
  cases value with
  | true =>
    rw [setOption, if_pos (by decide)]
    rfl
  | false =>
    rw [setOption, if_neg (by decide), if_pos (by decide)]
    rfl

theorem Stocked.serves_push (h : Stocked objects p chain) {floor : Option ContinuityFloor}
    (hfloor : Rests p floor) (progress : Option CheckoutProgress) (output : List String) :
    serve primitives (Directory.storage primitives "shelf") checkout ownerKey (text "origin")
        (fun _ => draws 2) (.push [text "push :refs/tags/v1"])
        (sessionAt objects p floor progress output true)
      = (.ok (), sessionAt objects p (some (ContinuityFloor.at p.id p.manifest)) progress
        (output ++ ["ok refs/tags/v1", ""]) true) := by
  have hparse : [text "push :refs/tags/v1"].mapM parsePush = .ok deletion := rfl
  have hpush : onRepository (push primitives (Directory.storage primitives "shelf") checkout
      ownerKey deletion .dryRun (draws 2)) (sessionAt objects p floor progress output true)
        = (.ok _, sessionAt objects p _ progress output true) :=
    onRepository_ok (h.rehearses (draws 2) hfloor progress) output true
  have hline : s!"ok {render release}" = "ok refs/tags/v1" := by decide
  rw [serve, ← hline]
  refine Action.bind_eq_ok.mpr ⟨deletion, _, Action.lift_eq_ok.mpr ⟨hparse, rfl⟩, ?_⟩
  refine Action.bind_eq_ok.mpr ⟨_, _, rfl, ?_⟩
  refine Action.bind_eq_ok.mpr ⟨.ok ⟨⟨[.accepted], .ok p.id⟩, entriesOf (p :: chain)⟩,
    sessionAt objects p (some (ContinuityFloor.at p.id p.manifest)) progress output true, ?_, rfl⟩
  show Action.attempt (onRepository (push primitives (Directory.storage primitives "shelf") checkout
    ownerKey deletion .dryRun (draws 2))) (sessionAt objects p floor progress output true) = _
  rw [Action.attempt_apply, hpush]

theorem Stocked.serves_fetch (h : Stocked objects p chain) {floor : Option ContinuityFloor}
    (hfloor : Rests p floor) {progress : Option CheckoutProgress} {stored : CheckoutProgress}
    (hprogress : Checkout.checkFormat progress = .ok stored) (output : List String)
    (dryRun : Bool) :
    serve primitives (Directory.storage primitives "shelf") checkout ownerKey (text "origin")
        (fun _ => draws 2) .fetch (sessionAt objects p floor progress output dryRun)
      = (.ok (), sessionAt objects p (some (ContinuityFloor.at p.id p.manifest))
        (some (recorded p)) (output ++ [""]) dryRun) :=
  Action.bind_eq_ok.mpr ⟨_, _, onRepository_ok (h.imports hfloor hprogress) output dryRun, rfl⟩

/-- **The whole session**: each request is reached and answered. -/
theorem Stocked.rehearsal (h : Stocked objects p chain) :
    runProtocol primitives (Directory.storage primitives "shelf") checkout ownerKey (text "origin")
        (fun _ => draws 2) .commands rehearsal (sessionAt objects p none none [] false)
      = (.ok (), sessionAt objects p (some (ContinuityFloor.at p.id p.manifest))
        (some (recorded p)) (listing tagged ++ ["ok"] ++ ["ok refs/tags/v1", ""] ++ ["ok"] ++ [""])
        false) := by
  have hat : Rests p (some (ContinuityFloor.at p.id p.manifest)) := by
    rintro f ⟨⟩
    rfl
  have hon : text "option dry-run true" = text "option dry-run " ++ text (toString true) := by
    decide
  have hoff : text "option dry-run false" = text "option dry-run " ++ text (toString false) := by
    decide
  have hrecorded : Checkout.checkFormat (some (recorded p)) = .ok (recorded p) := rfl
  rw [runProtocol_eq, requests_rehearsal, ending_rehearsal, hon, hoff]
  refine Action.bind_eq_ok.mpr ⟨(), _, ?_, rfl⟩
  rw [serveAll, Action.bind_of_ok h.serves_list, serveAll,
    Action.bind_of_ok (serves_option true _ _ _ _), serveAll,
    Action.bind_of_ok (h.serves_push hat _ _), serveAll,
    Action.bind_of_ok (serves_option false _ _ _ _), serveAll,
    Action.bind_of_ok (h.serves_fetch hat hrecorded _ _)]
  rfl

end

end Reference

/-- The session at the stocked directory, which ends well and is answered line by line. -/
theorem helper_keeps_in_step_rehearsal : ∃ objects p answers,
    ∃ session' : Session Directory (Option CheckoutProgress),
    runProtocol Reference.primitives (Directory.storage Reference.primitives "shelf")
      Reference.checkout Reference.ownerKey (text "origin") (fun _ => Reference.draws 2) .commands
      Reference.rehearsal (Reference.sessionAt objects p none none [] false) = (.ok (), session')
    ∧ session'.output = answers.flatten
    ∧ List.Forall₂ (AnswerTo (text "origin")) (requests .commands Reference.rehearsal) answers
    ∧ session'.output = ["0123456789abcdef0123456789abcdef01234567 refs/tags/v1", "", "ok",
      "ok refs/tags/v1", "", "ok", ""] := by
  obtain ⟨objects, p, chain, h⟩ := Reference.stocked_exists
  have hrun := h.rehearsal
  have hremote : Unbroken (text "origin") := by decide
  have hinput : ∀ line, .ok line ∈ Reference.rehearsal → Unbroken line := by
    simp only [Reference.rehearsal, List.mem_cons, Except.ok.injEq, List.not_mem_nil, or_false,
      forall_eq_or_imp, forall_eq]
    decide
  obtain ⟨answers, served, rest, hasked, houtput, hserved, -, hall⟩ :=
    helper_keeps_in_step Reference.primitives (Directory.storage Reference.primitives "shelf")
      Reference.checkout Reference.ownerKey (text "origin") (fun _ => Reference.draws 2)
      Reference.rehearsal (Reference.sessionAt objects p none none [] false) hremote hinput
  rw [hrun] at houtput hall
  rw [hall rfl, List.append_nil] at hasked
  refine ⟨objects, p, answers, _, hrun, houtput, hasked ▸ hserved, ?_⟩
  show listing Reference.tagged ++ ["ok"] ++ ["ok refs/tags/v1", ""] ++ ["ok"] ++ [""] = _
  decide

end GitE2EE

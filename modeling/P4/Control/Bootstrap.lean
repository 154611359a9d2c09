/-
  How far the relay is: `feature/control/control_bootstrap.c`, `handle_control_getinfo` in
  `feature/control/control_getinfo.c`, and `P4Node._wait_for_onionrelay_bootstrap`.

  The relay keeps the last message about its progress as text, and answers
  `GETINFO status/bootstrap-phase` with it; the node asks for it every second and looks for the
  number in it.  `Bootstrapping` is the two of them, with the reports of the rest of the relay in
  any order.  A round of the node's loop (the question, the relay's answer, the reading of it and
  the look at the deadline) is one step: it depends on the relay only through the answer, so what
  the relay reports between its answer and the look at the deadline counts as reported after.
-/
import P4.Control.Command
import P4.Onion.Basic
import P4.Run.Basic

namespace P4

/-! ### The relay -/

/-- `bootstrap_status_t`, the rows of `boot_to_str_tab` -/
inductive BootstrapStatus where
  | undef | starting
  | connPt | connDonePt | connProxy | connDoneProxy | conn | connDone
  | handshake | handshakeDone
  | onehopCreate | requestingStatus | loadingStatus | loadingKeys
  | requestingDescriptors | loadingDescriptors | enoughDirinfo
  | apConnPt | apConnDonePt | apConnProxy | apConnDoneProxy | apConn | apConnDone
  | apHandshake | apHandshakeDone
  | circuitCreate | done
deriving DecidableEq

namespace BootstrapStatus

/-- The rows in order. -/
def all : List BootstrapStatus :=
  [undef, starting, connPt, connDonePt, connProxy, connDoneProxy, conn, connDone, handshake,
    handshakeDone, onehopCreate, requestingStatus, loadingStatus, loadingKeys,
    requestingDescriptors, loadingDescriptors, enoughDirinfo, apConnPt, apConnDonePt, apConnProxy,
    apConnDoneProxy, apConn, apConnDone, apHandshake, apHandshakeDone, circuitCreate, done]

/-- The number of a status. -/
def toInt : BootstrapStatus → Int
  | undef => -1
  | starting => 0
  | connPt => 1
  | connDonePt => 2
  | connProxy => 3
  | connDoneProxy => 4
  | conn => 5
  | connDone => 10
  | handshake => 14
  | handshakeDone => 15
  | onehopCreate => 20
  | requestingStatus => 25
  | loadingStatus => 30
  | loadingKeys => 40
  | requestingDescriptors => 45
  | loadingDescriptors => 50
  | enoughDirinfo => 75
  | apConnPt => 76
  | apConnDonePt => 77
  | apConnProxy => 78
  | apConnDoneProxy => 79
  | apConn => 80
  | apConnDone => 85
  | apHandshake => 89
  | apHandshakeDone => 90
  | circuitCreate => 95
  | done => 100

/-- The tag and the summary. -/
def names : BootstrapStatus → String × String
  | undef => ("undef", "Undefined")
  | starting => ("starting", "Starting")
  | connPt => ("conn_pt", "Connecting to pluggable transport")
  | connDonePt => ("conn_done_pt", "Connected to pluggable transport")
  | connProxy => ("conn_proxy", "Connecting to proxy")
  | connDoneProxy => ("conn_done_proxy", "Connected to proxy")
  | conn => ("conn", "Connecting to a relay")
  | connDone => ("conn_done", "Connected to a relay")
  | handshake => ("handshake", "Handshaking with a relay")
  | handshakeDone => ("handshake_done", "Handshake with a relay done")
  | onehopCreate => ("onehop_create", "Establishing an encrypted directory connection")
  | requestingStatus => ("requesting_status", "Asking for networkstatus consensus")
  | loadingStatus => ("loading_status", "Loading networkstatus consensus")
  | loadingKeys => ("loading_keys", "Loading authority key certs")
  | requestingDescriptors => ("requesting_descriptors", "Asking for relay descriptors")
  | loadingDescriptors => ("loading_descriptors", "Loading relay descriptors")
  | enoughDirinfo => ("enough_dirinfo", "Loaded enough directory info to build circuits")
  | apConnPt => ("ap_conn_pt", "Connecting to pluggable transport to build circuits")
  | apConnDonePt => ("ap_conn_done_pt", "Connected to pluggable transport to build circuits")
  | apConnProxy => ("ap_conn_proxy", "Connecting to proxy to build circuits")
  | apConnDoneProxy => ("ap_conn_done_proxy", "Connected to proxy to build circuits")
  | apConn => ("ap_conn", "Connecting to a relay to build circuits")
  | apConnDone => ("ap_conn_done", "Connected to a relay to build circuits")
  | apHandshake => ("ap_handshake", "Finishing handshake with a relay to build circuits")
  | apHandshakeDone => ("ap_handshake_done", "Handshake finished with a relay to build circuits")
  | circuitCreate => ("circuit_create", "Establishing a Tor circuit")
  | done => ("done", "Done")

/-- `bootstrap_status_to_string`; `none` is `-1`. -/
def toString? (s : Int) : Option (List UInt8 × List UInt8) :=
  (all.find? fun status => status.toInt = s).map fun status =>
    (ascii status.names.1, ascii status.names.2)

end BootstrapStatus

/-- `%d` -/
def printInt (i : Int) : List UInt8 :=
  if i < 0 then 45 :: printNat i.natAbs else printNat i.natAbs

/-- `tor_snprintf` into a buffer of `BOOTSTRAP_MSG_LEN` bytes -/
def snprintfMsg (s : List UInt8) : List UInt8 := s.take (1024 - 1)

/-- A problem that is reported. -/
structure BootProblem where
  warn : List UInt8
  reason : List UInt8
  /-- the identity digest of the connection in hexadecimal, or `?` -/
  orId : List UInt8
  hostaddr : List UInt8
  dowarn : Bool
  /-- `we_are_hibernating()` -/
  hibernating : Bool

/-- The static variables of `control_bootstrap.c`. -/
structure Bootstrap where
  percent : Int := -1
  phase : Int := -1
  noticePercent : Int := 0
  problems : Nat := 0
  firstOrconn : Bool := false
  dirPhase : Int := -1
  dirProgress : Int := -1
  lastMessage : List UInt8 := []

namespace Bootstrap

/-- `control_event_bootstrap_core` -/
def core (b : Bootstrap) (status progress : Int) : Bootstrap :=
  let (tag, summary) := (BootstrapStatus.toString? status).getD (ascii "unknown", ascii "unknown")
  let status := if progress ≠ 0 then progress else status
  let buf := snprintfMsg (ascii "BOOTSTRAP PROGRESS=" ++ printInt status ++ ascii " TAG=" ++ tag ++
    ascii " SUMMARY=\"" ++ summary ++ ascii "\"")
  { b with lastMessage := snprintfMsg (ascii "NOTICE " ++ buf) }

/-- The new numbers in `control_event_bootstrap`. -/
def advance (b : Bootstrap) (status progress : Int) : Bootstrap :=
  let b := if b.percent < status then { b with phase := status, percent := status } else b
  if b.percent < progress then { b with percent := progress, problems := 0 } else b

/-- The last notice in `control_event_bootstrap`. -/
def noticed (b : Bootstrap) (notice : Bool) : Bootstrap :=
  if notice && b.noticePercent < b.percent then { b with noticePercent := b.percent } else b

/-- `control_event_bootstrap` -/
def event (b : Bootstrap) (status progress : Int) : Bootstrap :=
  let old := decide (status ≤ b.percent)
  if b.percent = 100 || (old && (progress = 0 || progress ≤ b.percent)) then b
  else ((b.core status progress).advance status progress).noticed
    !(old && progress < b.noticePercent + 5)

/-- The new numbers in `control_event_boot_dir`. -/
def advanceDir (b : Bootstrap) (status progress : Int) : Bootstrap :=
  let b := if b.dirProgress < status then { b with dirProgress := status, dirPhase := status }
    else b
  if progress ≠ 0 ∧ b.dirProgress ≤ progress then { b with dirProgress := progress } else b

/-- `control_event_boot_dir` -/
def bootDir (b : Bootstrap) (status progress : Int) : Bootstrap :=
  let b := b.advanceDir status progress
  if b.firstOrconn then b.event status progress else b

/-- `control_event_boot_first_orconn` -/
def bootFirstOrconn (b : Bootstrap) : Bootstrap :=
  { b with firstOrconn := true }.event b.dirPhase b.dirProgress

/-- `control_event_bootstrap_problem`; `none` is an assertion that fails. -/
def problem (b : Bootstrap) (p : BootProblem) : Option Bootstrap :=
  if b.percent < 0 then none
  else if b.percent = 100 then some b
  else
    let problems := b.problems + 1
    let dowarn := (p.dowarn || 10 ≤ problems) && !p.hibernating
    (BootstrapStatus.toString? b.phase).map fun (tag, summary) =>
      let recommendation := if dowarn then ascii "warn" else ascii "ignore"
      let buf := snprintfMsg (ascii "BOOTSTRAP PROGRESS=" ++ printInt b.percent ++ ascii " TAG=" ++
        tag ++ ascii " SUMMARY=\"" ++ summary ++ ascii "\" WARNING=\"" ++ p.warn ++
        ascii "\" REASON=" ++ p.reason ++ ascii " COUNT=" ++ printNat problems ++
        ascii " RECOMMENDATION=" ++ recommendation ++ ascii " HOSTID=\"" ++ p.orId ++
        ascii "\" HOSTADDR=\"" ++ p.hostaddr ++ ascii "\"")
      { b with problems := problems, lastMessage := snprintfMsg (ascii "WARN " ++ buf) }

end Bootstrap

/-! ### GETINFO -/

/-- What `handle_getinfo_helper` says to a question. -/
inductive GetinfoAnswer where
  /-- it has failed -/
  | failed (errmsg : Option (List UInt8))
  /-- there is no answer -/
  | unknown (errmsg : Option (List UInt8))
  | answer (ans : List UInt8)

/-- `getinfo_syntax` -/
def getinfoSyntax : ControlSyntax where
  maxArgs := none

/-- The loop of `handle_control_getinfo`: the answers and the lines about questions that have
none, or the message of a failure. -/
def getinfoLines (helper : List UInt8 → GetinfoAnswer) :
    List (List UInt8) → Except (List UInt8) (List ReplyLine × List ReplyLine)
  | [] => .ok ([], [])
  | q :: questions =>
    match helper q with
    | .failed errmsg => .error (errmsg.getD (ascii "Internal error"))
    | .unknown errmsg => (getinfoLines helper questions).map fun r =>
        (r.1, replyStr 552 (errmsg.getD (ascii "Unrecognized key \"" ++ q ++ ascii "\"")) :: r.2)
    | .answer ans => (getinfoLines helper questions).map fun r => (oneKv 250 q ans :: r.1, r.2)

/-- `handle_control_getinfo` -/
def handleControlGetinfo {σ : Type} (helper : σ → List UInt8 → GetinfoAnswer) :
    ControlHandler σ := fun conn args =>
  match getinfoLines (helper conn.relay) args.args with
  | .error errmsg => (conn, some (controlWriteEndreply 551 errmsg))
  | .ok (answers, unrecognized) =>
    if unrecognized.isEmpty then
      (conn, controlWriteReplyLines (answers ++ [replyStr 250 (ascii "OK")]))
    else (conn, controlWriteReplyLines unrecognized)

/-- The entry of `CONTROL_COMMANDS`. -/
def getinfoCmd {σ : Type} (helper : σ → List UInt8 → GetinfoAnswer) : ControlCmdDef σ :=
  ⟨ascii "getinfo", getinfoSyntax, handleControlGetinfo helper⟩

/-- `getinfo_helper_events` on the bootstrap phase; other questions are left to `others`. -/
def Bootstrap.getinfo (others : List UInt8 → GetinfoAnswer) (b : Bootstrap)
    (question : List UInt8) : GetinfoAnswer :=
  -- `control_event_boot_last_msg`
  if question = ascii "status/bootstrap-phase" then .answer b.lastMessage else others question

/-! ### The node -/

/-- `text.split()` -/
def splitWords (text : Text) : List Text :=
  (text.splitOnP isSpace).filter fun word => !word.isEmpty

section

variable [PyDigits]

/-- The value of a digit in `int`. -/
def intDigit (c : Char) : Option Nat :=
  if c.isDigit then some (c.toNat - 48)
  else if c.toNat < 0x80 then none
  else PyDigits.decimal c

/-- `int(text)`; `none` is `ValueError`. -/
def intText (text : Text) : Option Int :=
  let text := strip text
  let digits := if text.head? = some '-' || text.head? = some '+' then text.drop 1 else text
  -- single underscores may stand between digits
  if (digits.splitOn '_').any List.isEmpty then none
  else ((digits.filter (· ≠ '_')).foldlM
    (fun n c => (intDigit c).map fun d => 10 * n + d) 0).map fun n =>
      if text.head? = some '-' then -Int.ofNat n else Int.ofNat n

/-- `_extract_bootstrap_progress` -/
def extractBootstrapProgress : List Text → Int
  | [] => -1
  | line :: lines =>
    if "status/bootstrap-phase=".toList.isPrefixOf line then
      match (splitWords (afterFirst '=' line)).find? ("PROGRESS=".toList.isPrefixOf ·) with
      | some token => (intText (afterFirst '=' token)).getD (-1)
      | none => extractBootstrapProgress lines
    else extractBootstrapProgress lines

/-! ### Both -/

/-- The relay with its control port, and whether the node waits for it. -/
structure Bootstrapping where
  conn : ControlConn Bootstrap
  waiting : Bool := true

/-- What happens. -/
inductive BootAct where
  /-- `control_event_bootstrap` -/
  | report (status progress : Int)
  /-- `control_event_boot_dir` -/
  | reportDir (status progress : Int)
  /-- `control_event_boot_first_orconn` -/
  | firstOrconn
  /-- `control_event_bootstrap_problem` -/
  | problem (p : BootProblem)
  /-- a round of the node: it asks, the reply arrives as on the wire, and `late` says whether the
  deadline has passed -/
  | poll (w : Wire UInt8) (late : Bool)

/-- What can be seen of it. -/
inductive BootEvent where
  /-- `BOOTSTRAP_STATUS_DONE` was reported -/
  | done
  /-- an assertion of the relay has failed -/
  | aborted
  /-- the node got this progress, while the relay was at `percent` -/
  | polled (progress percent : Int)
  /-- `_wait_for_onionrelay_bootstrap` returned -/
  | returned
  /-- `_wait_for_onionrelay_bootstrap` raised `TimeoutError` -/
  | timedOut
deriving DecidableEq

/-- The commands of the relay that the node uses while it waits. -/
def bootCommands (others : List UInt8 → GetinfoAnswer) : List (ControlCmdDef Bootstrap) :=
  [authenticateCmd none, getinfoCmd (Bootstrap.getinfo others)]

/-- The command of the node. -/
def phaseCommand : Text := "GETINFO status/bootstrap-phase".toList

namespace Bootstrapping

/-- The relay has gone on. -/
def withRelay (s : Bootstrapping) (b : Bootstrap) : Bootstrapping :=
  { s with conn := { s.conn with relay := b } }

/-- The steps of the relay, and of the loop in `_wait_for_onionrelay_bootstrap`. -/
def step (others : List UInt8 → GetinfoAnswer) : Machine Bootstrapping BootAct BootEvent :=
  fun s a =>
  match a with
  | .report status progress =>
    some (s.withRelay (s.conn.relay.event status progress), if status = 100 then [.done] else [])
  | .reportDir status progress => some (s.withRelay (s.conn.relay.bootDir status progress), [])
  | .firstOrconn => some (s.withRelay s.conn.relay.bootFirstOrconn, [])
  | .problem p =>
    match s.conn.relay.problem p with
    | none => some (s, [.aborted])
    | some b => some (s.withRelay b, [])
  | .poll w late =>
    -- the relay gets the line that the node writes, and the reply comes back
    match processLine (bootCommands others) s.conn (encodeText (phaseCommand ++ ['\r', '\n'])) with
    | (_, none) => none
    | (conn, some reply) =>
      if s.waiting = true ∧ w.contents = reply then
        let s := { s with conn := conn }
        match onionrelayControlCommand (Str.ofText phaseCommand) w with
        | (.returned lines, _) =>
          let progress := extractBootstrapProgress lines
          let seen : BootEvent := .polled progress conn.relay.percent
          if 100 ≤ progress then some ({ s with waiting := false }, [seen, .returned])
          else if late then some ({ s with waiting := false }, [seen, .timedOut])
          else some (s, [seen])
        -- an exception of the command is ignored
        | (.raised _, _) =>
          if late then some ({ s with waiting := false }, [.timedOut]) else some (s, [])
        | (.waiting, _) => none
      else none

/-- `tor_init` has reported `BOOTSTRAP_STATUS_STARTING`, and the node is authenticated. -/
def start : Bootstrapping where
  conn := { relay := Bootstrap.event {} 0 0, isOpen := true }

end Bootstrapping

end

end P4

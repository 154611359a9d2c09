/-
  One session of a node: the `Session` object, its lock, the peer connections and data channels
  that were ever made for it, and the coroutines that work on it.

  asyncio runs a coroutine up to its next `await` without interruption, so every action below
  is one such stretch of code: a coroutine goes on after an `await`, or a callback of a peer
  connection or a data channel runs.  Which of them goes next is open, as is what the network
  stack reports: `step` says what an action does when it happens.

  Peer connections, data channels and coroutines are named by their place in the lists of the
  world; they are never removed.
-/
import P4.Node.Contact
import P4.Run.Basic

namespace P4

/-! ### Data types -/

/-- `session.role` -/
inductive Role where
  | initiator
  | responder
deriving DecidableEq

/-- `pc.connectionState` -/
inductive ConnState where
  | new
  | connecting
  | connected
  | disconnected
  | failed
  | closed
deriving DecidableEq

/-- `state in {"failed", "closed", "disconnected"}` -/
def ConnState.terminal : ConnState → Bool
  | failed => true
  | closed => true
  | disconnected => true
  | _ => false

/-- `session.state`: what the code writes itself, or the state of a connection.  An open
channel is reported as the text `"connected"`, like a connected connection. -/
inductive SessionState where
  | idle
  | negotiating
  | answerApplied
  | channelClosed
  | conn (s : ConnState)
deriving DecidableEq

/-- `dc.readyState` -/
inductive ReadyState where
  | connecting
  | opened
  | closing
  | closed
deriving DecidableEq

/-- An `RTCPeerConnection` made by `_create_pc`. -/
structure PeerConnection where
  initiator : Bool
  /-- `close()` was called on it. -/
  closeCalled : Bool := false
deriving DecidableEq

/-- An `RTCDataChannel`, and the connection it belongs to. -/
structure DataChannel where
  pc : Nat
  readyState : ReadyState
deriving DecidableEq

/-- `class Session`, without its lock -/
structure Session (F : Type) where
  contact : Ref (Contact F)
  role : Role
  pc : Option Nat := none
  dc : Option Nat := none
  connected : Bool := false
  state : SessionState := .idle
  currentSessionId : Json F := .str []

/-- Where `_initiate_with_contact` waits. -/
inductive InitiatePhase (F : Type) where
  /-- for the session lock -/
  | lock
  /-- for `pc.close()` of the previous connection -/
  | closing
  /-- for the local description and its candidates -/
  | negotiating
  /-- for the reply to the offer -/
  | requesting
  /-- for `setRemoteDescription`, with the reply that passed the checks -/
  | applying (reply : Members F)

/-- Where `_handle_offer` waits. -/
inductive OfferPhase where
  | lock
  | closing
  /-- for the remote and local descriptions and the candidates -/
  | negotiating
deriving DecidableEq

/-- Where `drop_peer` waits. -/
inductive DropPhase where
  | lock
  | closing
deriving DecidableEq

/-- A coroutine that works on the session. -/
inductive Task (F : Type) where
  | initiate (phase : InitiatePhase F)
  /-- with the message whose payload is the offer -/
  | offer (msg : Members F) (phase : OfferPhase)
  | drop (phase : DropPhase)
  | finished

/-- A session and everything that works on it. -/
structure SessionWorld (F : Type) where
  session : Session F
  /-- The coroutine that holds `session.lock`. -/
  lock : Option Nat := none
  pcs : List PeerConnection := []
  dcs : List DataChannel := []
  tasks : List (Task F) := []

namespace Field

/-- `"type"` -/
def type : Str := Str.ofText ['t', 'y', 'p', 'e']
/-- `"session_id"` -/
def sessionId : Str := Str.ofText ['s', 'e', 's', 's', 'i', 'o', 'n', '_', 'i', 'd']
/-- `"sdp"` -/
def sdp : Str := Str.ofText ['s', 'd', 'p']
/-- `"sdp_type"` -/
def sdpType : Str := Str.ofText ['s', 'd', 'p', '_', 't', 'y', 'p', 'e']

end Field

section

variable {F : Type}

/-- `msg.get("payload", {})` when it is a dictionary. -/
def payloadOf (msg : Members F) : Option (Members F) :=
  match Dict.get? msg Field.payload with
  | none => some []
  | some (.obj m) => some m
  | some _ => none

/-! ### Actions -/

/-- What can happen to a session. -/
inductive SessionAct (F : Type) where
  /-- a maintainer calls `_initiate_with_contact` -/
  | callInitiate
  /-- `_handle_signal_conn` calls `_handle_offer` for a message -/
  | callOffer (msg : Members F)
  /-- `drop_peer` is called -/
  | callDrop
  /-- coroutine `t` gets the lock; `sid` is the next `uuid.uuid4()` -/
  | acquire (t : Nat) (sid : Text)
  /-- `await pc.close()` of coroutine `t` returns -/
  | closed (t : Nat) (sid : Text)
  /-- the local description of coroutine `t` is complete -/
  | gathered (t : Nat)
  /-- the reply of coroutine `t` passed all checks -/
  | replied (t : Nat) (reply : Members F)
  /-- `setRemoteDescription` of coroutine `t` returns -/
  | applied (t : Nat)
  /-- an exception, a timeout or a cancellation ends coroutine `t` -/
  | raised (t : Nat)
  /-- `on_connectionstatechange` of connection `p` runs and reads the state `st` -/
  | connectionStateChange (p : Nat) (st : ConnState)
  /-- `on_datachannel` of connection `p` runs, with a channel in state `rs` -/
  | dataChannel (p : Nat) (rs : ReadyState)
  /-- channel `d` opens and its `on_open` runs -/
  | channelOpen (d : Nat)
  /-- channel `d` closes and its `on_close` runs -/
  | channelClose (d : Nat)
  /-- an update of the contact sets `session.contact` and `session.role` -/
  | setContact (contact : Ref (Contact F)) (role : Role)
  /-- `shutdown` calls `_close_session_pc`, without the lock -/
  | shutdown

/-- What a step reports: `_handle_offer` took up an offer, or `_initiate_with_contact` reached
the state `answer-applied`. -/
inductive SessionEvent (F : Type) where
  | took (msg : Members F) (sid : Json F)
  | applied (sid : Json F) (reply : Members F)

/-! ### The code between two awaits -/

namespace SessionWorld

/-- The coroutine `t` goes on to wait at `task`. -/
def suspend (w : SessionWorld F) (t : Nat) (task : Task F) : SessionWorld F :=
  { w with tasks := w.tasks.set t task }

/-- The coroutine `t` ends, and releases the lock if it holds it. -/
def finish (w : SessionWorld F) (t : Nat) : SessionWorld F :=
  { w with tasks := w.tasks.set t .finished
           lock := if w.lock = some t then none else w.lock }

/-- `pc.close()` is called. -/
def callClose (w : SessionWorld F) (p : Nat) : SessionWorld F :=
  { w with pcs := w.pcs.modify p fun pc => { pc with closeCalled := true } }

/-- `_close_session_pc` up to its `await`, which is reached when there is a connection. -/
def closeSessionPc (w : SessionWorld F) : SessionWorld F :=
  let w' := { w with session := { w.session with pc := none, dc := none, connected := false } }
  match w.session.pc with
  | some p => w'.callClose p
  | none => w'

/-- `mark_open` in `_wire_datachannel` -/
def markOpen (w : SessionWorld F) : SessionWorld F :=
  if w.session.connected then w
  else { w with session := { w.session with connected := true, state := .conn .connected } }

/-- A new channel of connection `p`, and `_wire_datachannel` for it. -/
def wireDatachannel (w : SessionWorld F) (p : Nat) (rs : ReadyState) : SessionWorld F :=
  let w' := { w with dcs := w.dcs ++ [{ pc := p, readyState := rs }]
                     session := { w.session with dc := some w.dcs.length } }
  if rs = .opened then w'.markOpen else w'

/-- `_create_pc`, stored in `session.pc`, with the state `negotiating`. -/
def createPc (w : SessionWorld F) (initiator : Bool) : SessionWorld F :=
  { w with pcs := w.pcs ++ [{ initiator := initiator }]
           session := { w.session with pc := some w.pcs.length, state := .negotiating } }

/-- `session.current_session_id = sid` -/
def setSessionId (w : SessionWorld F) (sid : Json F) : SessionWorld F :=
  { w with session := { w.session with currentSessionId := sid } }

/-- `_initiate_with_contact` after the previous connection is closed. -/
def startInitiate (w : SessionWorld F) (t : Nat) (sid : Str) :
    SessionWorld F × List (SessionEvent F) :=
  let w := (w.createPc true).setSessionId (.str sid)
  ((w.wireDatachannel (w.pcs.length - 1) .connecting).suspend t (.initiate .negotiating), [])

/-- `_handle_offer` after the previous connection is closed: the members of the payload are
read one by one, and a missing one raises `KeyError`, which the caller reports
(`Node.incompleteOffer`). -/
def startOffer (w : SessionWorld F) (t : Nat) (msg : Members F) :
    SessionWorld F × List (SessionEvent F) :=
  let payload := (payloadOf msg).getD []
  let w := w.createPc false
  match Dict.get? payload Field.sessionId with
  | none => (w.finish t, [])
  | some sid =>
    let w := w.setSessionId sid
    match Dict.get? payload Field.sdp, Dict.get? payload Field.sdpType with
    | some _, some _ => (w.suspend t (.offer msg .negotiating), [.took msg sid])
    | _, _ => (w.finish t, [.took msg sid])

/-- The body of a coroutine from the moment it has the lock. -/
def enter (w : SessionWorld F) (t : Nat) (sid : Str) :
    Option (SessionWorld F × List (SessionEvent F)) :=
  let w' := { w.closeSessionPc with lock := some t }
  match w.tasks[t]? with
  | some (.initiate .lock) =>
    if w.session.connected then some (w.finish t, [])
    else if w.session.pc.isSome then some (w'.suspend t (.initiate .closing), [])
    else some (w'.startInitiate t sid)
  | some (.offer msg .lock) =>
    if w.session.pc.isSome then some (w'.suspend t (.offer msg .closing), [])
    else some (w'.startOffer t msg)
  | some (.drop .lock) =>
    if w.session.pc.isSome then some (w'.suspend t (.drop .closing), [])
    else some (w'.finish t, [])
  | _ => none

/-- The body of a coroutine after `_close_session_pc` returned. -/
def resume (w : SessionWorld F) (t : Nat) (sid : Str) :
    Option (SessionWorld F × List (SessionEvent F)) :=
  match w.tasks[t]? with
  | some (.initiate .closing) => some (w.startInitiate t sid)
  | some (.offer msg .closing) => some (w.startOffer t msg)
  | some (.drop .closing) => some (w.finish t, [])
  | _ => none

/-- `on_connectionstatechange` of connection `p` -/
def onConnectionstatechange (w : SessionWorld F) (p : Nat) (st : ConnState) : SessionWorld F :=
  let w' := { w with session := { w.session with state := .conn st } }
  if st.terminal then
    { w' with session := { w'.session with connected := false
                                           dc := none
                                           pc := if w.session.pc = some p then none
                                                 else w.session.pc } }.callClose p
  else w'

/-- The channel `d` changes its state. -/
def setReadyState (w : SessionWorld F) (d : Nat) (rs : ReadyState) : SessionWorld F :=
  { w with dcs := w.dcs.modify d fun dc => { dc with readyState := rs } }

/-- `on_close` in `_wire_datachannel` -/
def onClose (w : SessionWorld F) : SessionWorld F :=
  { w with session := { w.session with connected := false, state := .channelClosed, dc := none } }

/-! ### Steps -/

/-- What an action does; `none` when it cannot happen. -/
def step : Machine (SessionWorld F) (SessionAct F) (SessionEvent F) := fun w a =>
  match a with
  | .callInitiate => some ({ w with tasks := w.tasks ++ [.initiate .lock] }, [])
  | .callOffer msg => some ({ w with tasks := w.tasks ++ [.offer msg .lock] }, [])
  | .callDrop => some ({ w with tasks := w.tasks ++ [.drop .lock] }, [])
  | .acquire t sid => if w.lock.isSome then none else w.enter t (Str.ofText sid)
  | .closed t sid => w.resume t (Str.ofText sid)
  | .gathered t =>
    match w.tasks[t]? with
    | some (.initiate .negotiating) => some (w.suspend t (.initiate .requesting), [])
    | some (.offer _ .negotiating) => some (w.finish t, [])
    | _ => none
  | .replied t reply =>
    match w.tasks[t]? with
    | some (.initiate .requesting) => some (w.suspend t (.initiate (.applying reply)), [])
    | _ => none
  | .applied t =>
    match w.tasks[t]? with
    | some (.initiate (.applying reply)) =>
      some ({ w with session := { w.session with state := .answerApplied } }.finish t,
        [.applied w.session.currentSessionId reply])
    | _ => none
  | .raised t =>
    match w.tasks[t]? with
    | none => none
    | some .finished => none
    | some _ => some (w.finish t, [])
  | .connectionStateChange p st =>
    if p < w.pcs.length then some (w.onConnectionstatechange p st, []) else none
  | .dataChannel p rs =>
    match w.pcs[p]? with
    | some pc => if pc.initiator then none else some (w.wireDatachannel p rs, [])
    | none => none
  | .channelOpen d =>
    match w.dcs[d]? with
    | some dc =>
      if dc.readyState = .connecting then some ((w.setReadyState d .opened).markOpen, [])
      else none
    | none => none
  | .channelClose d =>
    match w.dcs[d]? with
    | some dc =>
      if dc.readyState = .closed then none
      else some ((w.setReadyState d .closed).onClose, [])
    | none => none
  | .setContact contact role =>
    some ({ w with session := { w.session with contact := contact, role := role } }, [])
  | .shutdown => some (w.closeSessionPc, [])

/-- `Session(contact=contact, role=role)` -/
def new (contact : Ref (Contact F)) (role : Role) : SessionWorld F :=
  { session := { contact := contact, role := role } }

end SessionWorld

end

end P4

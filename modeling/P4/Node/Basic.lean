/-
  `class P4Node`: the contact store, the signaling server and the signaling client.

  The state of a node is its maps and lists with the contents of `contacts.json`; an action is
  what the node does between two awaits, with the bytes, clock readings, random bytes and
  session descriptions that it gets from outside.  The events of a step record the calls that
  the results are about: messages built, checked and written, offers taken up and answers
  applied.
-/
import P4.Node.Line
import P4.Node.Message
import P4.Session.Basic

namespace P4

/-! ### The contact store -/

section

variable {F : Type} [DecidableEq F] [Float64 F]

/-- `load_json_file(path, default=[])`, from the contents of the file if it exists. -/
def loadJsonFile (file : Option Text) : Except Exc (Json F) :=
  match file with
  | none => .ok (.arr [])
  | some text =>
    match Json.loads text with
    | some v => .ok v
    | none => .error (.builtin (Str.lit "JSONDecodeError"))

/-- `[Contact.from_dict(item) for item in raw]` -/
def readContacts (file : Option Text) : Except Exc (List (Contact F)) := do
  let raw ← loadJsonFile file
  let items ← typed raw.iter
  items.mapM Contact.fromDict

/-- `{key(c): c for c in contacts}` for the peer id `key`. -/
def byPeerId {α : Type} (peerId : α → Json F) (contacts : List α) :
    Except Exc (Dict (Key F) α) := do
  let pairs ← contacts.mapM fun c => do
    let key ← typed (peerId c).key?
    pure (key, c)
  pure (Dict.ofPairs pairs)

/-- `load_contacts` -/
def loadContacts (file : Option Text) : Except Exc (Dict (Key F) (Contact F)) := do
  let contacts ← readContacts file
  byPeerId Contact.peerId contacts

/-- `"initiator" if own < peer_id else "responder"`, with the peer id as a string. -/
def roleOf (own : Str) (peerId : Json F) : Except Exc (Str × Role) :=
  match peerId with
  | .str p => .ok (p, if own.lt p then .initiator else .responder)
  | _ => .error .typeError

/-- `print(line)`, where `stdout` says which lines it can encode. -/
def printLine (stdout : Str → Bool) (line : Str) : Except Exc Unit :=
  if stdout line then .ok () else .error (.builtin (Str.lit "UnicodeEncodeError"))

/-- The payload of `_save_contacts`, as written to the file. -/
def contactsText (contacts : Dict (Key F) (Ref (Contact F))) : Except Exc Text := do
  let sorted ← sortedBy (fun c => c.val.peerId) (Dict.values contacts)
  pure (Json.dumpsIndented (.arr (sorted.map fun c => c.val.toDict)))

end

/-! ### The node -/

/-- `class P4Node`, with the contents of its `contacts.json`. -/
structure Node (F : Type) [Crates F] where
  identity : Identity F
  contacts : Dict (Key F) (Ref (Contact F)) := []
  sessions : Dict Str (SessionWorld F) := []
  replay : ReplayWindow := {}
  /-- The maintainer tasks, each by the key of its session. -/
  maintainers : List Str := []
  contactsFile : Option Text
  /-- The identity of the next object. -/
  nextOid : Nat := 0

/-- Why a message was built. -/
inductive Purpose (F : Type) where
  | offer
  /-- the answer of `_handle_offer` to the offer in the message -/
  | answer (msg : Members F)
  /-- the reply to a ping -/
  | pong (msg : Members F)
deriving DecidableEq

/-- The arguments of a call of `_build_message`, with its nonce and clock. -/
structure BuildCall (F : Type) where
  toPeerId : Json F
  payload : Members F
  random : FixedBytes 16
  nowMs : UInt64
deriving DecidableEq

/-- What a node reports. -/
inductive Event (F : Type) where
  /-- `_build_message` returned the envelope -/
  | built (why : Purpose F) (call : BuildCall F) (envelope : Json F)
  /-- the message got past `_validate_message` in `_handle_signal_conn`, at this time and with
  this contact entry for its sender -/
  | accepted (msg : Members F) (contact : Option (Ref (Contact F))) (nowMs : UInt64)
  /-- `_validate_message` raised in `_handle_signal_conn` -/
  | rejected (msg : Members F) (e : Exc)
  /-- the message got past `_validate_message` in `_initiate_with_contact` -/
  | replyAccepted (msg : Members F) (contact : Option (Ref (Contact F))) (nowMs : UInt64)
  /-- bytes were written to a connection -/
  | wrote (bytes : List UInt8)
  /-- `_handle_offer` stored the session id of an offer in the session of peer `p` -/
  | took (p : Str) (msg : Members F) (sid : Json F)
  /-- `_initiate_with_contact` for peer `p` reached the state `answer-applied` -/
  | applied (p : Str) (sid : Json F) (reply : Members F)
deriving DecidableEq

/-- A value as `json.loads` returns it. -/
def Loaded (F : Type) := { v : Json F // v.wellFormed = true }

/-- What a node can do. -/
inductive Act (F : Type) where
  /-- `_handle_signal_conn` reads a line from a connection; the second clock reading and the
  random bytes are those of a reply -/
  | inbound (stream : List UInt8) (nowMs replyMs : UInt64) (random : FixedBytes 16)
  /-- `_handle_offer` has its local description `desc` (sdp and type) and answers -/
  | answer (p : Str) (t : Nat) (desc : Text × Text) (nowMs : UInt64) (random : FixedBytes 16)
  /-- the maintainer of peer `p` calls `_initiate_with_contact` -/
  | dial (p : Str)
  /-- `_initiate_with_contact` has its local description and sends the offer; `online` says
  whether the connection is made -/
  | request (p : Str) (t : Nat) (desc : Text × Text) (nowMs : UInt64) (random : FixedBytes 16)
    (online : Bool)
  /-- `_initiate_with_contact` reads the reply to its offer -/
  | reply (p : Str) (t : Nat) (stream : List UInt8) (nowMs : UInt64)
  /-- `drop_peer` -/
  | drop (p : Str)
  /-- an exception, a timeout or a cancellation ends a coroutine -/
  | raised (p : Str) (t : Nat) (e : Exc)
  /-- a step of a session that needs nothing else of the node -/
  | session (p : Str) (act : SessionAct F)
  /-- `_add_contact_from_invite_payload`; `writeOk` says whether the file can be written -/
  | addContact (invite : Loaded F) (writeOk : Bool)

/-- The action adds a contact to a node. -/
def Act.isAdd {F : Type} : Act F → Bool
  | .addContact _ _ => true
  | _ => false

/-- What can happen to a state directory: the node acts, or its process ends and a new one is
started. -/
inductive HostAct (F : Type) where
  | node (a : Act F)
  | restart

namespace Field

/-- `"ok"` -/
def ok : Str := Str.ofText ['o', 'k']
/-- `"error"` -/
def error : Str := Str.ofText ['e', 'r', 'r', 'o', 'r']

end Field

namespace Kind

/-- `"offer"` -/
def offer : Str := Str.ofText ['o', 'f', 'f', 'e', 'r']
/-- `"answer"` -/
def answer : Str := Str.ofText ['a', 'n', 's', 'w', 'e', 'r']
/-- `"ping"` -/
def ping : Str := Str.ofText ['p', 'i', 'n', 'g']
/-- `"pong"` -/
def pong : Str := Str.ofText ['p', 'o', 'n', 'g']
/-- `"direct"` -/
def direct : Str := Str.ofText ['d', 'i', 'r', 'e', 'c', 't']
/-- `"onion"` -/
def onion : Str := Str.ofText ['o', 'n', 'i', 'o', 'n']

end Kind

/-- The steps of a session that `Act.session` may take: the other ones carry data that the
node has to check. -/
def SessionAct.isInternal {F : Type} : SessionAct F → Bool
  | .acquire _ _ => true
  | .closed _ _ => true
  | .applied _ => true
  | .connectionStateChange _ _ => true
  | .dataChannel _ _ => true
  | .channelOpen _ => true
  | .channelClose _ => true
  | .shutdown => true
  | _ => false

/-- The coroutine that goes on after it has waited for the lock or for `pc.close()`. -/
def SessionAct.continues? {F : Type} : SessionAct F → Option Nat
  | .acquire t _ => some t
  | .closed t _ => some t
  | _ => none

section

variable {F : Type} [DecidableEq F] [Float64 F] [Crates F] [PyRepr F]

/-- `msg["sender_peer_id"]` of a message that was accepted. -/
def senderOf (msg : Members F) : Str :=
  match Dict.get? msg Field.senderPeerId with
  | some (.str s) => s
  | _ => []

/-- The payload of an offer or an answer. -/
def descPayload (type : Str) (sid : Json F) (desc : Text × Text) : Members F :=
  [(Field.type, .str type), (Field.sessionId, sid), (Field.sdp, .str (Str.ofText desc.1)),
    (Field.sdpType, .str (Str.ofText desc.2))]

/-- The line of `{"ok": False, "error": str(exc)}` -/
def errorLine (F : Type) [JsonFloat F] (e : Exc) : List UInt8 :=
  writeJsonLine (F := F) [(Field.ok, .bool false), (Field.error, .str e.text)]

/-- `_write_json_line(writer, envelope)` -/
def envelopeLine (envelope : Json F) : List UInt8 :=
  match envelope with
  | .obj m => writeJsonLine m
  | _ => []

namespace Node

/-! ### Start -/

/-- `_load_contacts`: the sessions of the contacts, in order. -/
def loadSessions (own : Str) (contacts : List (Ref (Contact F))) :
    Except Exc (Dict Str (SessionWorld F)) := do
  let pairs ← contacts.mapM fun c => do
    let (p, role) ← roleOf own c.val.peerId
    pure (p, SessionWorld.new c role)
  pure (Dict.ofPairs pairs)

/-- `_start_maintainers` -/
def startMaintainers (sessions : Dict Str (SessionWorld F)) : List Str :=
  Dict.keys (sessions.filter fun ps => ps.2.session.role = .initiator)

/-- `P4Node.run` up to the main loop: `_load_contacts` and `_start_maintainers`. -/
def boot (identity : Identity F) (file : Option Text) : Except Exc (Node F) := do
  let loaded ← readContacts file
  let contacts := loaded.zipIdx.map fun ci => { oid := ci.2, val := ci.1 : Ref (Contact F) }
  let byId ← byPeerId (fun c => c.val.peerId) contacts
  let sessions ← loadSessions identity.peerId contacts
  pure { identity := identity
         contacts := byId
         sessions := sessions
         maintainers := startMaintainers sessions
         contactsFile := file
         nextOid := contacts.length }

/-! ### Adding a contact -/

/-- The end of `_add_contact_from_invite_payload`, when `contacts.json` has been written. -/
def addSession (n : Node F) (contact : Ref (Contact F)) (p : Str) (role : Role) : Node F :=
  match Dict.get? n.sessions p with
  | none =>
    { n with sessions := Dict.set n.sessions p (SessionWorld.new contact role)
             maintainers := if role = .initiator then n.maintainers ++ [p] else n.maintainers }
  | some w =>
    let session := { w.session with contact := contact, role := role }
    { n with sessions := Dict.set n.sessions p { w with session := session } }

/-- `f"{action} contact {contact.peer_id}"`, before the contact is put into the map. -/
def addedLine (n : Node F) (key : Key F) (p : Str) : Str :=
  Str.lit (if (Dict.get? n.contacts key).isNone then "Added" else "Updated") ++
    Str.lit " contact " ++ p

/-- `_add_contact_from_invite_payload`: how it ends, and the node afterwards.  `stdout` says which
lines can be printed; it is UTF-8 where nothing else is said. -/
def addContact (n : Node F) (invite : Json F) (writeOk : Bool)
    (stdout : Str → Bool := Str.isScalar) : Except Exc Unit × Node F :=
  match Contact.fromDict invite with
  | .error e => (printLine stdout (Str.lit "Invalid invite payload: " ++ e.text), n)
  | .ok c =>
    if c.peerId.eqStr n.identity.peerId then
      (printLine stdout (Str.lit "Cannot add yourself as contact"), n)
    else match c.peerId.key? with
    | none => (.error .typeError, n)
    | some key =>
      let contact : Ref (Contact F) := { oid := n.nextOid, val := c }
      let added := n.addedLine key
      let n := { n with contacts := Dict.set n.contacts key contact, nextOid := n.nextOid + 1 }
      match contactsText n.contacts with
      | .error e => (.error e, n)
      | .ok text =>
        if !writeOk then (.error (.builtin (Str.lit "OSError")), n)
        else
          let n := { n with contactsFile := some text }
          match roleOf n.identity.peerId c.peerId with
          | .error e => (.error e, n)
          | .ok (p, role) => (printLine stdout (added p), n.addSession contact p role)

/-! ### Sessions -/

/-- A session event as an event of the node. -/
def sessionEvent (p : Str) : SessionEvent F → Event F
  | .took msg sid => .took p msg sid
  | .applied sid reply => .applied p sid reply

/-- A step of the session of peer `p`. -/
def stepSession (n : Node F) (p : Str) (act : SessionAct F) : Option (Node F × List (Event F)) :=
  match Dict.get? n.sessions p with
  | none => none
  | some w =>
    match SessionWorld.step w act with
    | none => none
    | some (w', out) =>
      some ({ n with sessions := Dict.set n.sessions p w' }, out.map (sessionEvent p))

/-- The coroutine `t` of the session of peer `p`. -/
def task? (n : Node F) (p : Str) (t : Nat) : Option (SessionWorld F × Task F) :=
  match Dict.get? n.sessions p with
  | none => none
  | some w => (w.tasks[t]?).map fun task => (w, task)

/-! ### The signaling server -/

/-- `_build_message` and `_write_json_line` of a reply; an exception is reported instead. -/
def respond (n : Node F) (why : Purpose F) (call : BuildCall F) : List (Event F) :=
  match buildMessage n.identity call.toPeerId call.payload call.random call.nowMs with
  | .error e => [.wrote (errorLine F e)]
  | .ok envelope => [.built why call envelope, .wrote (envelopeLine envelope)]

/-- `_handle_signal_conn` after `_validate_message`, up to the end or to the first `await` of
`_handle_offer`. -/
def dispatch (n : Node F) (msg : Members F) (replyMs : UInt64) (random : FixedBytes 16) :
    Node F × List (Event F) :=
  let remotePeerId := senderOf msg
  match payloadOf msg with
  | none => (n, [.wrote (errorLine F (.builtin (Str.lit "AttributeError")))])
  | some payload =>
    let msgType := (Dict.get? payload Field.type).getD .null
    if msgType.eqStr Kind.offer then
      match n.stepSession remotePeerId (.callOffer msg) with
      | none => (n, [.wrote (errorLine F (.runtime (Str.lit "Unknown peer: " ++ remotePeerId)))])
      | some r => r
    else if msgType.eqStr Kind.ping then
      let sid := (Dict.get? payload Field.sessionId).getD (.str [])
      (n, n.respond (.pong msg)
        { toPeerId := .str remotePeerId
          payload := [(Field.type, .str Kind.pong), (Field.sessionId, sid)]
          random := random
          nowMs := replyMs })
    else
      (n, [.wrote (errorLine F (.runtime
        (Str.lit "Unsupported inbound message type: " ++ msgType.pyStr)))])

/-- `_handle_signal_conn` -/
def handleSignalConn (n : Node F) (stream : List UInt8) (nowMs replyMs : UInt64)
    (random : FixedBytes 16) : Node F × List (Event F) :=
  match readJsonLine (F := F) stream with
  | .error e => (n, [.wrote (errorLine F e)])
  | .ok (msg, _) =>
    match validateMessage n.contacts n.replay msg none (some (.str n.identity.peerId)) nowMs with
    | (.error e, replay) =>
      ({ n with replay := replay }, [.rejected msg e, .wrote (errorLine F e)])
    | (.ok (), replay) =>
      let (n', out) := dispatch { n with replay := replay } msg replyMs random
      (n', .accepted msg (Dict.get? n.contacts (.str (senderOf msg))) nowMs :: out)

/-- `_handle_offer` returns its answer, which is signed and written. -/
def answerOffer (n : Node F) (p : Str) (t : Nat) (desc : Text × Text) (nowMs : UInt64)
    (random : FixedBytes 16) : Option (Node F × List (Event F)) :=
  match n.task? p t with
  | some (w, .offer msg .negotiating) =>
    (n.stepSession p (.gathered t)).map fun r =>
      (r.1, r.2 ++ n.respond (.answer msg)
        { toPeerId := .str (senderOf msg)
          payload := descPayload Kind.answer w.session.currentSessionId desc
          random := random
          nowMs := nowMs })
  | _ => none

/-- The member of its payload that `_handle_offer` misses first. -/
def missingMember? (msg : Members F) : Option Str :=
  [Field.sessionId, Field.sdp, Field.sdpType].find? fun member =>
    (Dict.get? ((payloadOf msg).getD []) member).isNone

/-- What `_handle_signal_conn` writes when a step ends `_handle_offer`: the `KeyError` for a missing
member of the payload. -/
def incompleteOffer (n n' : Node F) (p : Str) (act : SessionAct F) : List (Event F) :=
  match act.continues? with
  | none => []
  | some t =>
    match n.task? p t, n'.task? p t with
    | some (_, .offer msg _), some (_, .finished) =>
      (missingMember? msg).toList.map fun member => .wrote (errorLine F (.key member))
    | _, _ => []

/-! ### The signaling client -/

/-- `_initiate_with_contact` signs its offer and `_send_signal_request` writes it. -/
def requestOffer (n : Node F) (p : Str) (t : Nat) (desc : Text × Text) (nowMs : UInt64)
    (random : FixedBytes 16) (online : Bool) : Option (Node F × List (Event F)) :=
  match n.task? p t with
  | some (w, .initiate .negotiating) =>
    let contact := w.session.contact.val
    let call : BuildCall F :=
      { toPeerId := contact.peerId
        payload := descPayload Kind.offer w.session.currentSessionId desc
        random := random
        nowMs := nowMs }
    match buildMessage n.identity call.toPeerId call.payload call.random call.nowMs with
    | .error _ => n.stepSession p (.raised t)
    | .ok envelope =>
      let transport := contact.rendezvous.transport
      if (transport.eqStr Kind.direct || transport.eqStr Kind.onion) && online then
        (n.stepSession p (.gathered t)).map fun r =>
          (r.1, .built .offer call envelope :: .wrote (envelopeLine envelope) :: r.2)
      else
        (n.stepSession p (.raised t)).map fun r => (r.1, .built .offer call envelope :: r.2)
  | _ => none

/-- The checks of `_initiate_with_contact` on a reply that was validated: its payload is an
answer with the current session id and a description. -/
def checkAnswer (sid : Json F) (reply : Members F) : Bool :=
  match payloadOf reply with
  | none => false
  | some payload =>
    (Dict.get? payload Field.type).any (·.eqStr Kind.answer) &&
      (match sid with
        | .str s => (Dict.get? payload Field.sessionId).any (·.eqStr s)
        | _ => false) &&
      (Dict.get? payload Field.sdp).isSome && (Dict.get? payload Field.sdpType).isSome

/-- `_send_signal_request` reads the reply and `_initiate_with_contact` checks it, up to
`setRemoteDescription`. -/
def receiveReply (n : Node F) (p : Str) (t : Nat) (stream : List UInt8) (nowMs : UInt64) :
    Option (Node F × List (Event F)) :=
  match n.task? p t with
  | some (w, .initiate .requesting) =>
    match readJsonLine (F := F) stream with
    | .error _ => n.stepSession p (.raised t)
    | .ok (reply, _) =>
      match Dict.get? reply Field.ok with
      | some (.bool false) => n.stepSession p (.raised t)
      | _ =>
        match validateMessage n.contacts n.replay reply (some w.session.contact.val.peerId) none
            nowMs with
        | (.error _, replay) => { n with replay := replay }.stepSession p (.raised t)
        | (.ok (), replay) =>
          let accepted : Event F :=
            .replyAccepted reply (Dict.get? n.contacts (.str (senderOf reply))) nowMs
          let act : SessionAct F :=
            if checkAnswer w.session.currentSessionId reply then .replied t reply else .raised t
          ({ n with replay := replay }.stepSession p act).map
            fun (r : Node F × List (Event F)) => (r.1, accepted :: r.2)
  | _ => none

/-! ### Steps -/

/-- What an action does; `none` when it cannot happen. -/
def step : Machine (Node F) (Act F) (Event F) := fun n a =>
  match a with
  | .inbound stream nowMs replyMs random => some (n.handleSignalConn stream nowMs replyMs random)
  | .answer p t desc nowMs random => n.answerOffer p t desc nowMs random
  | .dial p =>
    match Dict.get? n.sessions p with
    | none => none
    | some w =>
      if p ∈ n.maintainers ∧ w.session.connected = false then n.stepSession p .callInitiate
      else none
  | .request p t desc nowMs random online => n.requestOffer p t desc nowMs random online
  | .reply p t stream nowMs => n.receiveReply p t stream nowMs
  | .drop p => n.stepSession p .callDrop
  | .raised p t e =>
    match n.task? p t with
    | some (_, .offer _ _) =>
      (n.stepSession p (.raised t)).map fun r => (r.1, r.2 ++ [.wrote (errorLine F e)])
    | _ => n.stepSession p (.raised t)
  | .session p act =>
    if act.isInternal then
      (n.stepSession p act).map fun r => (r.1, r.2 ++ incompleteOffer n r.1 p act)
    else none
  | .addContact invite writeOk => some ((n.addContact invite.val writeOk).2, [])

/-- The steps of a state directory; `none` is the event of a restart, which loads the identity
and the contacts from the files and nothing else. -/
def host : Machine (Node F) (HostAct F) (Option (Event F)) := fun n a =>
  match a with
  | .node a => (step n a).map fun r => (r.1, r.2.map some)
  | .restart =>
    match boot n.identity n.contactsFile with
    | .ok n' => some (n', [none])
    | .error _ => none

end Node

end

end P4

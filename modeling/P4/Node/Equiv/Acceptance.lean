/-
  Acceptances: what a step does to the replay window.

  `_validate_message` is called at two places, for inbound messages and for replies; both
  report the message that got past it.  A step accepts at most one message, and the replay
  window changes exactly as that acceptance says (`step_acceptance`).
-/
import P4.Node.Equiv.Step
import P4.Node.Equiv.Line

namespace P4

variable {F : Type}

/-- An accepted message, with the contact entry of its sender and the time. -/
abbrev Acceptance (F : Type) := Members F × Option (Ref (Contact F)) × UInt64

/-- The message of an event that reports an acceptance. -/
def Event.acceptance? : Event F → Option (Acceptance F)
  | .accepted msg contact now => some (msg, contact, now)
  | .replyAccepted msg contact now => some (msg, contact, now)
  | _ => none

/-- `str(msg.get("nonce", ""))` -/
def nonceOf [PyRepr F] (msg : Members F) : Str :=
  ((Dict.get? msg Field.nonce).map Json.pyStr).getD []

/-- A message that was read is as `json.loads` returns it. -/
theorem readJsonLine_wellFormed [JsonFloat F] {stream rest : List UInt8} {msg : Members F}
    (h : readJsonLine stream = .ok (msg, rest)) : (Json.obj msg).wellFormed = true := by
  obtain ⟨⟨raw, rest'⟩, -, h⟩ := except_bind_ok.mp h
  dsimp only at h
  split_ifs at h
  split at h
  · cases h
  · split at h
    · cases h
    · rename_i val hval
      cases h
      exact Json.loads_wellFormed hval
    · cases h

namespace Node

section

variable [Crates F]

/-- The parts of the node that a session step leaves alone. -/
structure Frame (n n' : Node F) : Prop where
  identity : n'.identity = n.identity
  contacts : n'.contacts = n.contacts
  replay : n'.replay = n.replay
  maintainers : n'.maintainers = n.maintainers
  contactsFile : n'.contactsFile = n.contactsFile

theorem frame_refl (n : Node F) : Frame n n := ⟨rfl, rfl, rfl, rfl, rfl⟩

theorem frame_stepSession {n n' : Node F} {p : Str} {act : SessionAct F} {out : List (Event F)}
    (h : n.stepSession p act = some (n', out)) : Frame n n' := by
  obtain ⟨w, w', o, -, -, rfl, -⟩ := stepSession_eq_some.mp h
  exact ⟨rfl, rfl, rfl, rfl, rfl⟩

theorem acceptance?_stepSession {n n' : Node F} {p : Str} {act : SessionAct F}
    {out : List (Event F)} (h : n.stepSession p act = some (n', out)) :
    out.filterMap Event.acceptance? = [] := by
  obtain ⟨w, w', o, -, -, -, rfl⟩ := stepSession_eq_some.mp h
  rw [List.filterMap_eq_nil_iff]
  intro e he
  obtain ⟨se, -, rfl⟩ := List.mem_map.mp he
  cases se <;> rfl

end

variable [DecidableEq F] [Float64 F] [Crates F] [PyRepr F]

/-- The message was read from a line and verified under the key of the contact entry. -/
def Vouched (x : Acceptance F) : Prop :=
  (Json.obj x.1).wellFormed = true ∧
    ∃ contact, x.2.1 = some contact ∧ verifyMessage x.1 contact.val.publicKeyB64 x.2.2 = .ok ()

/-- The clock is within the allowed distance of the timestamp of the message. -/
def Near (now : UInt64) (msg : Members F) : Prop :=
  ∃ ts : UInt64, Dict.get? msg Field.timestampMs = some (.int ts.toNat) ∧
    now.toNat ≤ ts.toNat + maxEnvelopeSkewMs ∧ ts.toNat ≤ now.toNat + maxEnvelopeSkewMs

omit [DecidableEq F] [PyRepr F] in
/-- What was accepted was near its timestamp. -/
theorem Vouched.near (hserde : SerdeReads F) {x : Acceptance F} (h : Vouched x) :
    Near x.2.2 x.1 := by
  obtain ⟨hwf, contact, -, hver⟩ := h
  obtain ⟨env, K, canonical, sig, hv⟩ := verifyMessage_ok hver
  have henv := hserde.envelope x.1 env hwf hv.parsed
  exact ⟨env.timestampMs, henv.timestampMs, hv.fresh⟩

/-- The role in the session of a peer. -/
def roleFor (own p : Str) : Role := if own.lt p then .initiator else .responder

omit [PyRepr F] in
/-- Adding a contact changes the store, and at its end the session of the contact. -/
theorem addContact_cases (n : Node F) (invite : Json F) (writeOk : Bool) :
    ∃ contacts oid file,
      (n.addContact invite writeOk).2 =
        { n with contacts := contacts, nextOid := oid, contactsFile := file } ∨
      ∃ contact p, contact.val.peerId = .str p ∧ (n.addContact invite writeOk).2 =
        { n with contacts := contacts, nextOid := oid, contactsFile := file }.addSession contact p
          (roleFor n.identity.peerId p) := by
  unfold addContact
  dsimp only
  split
  · -- the invite is refused: no contact, the node's own, a peer id that is not hashable
    exact ⟨n.contacts, n.nextOid, n.contactsFile, Or.inl rfl⟩
  · rename_i c _
    split
    · exact ⟨n.contacts, n.nextOid, n.contactsFile, Or.inl rfl⟩
    · split
      · exact ⟨n.contacts, n.nextOid, n.contactsFile, Or.inl rfl⟩
      · split
        · -- the map is changed; sorting or writing fails
          exact ⟨_, _, n.contactsFile, Or.inl rfl⟩
        · split
          · exact ⟨_, _, n.contactsFile, Or.inl rfl⟩
          · split
            · -- the file is changed; the role comparison fails
              exact ⟨_, _, _, Or.inl rfl⟩
            · rename_i p role hrole
              unfold roleOf at hrole
              split at hrole
              · rename_i q hq
                cases hrole
                exact ⟨_, _, _, Or.inr ⟨_, p, hq, rfl⟩⟩
              · cases hrole

omit [PyRepr F] in
/-- Adding a contact concerns neither the identity nor the replay window. -/
theorem addContact_frame (n : Node F) (invite : Json F) (writeOk : Bool) :
    (n.addContact invite writeOk).2.identity = n.identity ∧
      (n.addContact invite writeOk).2.replay = n.replay := by
  obtain ⟨contacts, oid, file, h | ⟨contact, p, -, h⟩⟩ := addContact_cases n invite writeOk
  · rw [h]
    exact ⟨rfl, rfl⟩
  · rw [h]
    unfold addSession
    split <;> exact ⟨rfl, rfl⟩

omit [DecidableEq F] [PyRepr F] in
/-- A reply is an error line, or the envelope that was built. -/
theorem respond_cases (n : Node F) (why : Purpose F) (call : BuildCall F) :
    (∃ e, n.respond why call = [.wrote (errorLine F e)]) ∨
      ∃ envelope, buildMessage n.identity call.toPeerId call.payload call.random call.nowMs =
          .ok envelope ∧
        n.respond why call = [.built why call envelope, .wrote (envelopeLine envelope)] := by
  unfold respond
  split
  · exact Or.inl ⟨_, rfl⟩
  · rename_i envelope henv
    exact Or.inr ⟨envelope, henv, rfl⟩

omit [DecidableEq F] [PyRepr F] in
theorem acceptance?_respond (n : Node F) (why : Purpose F) (call : BuildCall F) :
    (n.respond why call).filterMap Event.acceptance? = [] := by
  rcases respond_cases n why call with ⟨e, h⟩ | ⟨envelope, -, h⟩ <;> rw [h] <;> rfl

omit [DecidableEq F] in
/-- What becomes of a message that was accepted: an error, a coroutine for the offer, or a
pong. -/
theorem dispatch_cases {n n' : Node F} {msg : Members F} {replyMs : UInt64}
    {random : FixedBytes 16} {out : List (Event F)}
    (h : n.dispatch msg replyMs random = (n', out)) :
    (n' = n ∧ ∃ e, out = [.wrote (errorLine F e)]) ∨
    (∃ payload, payloadOf msg = some payload ∧
      Dict.get? payload Field.type = some (.str Kind.offer) ∧
      n.stepSession (senderOf msg) (.callOffer msg) = some (n', out)) ∨
    (∃ payload, payloadOf msg = some payload ∧
      Dict.get? payload Field.type = some (.str Kind.ping) ∧ n' = n ∧
      out = n.respond (.pong msg)
        { toPeerId := .str (senderOf msg)
          payload := [(Field.type, .str Kind.pong),
            (Field.sessionId, (Dict.get? payload Field.sessionId).getD (.str []))]
          random := random
          nowMs := replyMs }) := by
  -- `payload.get("type") == k` holds of nothing but that string
  have htype : ∀ (v : Option (Json F)) (k : Str), (v.getD .null).eqStr k = true →
      v = some (.str k) := by
    intro v k hv
    cases v with
    | none => cases hv
    | some v =>
      cases v <;> try cases hv
      exact congrArg (fun s => some (Json.str s)) (of_decide_eq_true hv)
  unfold dispatch at h
  dsimp only at h
  split at h
  · cases h
    exact Or.inl ⟨rfl, _, rfl⟩
  · rename_i payload hpay
    split at h
    · rename_i hoffer
      split at h
      · cases h
        exact Or.inl ⟨rfl, _, rfl⟩
      · rename_i r hr
        subst h
        exact Or.inr (Or.inl ⟨payload, hpay, htype _ _ hoffer, hr⟩)
    · split at h
      · rename_i hping
        cases h
        exact Or.inr (Or.inr ⟨payload, hpay, htype _ _ hping, rfl, rfl⟩)
      · cases h
        exact Or.inl ⟨rfl, _, rfl⟩

omit [DecidableEq F] in
theorem frame_dispatch {n n' : Node F} {msg : Members F} {replyMs : UInt64}
    {random : FixedBytes 16} {out : List (Event F)}
    (h : n.dispatch msg replyMs random = (n', out)) :
    Frame n n' ∧ out.filterMap Event.acceptance? = [] := by
  rcases dispatch_cases h with ⟨rfl, e, rfl⟩ | ⟨payload, -, -, hs⟩ | ⟨payload, -, -, rfl, rfl⟩
  · exact ⟨frame_refl _, rfl⟩
  · exact ⟨frame_stepSession hs, acceptance?_stepSession hs⟩
  · exact ⟨frame_refl _, acceptance?_respond _ _ _⟩

/-- A step accepts no message and leaves the replay window alone, or accepts one message and
enters its nonce in the window of its sender. -/
theorem step_acceptance {n n' : Node F} {a : Act F} {out : List (Event F)}
    (h : Step n a n' out) :
    (n'.replay = n.replay ∧ out.filterMap Event.acceptance? = []) ∨
    ∃ stream rest msg ef et now sender recipient nonce contact,
      readJsonLine stream = .ok (msg, rest) ∧
      Accepts n msg ef et now sender recipient nonce contact ∧
      n'.replay = (n.replay.seen sender nonce).2 ∧
      out.filterMap Event.acceptance? = [(msg, some contact, now)] := by
  cases h with
  | unread => exact Or.inl ⟨rfl, rfl⟩
  | rejected => exact Or.inl ⟨rfl, rfl⟩
  | accepted stream now replyMs random msg rest sender recipient nonce contact n' out
      hread hacc hd =>
    obtain ⟨hf, hout⟩ := frame_dispatch hd
    refine Or.inr ⟨stream, rest, msg, _, _, now, sender, recipient, nonce, contact, hread, hacc,
      hf.replay, ?_⟩
    rw [List.filterMap_cons, hout]
    rfl
  | answered p t desc now random w msg n' out ht hs =>
    -- what a node writes is no acceptance
    refine Or.inl ⟨(frame_stepSession hs).replay, ?_⟩
    rw [List.filterMap_append, acceptance?_stepSession hs, acceptance?_respond]
    rfl
  | dialed p w n' out hw hm hs =>
    exact Or.inl ⟨(frame_stepSession hs).replay, acceptance?_stepSession hs⟩
  | requested p t desc now random online w envelope n' out act sent ht henv hact hs =>
    refine Or.inl ⟨(frame_stepSession hs).replay, ?_⟩
    rw [List.cons_append, List.filterMap_cons, List.filterMap_append, acceptance?_stepSession hs]
    rcases hact with ⟨-, rfl⟩ | ⟨-, rfl⟩ <;> rfl
  | replied p t stream now w reply rest sender recipient nonce contact n' out act ht hread hacc
      hact hs =>
    refine Or.inr ⟨stream, rest, reply, _, _, now, sender, recipient, nonce, contact, hread, hacc,
      (frame_stepSession hs).replay, ?_⟩
    rw [List.filterMap_cons, acceptance?_stepSession hs]
    rfl
  | session a p act n' out rest hin hact hrest hs =>
    refine Or.inl ⟨(frame_stepSession hs).replay, ?_⟩
    rw [List.filterMap_append, acceptance?_stepSession hs]
    rcases hrest with rfl | ⟨e, rfl⟩ <;> rfl
  | addContact invite writeOk =>
    exact Or.inl ⟨(addContact_frame n invite.val writeOk).2, rfl⟩

/-- The line that an action delivers. -/
def stream? : Act F → Option (List UInt8)
  | .inbound stream _ _ _ => some stream
  | .reply _ _ stream _ => some stream
  | _ => none

/-- A message that is accepted was read from the line that was delivered; a reply from the line
of a reply. -/
theorem acceptance_origin {n n' : Node F} {a : Act F} {out : List (Event F)}
    (h : Step n a n' out) {e : Event F} (he : e ∈ out) {x : Acceptance F}
    (hx : e.acceptance? = some x) :
    ∃ stream rest r, stream? a = some stream ∧ readJsonLine stream = .ok (x.1, rest) ∧
      Dict.get? x.1 Field.recipientPeerId = some (.str r) ∧
      ((∃ msg contact now, e = .replyAccepted msg contact now) →
        ∃ p t now, a = .reply p t stream now) := by
  -- the rest of a step accepts nothing
  have hnot : ∀ {l : List (Event F)}, l.filterMap Event.acceptance? = [] → e ∉ l := by
    intro l hl he
    have hnone := List.filterMap_eq_nil_iff.mp hl e he
    rw [hx] at hnone
    cases hnone
  have hwrote : ∀ bytes, e ≠ .wrote bytes := by
    rintro bytes rfl
    cases hx
  cases h with
  | unread stream now replyMs random err =>
    exact absurd (List.mem_singleton.mp he) (hwrote _)
  | rejected stream now replyMs random msg rest err =>
    exact absurd he (hnot rfl)
  | accepted stream now replyMs random msg rest sender recipient nonce contact n' out hread hacc
      hd =>
    rcases List.mem_cons.mp he with rfl | he
    · cases hx
      refine ⟨stream, rest, recipient, rfl, hread, hacc.checked.recipientIs, ?_⟩
      rintro ⟨_, _, _, heq⟩
      cases heq
    · exact absurd he (hnot (frame_dispatch hd).2)
  | answered p t desc now random w msg n' out ht hs =>
    rcases List.mem_append.mp he with he | he
    · exact absurd he (hnot (acceptance?_stepSession hs))
    · exact absurd he (hnot (acceptance?_respond _ _ _))
  | dialed p w n' out hw hm hs => exact absurd he (hnot (acceptance?_stepSession hs))
  | requested p t desc now random online w envelope n' out act sent ht henv hact hs =>
    rcases List.mem_append.mp he with he | he
    · rcases List.mem_cons.mp he with rfl | he
      · cases hx
      · rcases hact with ⟨-, rfl⟩ | ⟨-, rfl⟩
        · exact absurd (List.mem_singleton.mp he) (hwrote _)
        · cases he
    · exact absurd he (hnot (acceptance?_stepSession hs))
  | replied p t stream now w reply rest sender recipient nonce contact n' out act ht hread hacc
      hact hs =>
    rcases List.mem_cons.mp he with rfl | he
    · cases hx
      exact ⟨stream, rest, recipient, rfl, hread, hacc.checked.recipientIs,
        fun _ => ⟨p, t, now, rfl⟩⟩
    · exact absurd he (hnot (acceptance?_stepSession hs))
  | session a p act n' out rest hin hact hrest hs =>
    rcases List.mem_append.mp he with he | he
    · exact absurd he (hnot (acceptance?_stepSession hs))
    · rcases hrest with rfl | ⟨err, rfl⟩
      · cases he
      · exact absurd (List.mem_singleton.mp he) (hwrote _)
  | addContact invite writeOk => cases he

end Node

end P4

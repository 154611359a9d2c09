/-
  What the log of a node says about its state, and every event about the events before it.

  `EventSound` is what an event rests on: an answer on an offer that was taken up, an offer that
  is taken up on a message that was accepted, an answer that is applied on an offer of its own
  and an accepted reply.  `Tended` is what is known of a session: what each of its coroutines
  has done so far, and that a session in which the node does not dial has the session id of the
  offer it took up last.  Both hold in every run from a start (`history_run`).
-/
import P4.Node.Equiv.Store
import P4.Session.Equiv.Progress

namespace P4

variable {F : Type}

/-- The past of an event in the log of a state directory. -/
abbrev Past (F : Type) := List (Option (Event F))

/-! ### Events -/

/-- The message is an offer of peer `p` that was accepted. -/
structure Received (p : Str) (msg : Members F) (past : Past F) : Prop where
  accepted : ∃ contact now, some (.accepted msg contact now) ∈ past
  wellFormed : (Json.obj msg).wellFormed = true
  sender : senderOf msg = p
  type : ∃ payload, payloadOf msg = some payload ∧
    Dict.get? payload Field.type = some (.str Kind.offer)

/-- An offer with this session id was built for peer `p`. -/
structure Offered (p : Str) (sid : Json F) (past : Past F) : Prop where
  text : ∃ s, sid = .str s
  built : ∃ call envelope desc, some (.built .offer call envelope) ∈ past ∧
    call.toPeerId = .str p ∧ call.payload = descPayload Kind.offer sid desc

/-- The reply of peer `p` was accepted, and is the answer to the offer with this session id. -/
structure Replied (p : Str) (sid : Json F) (reply : Members F) (past : Past F) : Prop where
  accepted : ∃ contact now, some (.replyAccepted reply contact now) ∈ past
  sender : senderOf reply = p
  checked : Node.checkAnswer sid reply = true

/-- A message is built for one of three purposes. -/
def Purposeful (past : Past F) (call : BuildCall F) : Purpose F → Prop
  | .offer => ∃ sid desc, call.payload = descPayload Kind.offer sid desc
  | .answer msg => call.toPeerId = .str (senderOf msg) ∧ ∃ sid desc,
    call.payload = descPayload Kind.answer sid desc ∧ some (.took (senderOf msg) msg sid) ∈ past
  | .pong _ => ∃ sid, call.payload = [(Field.type, .str Kind.pong), (Field.sessionId, sid)]

section

variable [Float64 F] [Crates F]

/-- What an event of a node with this identity rests on. -/
def EventSound (identity : Identity F) (past : Past F) : Option (Event F) → Prop
  | none => True
  | some (.built why call envelope) =>
    buildMessage identity call.toPeerId call.payload call.random call.nowMs = .ok envelope ∧
      (Json.obj call.payload).wellFormed = true ∧ Purposeful past call why
  | some (.accepted msg contact now) => Node.Vouched (msg, contact, now) ∧
    Dict.get? msg Field.recipientPeerId = some (.str identity.peerId)
  | some (.rejected _ _) => True
  | some (.replyAccepted msg contact now) => Node.Vouched (msg, contact, now)
  | some (.wrote bytes) => (∃ e, bytes = errorLine F e) ∨
    ∃ why call envelope, some (.built why call envelope) ∈ past ∧ bytes = envelopeLine envelope
  | some (.took p msg sid) => Received p msg past ∧
    Dict.get? ((payloadOf msg).getD []) Field.sessionId = some sid
  | some (.applied p sid reply) =>
    identity.peerId.lt p = true ∧ Offered p sid past ∧ Replied p sid reply past

/-- Every event rests on the events before it. -/
def LogSound (identity : Identity F) : Past F → Prop := Along (EventSound identity)

end

/-! ### Sessions -/

/-- The session id of the offer of peer `p` that was taken up last, since the last start. -/
def lastTook (p : Str) : Past F → Option (Json F)
  | [] => none
  | none :: _ => none
  | some (.took q _ sid) :: past => if q = p then some sid else lastTook p past
  | some _ :: past => lastTook p past

/-- What a coroutine of the session of peer `p` has done so far. -/
def TaskSound (own p : Str) (past : Past F) (sid : Json F) : Task F → Prop
  | .initiate .lock => own.lt p = true
  | .initiate .closing => own.lt p = true
  | .initiate .negotiating => own.lt p = true ∧ ∃ s, sid = .str s
  | .initiate .requesting => own.lt p = true ∧ Offered p sid past
  | .initiate (.applying reply) =>
    own.lt p = true ∧ Offered p sid past ∧ Replied p sid reply past
  | .offer msg phase => Received p msg past ∧
    (phase = .negotiating → some (.took p msg sid) ∈ past)
  | .drop _ => True
  | .finished => True

/-- What is known of the session of peer `p`. -/
structure Tended (own p : Str) (past : Past F) (w : SessionWorld F) : Prop where
  contact : w.session.contact.val.peerId = .str p
  locked : w.Locked
  wellFormed : w.session.currentSessionId.wellFormed = true
  tasks : ∀ (t : Nat) (task : Task F), w.tasks[t]? = some task →
    TaskSound own p past w.session.currentSessionId task
  latest : own.lt p = false → w.session.currentSessionId = (lastTook p past).getD (.str [])

section

variable {own p : Str} {past past' : Past F} {sid : Json F}

theorem Received.mono {msg : Members F} (h : Received p msg past) (hsub : past ⊆ past') :
    Received p msg past' := by
  obtain ⟨contact, now, hacc⟩ := h.accepted
  exact ⟨⟨contact, now, hsub hacc⟩, h.wellFormed, h.sender, h.type⟩

theorem Offered.mono (h : Offered p sid past) (hsub : past ⊆ past') : Offered p sid past' := by
  obtain ⟨call, envelope, desc, hbuilt, hto, hpay⟩ := h.built
  exact ⟨h.text, call, envelope, desc, hsub hbuilt, hto, hpay⟩

theorem Replied.mono {reply : Members F} (h : Replied p sid reply past) (hsub : past ⊆ past') :
    Replied p sid reply past' := by
  obtain ⟨contact, now, hacc⟩ := h.accepted
  exact ⟨⟨contact, now, hsub hacc⟩, h.sender, h.checked⟩

/-- A coroutine stays justified while the past grows. -/
theorem TaskSound.mono {task : Task F} (h : TaskSound own p past sid task)
    (hsub : past ⊆ past') : TaskSound own p past' sid task := by
  cases task with
  | initiate phase =>
    cases phase with
    | lock => exact h
    | closing => exact h
    | negotiating => exact h
    | requesting => exact ⟨h.1, h.2.mono hsub⟩
    | applying reply => exact ⟨h.1, h.2.1.mono hsub, h.2.2.mono hsub⟩
  | offer msg phase => exact ⟨h.1.mono hsub, fun hp => hsub (h.2 hp)⟩
  | drop phase => trivial
  | finished => trivial

/-- A coroutine that waits for the lock does not depend on the session id. -/
theorem TaskSound.of_waiting {task : Task F} (h : TaskSound own p past sid task)
    (hw : task.holding = false) (sid' : Json F) : TaskSound own p past sid' task := by
  cases task with
  | initiate phase =>
    cases phase with
    | lock => exact h
    | _ => cases hw
  | offer msg phase =>
    cases phase with
    | lock => exact ⟨h.1, fun hp => nomatch hp⟩
    | _ => cases hw
  | drop phase => trivial
  | finished => trivial

/-- An initiating coroutine belongs to a session in which the node dials. -/
theorem TaskSound.dials {phase : InitiatePhase F} (h : TaskSound own p past sid (.initiate phase)) :
    own.lt p = true := by
  cases phase with
  | lock => exact h
  | closing => exact h
  | negotiating => exact h.1
  | requesting => exact h.1
  | applying reply => exact h.1

/-- One coroutine changes and the others are as before. -/
theorem taskSound_set {tasks : List (Task F)} {t : Nat} {task : Task F}
    (h : ∀ (u : Nat) (task' : Task F), tasks[u]? = some task' → u ≠ t →
      TaskSound own p past sid task')
    (ht : TaskSound own p past sid task) (u : Nat) (task' : Task F)
    (hu : (tasks.set t task)[u]? = some task') : TaskSound own p past sid task' := by
  rw [List.getElem?_set] at hu
  split_ifs at hu with h₁ h₂
  · cases hu
    exact ht
  · exact h u task' hu (Ne.symm h₁)

/-- The coroutines other than `t` wait for the lock, so they do not depend on the session id. -/
theorem Tended.others {w : SessionWorld F} (h : Tended own p past w) {t : Nat} (ha : w.Alone t)
    (sid' : Json F) (u : Nat) (task : Task F) (hu : w.tasks[u]? = some task) (hne : u ≠ t) :
    TaskSound own p past sid' task := by
  refine (h.tasks u task hu).of_waiting ?_ sid'
  by_contra hh
  exact hne (ha u task hu (by simpa using hh))

/-- The payload of a message that was read. -/
theorem wellFormed_payloadOf {msg payload : Members F} (h : (Json.obj msg).wellFormed = true)
    (hpay : payloadOf msg = some payload) : (Json.obj payload).wellFormed = true := by
  unfold payloadOf at hpay
  split at hpay
  · cases hpay
    rfl
  · rename_i m hm
    cases hpay
    exact Json.wellFormed_of_get? h hm
  · cases hpay

/-- An offer names its session in the payload that was read. -/
theorem Received.wellFormed_sessionId {msg : Members F} (h : Received p msg past)
    (hsid : Dict.get? ((payloadOf msg).getD []) Field.sessionId = some sid) :
    sid.wellFormed = true := by
  obtain ⟨payload, hpay, -⟩ := h.type
  rw [hpay, Option.getD_some] at hsid
  exact Json.wellFormed_of_get? (wellFormed_payloadOf h.wellFormed hpay) hsid

theorem wellFormed_descPayload {type : Str} (htype : type.isScalar = true)
    (hsid : sid.wellFormed = true) (desc : Text × Text) :
    (Json.obj (descPayload type sid desc)).wellFormed = true := by
  have hstr : ∀ {s : Str}, s.isScalar = true → (Json.str s : Json F).wellFormed = true :=
    fun hs => Json.normal_of_isScalar hs
  have hkeys : [Field.type, Field.sessionId, Field.sdp, Field.sdpType].Nodup ∧
      ∀ k ∈ [Field.type, Field.sessionId, Field.sdp, Field.sdpType], Json.normal k = true := by
    constructor <;> decide
  refine Json.wellFormed_obj.mpr ⟨hkeys.1, hkeys.2, fun kv hkv => ?_⟩
  simp only [descPayload, List.mem_cons, List.not_mem_nil, or_false] at hkv
  rcases hkv with rfl | rfl | rfl | rfl
  · exact hstr htype
  · exact hsid
  · exact hstr (Str.isScalar_ofText _)
  · exact hstr (Str.isScalar_ofText _)

theorem wellFormed_pong (hsid : sid.wellFormed = true) :
    (Json.obj [(Field.type, .str Kind.pong), (Field.sessionId, sid)]).wellFormed = true := by
  have hkeys : [Field.type, Field.sessionId].Nodup ∧
      ∀ k ∈ [Field.type, Field.sessionId], Json.normal k = true := by
    constructor <;> decide
  refine Json.wellFormed_obj.mpr ⟨hkeys.1, hkeys.2, fun kv hkv => ?_⟩
  simp only [List.mem_cons, List.not_mem_nil, or_false] at hkv
  rcases hkv with rfl | rfl
  · exact Json.normal_of_isScalar (Str.isScalar_ofText _)
  · exact hsid

end

section

variable [Crates F] {p : Str} {past : Past F}

/-- The log after the events of a step of the session of peer `p`. -/
def afterSession (p : Str) (out : List (SessionEvent F)) (past : Past F) : Past F :=
  ((out.map (Node.sessionEvent p)).map some).reverse ++ past

/-- What is known of a session after one of its steps, and what the events of the step rest
on. -/
theorem Tended.step [Float64 F] {identity : Identity F} {w w' : SessionWorld F}
    {a : SessionAct F} {out : List (SessionEvent F)} (h : Tended identity.peerId p past w)
    (hs : SessionWorld.step w a = some (w', out))
    (ha : ∀ contact role, a ≠ .setContact contact role)
    (hcall : ∀ task, a.task? = some task →
      TaskSound identity.peerId p past w.session.currentSessionId task)
    (hmove : ∀ t task task', w.tasks[t]? = some task → SessionWorld.Moves t a task task' →
      TaskSound identity.peerId p past w.session.currentSessionId task') :
    Tended identity.peerId p (afterSession p out past) w' ∧
      (LogSound identity past → LogSound identity (afterSession p out past)) := by
  have hcontact : w'.session.contact.val.peerId = .str p := by
    have howner : w'.session.contact = w.session.contact :=
      congrArg Prod.fst (SessionWorld.owner_step ha hs)
    rw [howner]
    exact h.contact
  have hlocked := SessionWorld.locked_step h.locked hs
  have hall : ∀ (t u : Nat) (task : Task F), w.tasks[u]? = some task → u ≠ t →
      TaskSound identity.peerId p past w.session.currentSessionId task :=
    fun _ u task hu _ => h.tasks u task hu
  cases SessionWorld.progress_step h.locked hs with
  | same htasks hid =>
    -- neither the coroutines nor the session id have changed
    refine ⟨⟨hcontact, hlocked, ?_, ?_, ?_⟩, id⟩
    · rw [hid]
      exact h.wellFormed
    · rw [htasks, hid]
      exact h.tasks
    · rw [hid]
      exact h.latest
  | called task htask htasks hid =>
    -- a new coroutine stands at the end of the list
    refine ⟨⟨hcontact, hlocked, ?_, ?_, ?_⟩, id⟩
    · rw [hid]
      exact h.wellFormed
    · rw [htasks, hid]
      intro t task' ht
      rw [List.getElem?_append] at ht
      split_ifs at ht
      · exact h.tasks t task' ht
      · rw [List.mem_singleton.mp (List.mem_of_getElem? ht)]
        exact hcall task htask
    · rw [hid]
      exact h.latest
  | moved t task task' ht hm htasks hid =>
    refine ⟨⟨hcontact, hlocked, ?_, ?_, ?_⟩, id⟩
    · rw [hid]
      exact h.wellFormed
    · rw [htasks, hid]
      exact taskSound_set (hall t) (hmove t task task' ht hm)
    · rw [hid]
      exact h.latest
  | ended t htasks hid =>
    refine ⟨⟨hcontact, hlocked, ?_, ?_, ?_⟩, id⟩
    · rw [hid]
      exact h.wellFormed
    · rw [htasks, hid]
      exact taskSound_set (hall t) trivial
    · rw [hid]
      exact h.latest
  | started t phase sid ht halone htasks hid =>
    -- an initiator has drawn a session id; the other coroutines wait for the lock
    have hdials := (h.tasks t _ ht).dials
    refine ⟨⟨hcontact, hlocked, ?_, ?_, ?_⟩, id⟩
    · rw [hid]
      exact Json.normal_of_isScalar (Str.isScalar_ofText sid)
    · rw [htasks, hid]
      exact taskSound_set (h.others halone _) ⟨hdials, _, rfl⟩
    · -- only the side that does not dial has a latest offer
      intro hlt
      rw [hdials] at hlt
      cases hlt
  | took t msg phase sid task ht halone hsid htask htasks hid =>
    -- an offer was taken up: its session id is now the session's
    have hrec : Received p msg past := (h.tasks t _ ht).1
    have hsub : past ⊆ some (.took p msg sid) :: past := List.subset_cons_self ..
    refine ⟨⟨hcontact, hlocked, ?_, ?_, ?_⟩, fun hlog => ⟨⟨hrec, hsid⟩, hlog⟩⟩
    · rw [hid]
      exact hrec.wellFormed_sessionId hsid
    · rw [htasks, hid]
      refine taskSound_set (fun u task' hu hne => (h.others halone _ u task' hu hne).mono hsub) ?_
      rcases htask with rfl | rfl
      · exact ⟨hrec.mono hsub, fun _ => List.mem_cons_self ..⟩
      · trivial
    · intro _
      rw [hid]
      show sid = (if p = p then some sid else _).getD _
      rw [if_pos rfl]
      rfl
  | applied t reply ht htasks hid =>
    -- the answer was applied, which the log records
    have hsound := h.tasks t _ ht
    have hsub : past ⊆ some (.applied p w.session.currentSessionId reply) :: past :=
      List.subset_cons_self ..
    refine ⟨⟨hcontact, hlocked, ?_, ?_, ?_⟩, fun hlog => ⟨hsound, hlog⟩⟩
    · rw [hid]
      exact h.wellFormed
    · rw [htasks, hid]
      exact taskSound_set (fun u task' hu hne => (hall t u task' hu hne).mono hsub) trivial
    · rw [hid]
      exact h.latest

end

namespace Node

variable [DecidableEq F] [Float64 F] [Crates F] [PyRepr F]

/-! ### Nodes -/

/-- What the log says about a node. -/
structure History (identity : Identity F) (n : Node F) (past : Past F) : Prop where
  identityIs : n.identity = identity
  log : LogSound identity past
  sessions : ∀ p w, Dict.get? n.sessions p = some w → Tended identity.peerId p past w
  absent : ∀ p, Dict.get? n.sessions p = none → lastTook p past = none
  maintainers : ∀ p ∈ n.maintainers, identity.peerId.lt p = true

variable {identity : Identity F} {n n' : Node F} {past : Past F}

/-- Events that take up no offer. -/
def isTook : Event F → Bool
  | .took _ _ _ => true
  | _ => false

omit [DecidableEq F] [Float64 F] [Crates F] [PyRepr F] in
theorem lastTook_of_ne {e : Event F} (he : isTook e = false) (p : Str) (past : Past F) :
    lastTook p (some e :: past) = lastTook p past := by
  cases e <;> first | rfl | cases he

omit [DecidableEq F] [PyRepr F] in
/-- An event is added that changes nothing. -/
theorem History.note {e : Event F} (h : History identity n past)
    (hsound : EventSound identity past (some e)) (he : isTook e = false) :
    History identity n (some e :: past) := by
  have hsub : past ⊆ some e :: past := List.subset_cons_self ..
  refine ⟨h.identityIs, ⟨hsound, h.log⟩, ?_, ?_, h.maintainers⟩
  · intro p w hw
    have ht := h.sessions p w hw
    refine ⟨ht.contact, ht.locked, ht.wellFormed, ?_, ?_⟩
    · exact fun t task hu => (ht.tasks t task hu).mono hsub
    · rw [lastTook_of_ne he]
      exact ht.latest
  · intro p hp
    rw [lastTook_of_ne he]
    exact h.absent p hp

omit [DecidableEq F] [PyRepr F] in
/-- A step of the session of peer `p`. -/
theorem History.stepSession {p : Str} {a : SessionAct F} {out : List (Event F)}
    (h : History identity n past) (hs : n.stepSession p a = some (n', out))
    (ha : ∀ contact role, a ≠ .setContact contact role)
    (hcall : ∀ w task, Dict.get? n.sessions p = some w → a.task? = some task →
      TaskSound identity.peerId p past w.session.currentSessionId task)
    (hmove : ∀ w t task task', Dict.get? n.sessions p = some w → w.tasks[t]? = some task →
      SessionWorld.Moves t a task task' →
      TaskSound identity.peerId p past w.session.currentSessionId task') :
    History identity n' ((out.map some).reverse ++ past) := by
  obtain ⟨w, w', o, hw, hstep, rfl, rfl⟩ := stepSession_eq_some.mp hs
  obtain ⟨htended, hlog⟩ := (h.sessions p w hw).step hstep ha
    (fun task => hcall w task hw) (fun t task task' => hmove w t task task' hw)
  have hsub : past ⊆ afterSession p o past := List.subset_append_right ..
  -- the events of the step are about peer `p`
  have hother : ∀ q, q ≠ p → lastTook q (afterSession p o past) = lastTook q past := by
    intro q hq
    cases SessionWorld.progress_step (h.sessions p w hw).locked hstep with
    | took t msg phase sid task =>
      show (if p = q then some sid else lastTook q past) = _
      rw [if_neg (Ne.symm hq)]
    | _ => rfl
  refine ⟨h.identityIs, hlog h.log, ?_, ?_, h.maintainers⟩
  · intro q v hv
    rw [Dict.get?_set] at hv
    split_ifs at hv with hq
    · cases hv
      rw [hq]
      exact htended
    · have ht := h.sessions q v hv
      refine ⟨ht.contact, ht.locked, ht.wellFormed, ?_, ?_⟩
      · exact fun t task hu => (ht.tasks t task hu).mono hsub
      · intro hlt
        have hlatest := ht.latest hlt
        rw [← hother q hq] at hlatest
        exact hlatest
  · intro q hq
    rw [Dict.get?_set] at hq
    split_ifs at hq with hqp
    exact (hother q hqp).trans (h.absent q hq)

omit [DecidableEq F] [PyRepr F] in
/-- A message is built and written, or an error is reported. -/
theorem History.respond {why : Purpose F} {call : BuildCall F} (h : History identity n past)
    (hpay : (Json.obj call.payload).wellFormed = true) (hwhy : Purposeful past call why) :
    History identity n (((n.respond why call).map some).reverse ++ past) := by
  rcases respond_cases n why call with ⟨e, hout⟩ | ⟨envelope, hbuild, hout⟩
  · rw [hout]
    exact h.note (Or.inl ⟨e, rfl⟩) rfl
  · rw [hout]
    rw [h.identityIs] at hbuild
    have hbuilt : History identity n (some (.built why call envelope) :: past) :=
      h.note ⟨hbuild, hpay, hwhy⟩ rfl
    exact hbuilt.note (Or.inr ⟨why, call, envelope, List.mem_cons_self .., rfl⟩) rfl

omit [DecidableEq F] in
/-- What becomes of a message that was accepted. -/
theorem History.dispatch {msg : Members F} {replyMs : UInt64} {random : FixedBytes 16}
    {out : List (Event F)} (h : History identity n past)
    (hmsg : (Json.obj msg).wellFormed = true)
    (hacc : ∃ contact now, some (.accepted msg contact now) ∈ past)
    (hd : n.dispatch msg replyMs random = (n', out)) :
    History identity n' ((out.map some).reverse ++ past) := by
  rcases dispatch_cases hd with
    ⟨rfl, e, rfl⟩ | ⟨payload, hpay, htype, hs⟩ | ⟨payload, hpay, htype, rfl, rfl⟩
  · exact h.note (Or.inl ⟨e, rfl⟩) rfl
  · refine h.stepSession hs (fun _ _ hc => nomatch hc) ?_ ?_
    · intro w task _ htask
      cases htask
      exact ⟨⟨hacc, hmsg, rfl, payload, hpay, htype⟩, fun hp => nomatch hp⟩
    · intro w t task task' _ _ hm
      cases hm
  · refine h.respond (wellFormed_pong ?_) ⟨_, rfl⟩
    cases hsid : Dict.get? payload Field.sessionId with
    | none => rfl
    | some sid => exact Json.wellFormed_of_get? (wellFormed_payloadOf hmsg hpay) hsid

omit [DecidableEq F] [Crates F] [PyRepr F] in
/-- The sender that was expected is the one in the message. -/
theorem eq_of_expected {p sender : Str} (hp : p ≠ [])
    (h : unexpected (some (.str p : Json F)) sender = false) : sender = p := by
  have htruthy : (Json.str p : Json F).truthy = true := by
    show (!p.isEmpty) = true
    rw [List.isEmpty_eq_false_iff.mpr hp]
    rfl
  rw [unexpected, htruthy, Bool.true_and, Bool.not_eq_false'] at h
  exact (of_decide_eq_true h).symm

omit [DecidableEq F] [Float64 F] [Crates F] [PyRepr F] in
theorem ne_nil_of_lt {own p : Str} (h : own.lt p = true) : p ≠ [] := by
  rintro rfl
  rw [Str.lt] at h
  cases h

omit [DecidableEq F] [Float64 F] [PyRepr F] in
theorem peerId_ne_nil (identity : Identity F) : identity.peerId ≠ [] := by
  intro hnil
  have hlen := identity.length_peerId
  rw [hnil] at hlen
  cases hlen

/-- A message is accepted by the signaling server. -/
theorem History.accepted {msg : Members F} {stream rest : List UInt8} {now : UInt64}
    {sender recipient nonce : Str} {contact : Ref (Contact F)} (h : History identity n past)
    (hread : readJsonLine (F := F) stream = .ok (msg, rest))
    (hacc : Accepts n msg none (some (.str n.identity.peerId)) now sender recipient nonce
      contact) :
    History identity (n.noted sender nonce) (some (.accepted msg (some contact) now) :: past) := by
  have hch := hacc.checked
  have hto : recipient = identity.peerId := by
    rw [← h.identityIs]
    exact eq_of_expected (peerId_ne_nil _) hch.expectedTo
  have hvouched : Vouched (msg, some contact, now) :=
    ⟨readJsonLine_wellFormed hread, contact, rfl, hch.verified⟩
  have hnoted : History identity (n.noted sender nonce) past :=
    ⟨h.identityIs, h.log, h.sessions, h.absent, h.maintainers⟩
  refine hnoted.note ⟨hvouched, ?_⟩ rfl
  rw [hch.recipientIs, hto]

omit [DecidableEq F] [PyRepr F] in
/-- An offer is built, perhaps sent, and the coroutine goes on or ends. -/
theorem History.requested {p : Str} {t : Nat} {desc : Text × Text} {now : UInt64}
    {random : FixedBytes 16} {w : SessionWorld F} {envelope : Json F} {act : SessionAct F}
    {sent out : List (Event F)} (h : History identity n past)
    (ht : n.task? p t = some (w, .initiate .negotiating))
    (hbuild : buildMessage n.identity w.session.contact.val.peerId
      (descPayload Kind.offer w.session.currentSessionId desc) random now = .ok envelope)
    (hact : act = .gathered t ∧ sent = [.wrote (envelopeLine envelope)] ∨
      act = .raised t ∧ sent = [])
    (hs : n.stepSession p act = some (n', out)) :
    History identity n' (((.built .offer
      { toPeerId := w.session.contact.val.peerId
        payload := descPayload Kind.offer w.session.currentSessionId desc
        random := random
        nowMs := now } envelope :: sent ++ out).map some).reverse ++ past) := by
  obtain ⟨hw, htask⟩ := task?_eq_some.mp ht
  have htended := h.sessions p w hw
  obtain ⟨hdials, hsid⟩ := htended.tasks t _ htask
  -- the call has a name, so that rewriting does not reach into it
  obtain ⟨call, hcall⟩ : ∃ call : BuildCall F, call =
      { toPeerId := w.session.contact.val.peerId
        payload := descPayload Kind.offer w.session.currentSessionId desc
        random := random
        nowMs := now } := ⟨_, rfl⟩
  -- the events one by one: the offer is built, it is sent, the session goes on
  have hbuilt : History identity n (some (.built .offer call envelope) :: past) := by
    refine h.note ⟨?_, ?_, ?_⟩ rfl
    · rw [← h.identityIs, hcall]
      exact hbuild
    · rw [hcall]
      exact wellFormed_descPayload (Str.isScalar_ofText _) htended.wellFormed desc
    · rw [hcall]
      exact ⟨_, desc, rfl⟩
  have hsent : History identity n
      ((sent.map some).reverse ++ some (.built .offer call envelope) :: past) := by
    rcases hact with ⟨-, rfl⟩ | ⟨-, rfl⟩
    · exact hbuilt.note (Or.inr ⟨_, call, envelope, List.mem_cons_self .., rfl⟩) rfl
    · exact hbuilt
  have hoffered : Offered p w.session.currentSessionId
      ((sent.map some).reverse ++ some (.built .offer call envelope) :: past) := by
    refine ⟨hsid, call, envelope, desc, ?_, ?_, ?_⟩
    · exact List.mem_append_right _ (List.mem_cons_self ..)
    · rw [hcall]
      exact htended.contact
    · rw [hcall]
  have hlog : ((.built .offer call envelope :: sent ++ out).map some).reverse ++ past =
      (out.map some).reverse ++
        ((sent.map some).reverse ++ some (.built .offer call envelope) :: past) := by
    simp
  rw [← hcall, hlog]
  refine hsent.stepSession hs ?_ ?_ ?_
  · rcases hact with ⟨rfl, -⟩ | ⟨rfl, -⟩ <;> exact fun _ _ hc => nomatch hc
  · rcases hact with ⟨rfl, -⟩ | ⟨rfl, -⟩ <;> exact fun _ _ _ hc => nomatch hc
  · intro w' u task task' hw' hu hm
    rw [hw] at hw'
    cases hw'
    rcases hact with ⟨rfl, -⟩ | ⟨rfl, -⟩
    · cases hm
      exact ⟨hdials, hoffered⟩
    · cases hm

/-- A reply is accepted, and the coroutine applies it or ends. -/
theorem History.replied {p : Str} {t : Nat} {stream rest : List UInt8} {now : UInt64}
    {w : SessionWorld F} {reply : Members F} {sender recipient nonce : Str}
    {contact : Ref (Contact F)} {act : SessionAct F} {out : List (Event F)}
    (h : History identity n past) (ht : n.task? p t = some (w, .initiate .requesting))
    (hread : readJsonLine (F := F) stream = .ok (reply, rest))
    (hacc : Accepts n reply (some w.session.contact.val.peerId) none now sender recipient nonce
      contact)
    (hact : act = .replied t reply ∧ checkAnswer w.session.currentSessionId reply = true ∨
      act = .raised t)
    (hs : (n.noted sender nonce).stepSession p act = some (n', out)) :
    History identity n'
      (((.replyAccepted reply (some contact) now :: out).map some).reverse ++ past) := by
  obtain ⟨hw, htask⟩ := task?_eq_some.mp ht
  have htended := h.sessions p w hw
  obtain ⟨hdials, hoffered⟩ := htended.tasks t _ htask
  have hch := hacc.checked
  -- the reply was expected from the contact of the session
  have hsender : senderOf reply = p := by
    have hexp := hch.expectedFrom
    rw [htended.contact] at hexp
    rw [Checked.senderOf_eq hch]
    exact eq_of_expected (ne_nil_of_lt hdials) hexp
  have hnoted : History identity (n.noted sender nonce) past :=
    ⟨h.identityIs, h.log, h.sessions, h.absent, h.maintainers⟩
  have haccepted := hnoted.note (e := .replyAccepted reply (some contact) now)
    ⟨readJsonLine_wellFormed hread, contact, rfl, hch.verified⟩ rfl
  rw [List.map_cons, List.reverse_cons, List.append_assoc]
  -- the coroutine goes on only with an answer to its own session id
  refine haccepted.stepSession hs ?_ ?_ ?_
  · rcases hact with ⟨rfl, -⟩ | rfl <;> exact fun _ _ hc => nomatch hc
  · rcases hact with ⟨rfl, -⟩ | rfl <;> exact fun _ _ _ hc => nomatch hc
  · intro w' u task task' hw' hu hm
    have hw'' : Dict.get? n.sessions p = some w' := hw'
    rw [hw] at hw''
    cases hw''
    rcases hact with ⟨rfl, hanswer⟩ | rfl
    · cases hm
      exact ⟨hdials, hoffered.mono (List.subset_cons_self ..),
        ⟨⟨_, _, List.mem_cons_self ..⟩, hsender, hanswer⟩⟩
    · cases hm

omit [DecidableEq F] [Float64 F] [Crates F] [PyRepr F] in
/-- A session that was made anew. -/
theorem tended_new {own p : Str} {contact : Ref (Contact F)} (role : Role)
    (hp : contact.val.peerId = .str p) (hlast : lastTook p past = none) :
    Tended own p past (SessionWorld.new contact role) := by
  refine ⟨hp, SessionWorld.locked_new contact role, rfl, ?_, ?_⟩
  · intro t task ht
    cases ht
  · intro _
    rw [hlast]
    rfl

omit [PyRepr F] in
/-- A contact is added or updated. -/
theorem History.addContact (h : History identity n past) (invite : Json F) (writeOk : Bool) :
    History identity (n.addContact invite writeOk).2 past := by
  obtain ⟨contacts, oid, file, heq | ⟨contact, p, hp, heq⟩⟩ := addContact_cases n invite writeOk
  · rw [heq]
    exact ⟨h.identityIs, h.log, h.sessions, h.absent, h.maintainers⟩
  · rw [heq]
    unfold addSession
    dsimp only
    split
    · -- a new session, for which the past has no offer
      rename_i hnone
      refine ⟨h.identityIs, h.log, ?_, ?_, ?_⟩
      · intro q w hw
        rw [Dict.get?_set] at hw
        split_ifs at hw with hq
        · cases hw
          rw [hq]
          exact tended_new _ hp (h.absent p hnone)
        · exact h.sessions q w hw
      · intro q hq
        rw [Dict.get?_set] at hq
        split_ifs at hq
        exact h.absent q hq
      · intro q hq
        dsimp only at hq
        split_ifs at hq with hrole
        · rcases List.mem_append.mp hq with hq | hq
          · exact h.maintainers q hq
          · rw [List.mem_singleton.mp hq, ← h.identityIs]
            rw [roleFor] at hrole
            split_ifs at hrole with hlt
            exact hlt
        · exact h.maintainers q hq
    · -- the session stays and is given the contact
      rename_i w hw
      have ht := h.sessions p w hw
      refine ⟨h.identityIs, h.log, ?_, ?_, h.maintainers⟩
      · intro q v hv
        rw [Dict.get?_set] at hv
        split_ifs at hv with hq
        · cases hv
          rw [hq]
          refine ⟨hp, ?_, ht.wellFormed, ht.tasks, ht.latest⟩
          exact ht.locked.of_frame rfl rfl id
        · exact h.sessions q v hv
      · intro q hq
        rw [Dict.get?_set] at hq
        split_ifs at hq
        exact h.absent q hq

omit [DecidableEq F] [Float64 F] [Crates F] [PyRepr F] in
theorem task?_of_isInternal {act : SessionAct F} (h : act.isInternal = true) :
    act.task? = none := by
  cases act <;> first | rfl | cases h

/-- Every step adds to the history what it does. -/
theorem History.step {a : Act F} {out : List (Event F)} (h : History identity n past)
    (hs : Node.step n a = some (n', out)) :
    History identity n' ((out.map some).reverse ++ past) := by
  cases step_outcome hs with
  | unread stream now replyMs random e => exact h.note (Or.inl ⟨e, rfl⟩) rfl
  | rejected stream now replyMs random msg rest e =>
    have hrejected := h.note (e := .rejected msg e) trivial rfl
    exact hrejected.note (Or.inl ⟨e, rfl⟩) rfl
  | accepted stream now replyMs random msg rest sender recipient nonce contact n' out hread hacc
      hd =>
    rw [List.map_cons, List.reverse_cons, List.append_assoc]
    exact (h.accepted hread hacc).dispatch (readJsonLine_wellFormed hread)
      ⟨_, _, List.mem_cons_self ..⟩ hd
  | answered p t desc now random w msg n' out ht hsess =>
    -- the session's events come first, then those of the response
    obtain ⟨hw, htask⟩ := task?_eq_some.mp ht
    have htended := h.sessions p w hw
    obtain ⟨hrec, htook⟩ := htended.tasks t _ htask
    have hafter : History identity n' ((out.map some).reverse ++ past) := by
      refine h.stepSession hsess (fun _ _ hc => nomatch hc) (fun _ _ _ hc => nomatch hc) ?_
      intro w' u task task' hw' hu hm
      rw [hw] at hw'
      cases hw'
      cases hm
      rw [htask] at hu
      cases hu
    -- the answer is built with the identity of the node after the step
    have hid : n'.identity = n.identity := (frame_stepSession hsess).identity
    obtain ⟨call, hcall⟩ : ∃ call : BuildCall F, call =
        { toPeerId := .str (senderOf msg)
          payload := descPayload Kind.answer w.session.currentSessionId desc
          random := random
          nowMs := now } := ⟨_, rfl⟩
    have hrespond : History identity n' (((n'.respond (.answer msg) call).map some).reverse ++
        ((out.map some).reverse ++ past)) := by
      rw [hcall]
      refine hafter.respond (wellFormed_descPayload (Str.isScalar_ofText _) htended.wellFormed desc)
        ⟨rfl, _, desc, rfl, ?_⟩
      rw [hrec.sender]
      exact List.mem_append_right _ (htook rfl)
    rw [← hcall]
    rw [List.map_append, List.reverse_append, List.append_assoc]
    unfold Node.respond at hrespond ⊢
    rw [hid] at hrespond
    exact hrespond
  | dialed p w n' out hw hmem hsess =>
    -- only maintainers dial, and the peers of maintainers have the larger id
    refine h.stepSession hsess (fun _ _ hc => nomatch hc) ?_ ?_
    · intro w' task _ htask
      cases htask
      exact h.maintainers p hmem
    · intro w' t task task' _ _ hm
      cases hm
  | requested p t desc now random online w envelope n' out act sent ht henv hact hsess =>
    exact h.requested ht henv hact hsess
  | replied p t stream now w reply rest sender recipient nonce contact n' out act ht hread hacc
      hact hsess => exact h.replied ht hread hacc hact hsess
  | session a p act n' out rest hin hact hrest hsess =>
    have hafter : History identity n' ((out.map some).reverse ++ past) := by
      refine h.stepSession hsess ?_ ?_ ?_
      · rintro contact role rfl
        rcases hact with hi | hi | ⟨t, hi⟩ <;> cases hi
      · intro w task _ htask
        rcases hact with hi | rfl | ⟨t, rfl⟩
        · rw [task?_of_isInternal hi] at htask
          cases htask
        · cases htask
          trivial
        · cases htask
      · intro w t task task' hw hu hm
        have hold := (h.sessions p w hw).tasks t task hu
        -- an internal step, a drop or an exception only moves a coroutine forward
        cases hm with
        | closeInitiate sid => exact hold
        | closeOffer sid msg => exact ⟨hold.1, fun hp => nomatch hp⟩
        | closeDrop sid => trivial
        | gathered => rcases hact with hi | hi | ⟨t', hi⟩ <;> cases hi
        | replied reply => rcases hact with hi | hi | ⟨t', hi⟩ <;> cases hi
    rcases hrest with rfl | ⟨e, rfl⟩
    · rw [List.append_nil]
      exact hafter
    · rw [List.map_append, List.reverse_append, List.append_assoc]
      exact hafter.note (Or.inl ⟨e, rfl⟩) rfl
  | addContact invite writeOk => exact h.addContact invite.val writeOk

omit [PyRepr F] in
/-- A process that starts knows nothing of the past but the files. -/
theorem history_boot {file : Option Text} (hboot : boot identity file = .ok n)
    (hlog : LogSound identity past) (hlast : ∀ p, lastTook p past = none) :
    History identity n past := by
  obtain ⟨l, -, hstr, hid, -, -, hsessions, hmaintainers⟩ := boot_ok hboot
  have hspec : (Dict.keys n.sessions).Nodup ∧ ∀ ps ∈ n.sessions, ∃ c ∈ l,
      ps = (strOf c, SessionWorld.new c (roleFor identity.peerId (strOf c))) := by
    rw [hsessions]
    refine Dict.ofPairs_spec fun ps hps => ?_
    obtain ⟨c, hc, rfl⟩ := List.mem_map.mp hps
    exact ⟨c, hc, rfl⟩
  refine ⟨hid, hlog, ?_, fun p _ => hlast p, ?_⟩
  · intro p w hw
    obtain ⟨c, hc, heq⟩ := hspec.2 _ (Dict.get?_mem hw)
    cases heq
    exact tended_new _ (hstr c hc) (hlast _)
  · -- a session has a maintainer when its role is the initiator's
    intro p hp
    rw [hmaintainers] at hp
    obtain ⟨w, hw, hrole⟩ := ((startMaintainers_spec hspec.1).2 p).mp hp
    obtain ⟨c, hc, heq⟩ := hspec.2 _ (Dict.get?_mem hw)
    cases heq
    have hrole' : roleFor identity.peerId (strOf c) = .initiator := hrole
    rw [roleFor] at hrole'
    split_ifs at hrole' with hlt
    exact hlt

/-- The history of a state directory, in every run from a start. -/
theorem history_run {file : Option Text} {as : List (HostAct F)}
    {c : Config (Node F) (Option (Event F))} (hboot : boot identity file = .ok n)
    (h : host.run ⟨n, []⟩ as = some c) : History identity c.state c.log := by
  have hstart : History identity n [] := history_boot hboot trivial fun _ => rfl
  refine Machine.run_invariant (P := fun c => History identity c.state c.log) ?_ hstart h
  intro d a d' hd hnext
  obtain ⟨out, hs, hlog⟩ := Machine.next_eq_some.mp hnext
  rw [hlog]
  rcases host_cases hs with ⟨b, o, -, hstep, rfl⟩ | ⟨-, hn', rfl⟩
  · exact hd.step hstep
  · rw [hd.identityIs] at hn'
    exact history_boot hn' ⟨trivial, hd.log⟩ fun _ => rfl

end Node

end P4

/-
  The answers that an initiator applies.

  A reply is checked against the peer id of its sender and the session id of the offer, but not
  against the recipient in it, so an answer to somebody else's offer is applied as well when it
  has the session id.  When the replies that are delivered are addressed to the node, the answer
  was made by the peer for an offer of the node itself.
-/
import P4.System.Equiv.Authentic

namespace P4

section

variable {F : Type}

/-! ### Payloads -/

theorem textAt_descPayload_type (type : Str) (sid : Json F) (desc : Text × Text) :
    (Json.obj (descPayload type sid desc)).textAt Field.type = some type := rfl

theorem textAt_descPayload_sessionId (type : Str) (sid : Json F) (desc : Text × Text) :
    (Json.obj (descPayload type sid desc)).textAt Field.sessionId = sid.text? := rfl

/-- A message of type `answer` was built by `_handle_signal_conn` for an offer. -/
theorem Purposeful.of_answer {past : Past F} {call : BuildCall F} {why : Purpose F}
    (h : Purposeful past call why)
    (htype : (Json.obj call.payload).textAt Field.type = some Kind.answer) :
    ∃ msg sid desc, why = .answer msg ∧ call.toPeerId = .str (senderOf msg) ∧
      call.payload = descPayload Kind.answer sid desc ∧
      some (.took (senderOf msg) msg sid) ∈ past := by
  cases why with
  | offer =>
    obtain ⟨sid, desc, hpay⟩ := h
    rw [hpay, textAt_descPayload_type] at htype
    exact absurd (Option.some.inj htype) (by decide)
  | answer msg =>
    obtain ⟨hto, sid, desc, hpay, htook⟩ := h
    exact ⟨msg, sid, desc, rfl, hto, hpay, htook⟩
  | pong msg =>
    obtain ⟨sid, hpay⟩ := h
    have hpong : (Json.obj call.payload).textAt Field.type = some Kind.pong := by
      rw [hpay]
      rfl
    rw [hpong] at htype
    exact absurd (Option.some.inj htype) (by decide)

/-- A message of type `offer` was built by `_initiate_with_contact`. -/
theorem Purposeful.of_offer {past : Past F} {call : BuildCall F} {why : Purpose F}
    (h : Purposeful past call why)
    (htype : (Json.obj call.payload).textAt Field.type = some Kind.offer) : why = .offer := by
  cases why with
  | offer => rfl
  | answer msg =>
    obtain ⟨-, sid, desc, hpay, -⟩ := h
    rw [hpay, textAt_descPayload_type] at htype
    exact absurd (Option.some.inj htype) (by decide)
  | pong msg =>
    obtain ⟨sid, hpay⟩ := h
    have hpong : (Json.obj call.payload).textAt Field.type = some Kind.pong := by
      rw [hpay]
      rfl
    rw [hpong] at htype
    exact absurd (Option.some.inj htype) (by decide)

/-- What the initiator has checked of the payload of an answer. -/
theorem checkAnswer_ok {sid : Json F} {reply : Members F}
    (h : Node.checkAnswer sid reply = true) :
    ∃ payload s, payloadOf reply = some payload ∧ sid = .str s ∧
      Dict.get? payload Field.type = some (.str Kind.answer) ∧
      Dict.get? payload Field.sessionId = some (.str s) := by
  have hstr : ∀ {x : Option (Json F)} {k : Str}, x.any (·.eqStr k) = true → x = some (.str k) := by
    intro x k hx
    cases x with
    | none => cases hx
    | some v =>
      cases v <;> first
        | cases hx
        | exact congrArg (fun s => some (Json.str s)) (of_decide_eq_true hx)
  unfold Node.checkAnswer at h
  split at h
  · cases h
  · rename_i payload hpay
    rw [Bool.and_eq_true, Bool.and_eq_true, Bool.and_eq_true] at h
    obtain ⟨⟨⟨htype, hsid⟩, -⟩, -⟩ := h
    cases sid with
    | str s => exact ⟨payload, s, hpay, rfl, hstr htype, hstr hsid⟩
    | _ => cases hsid

/-- The text of a payload that a message carries. -/
theorem Carries.textAt [Crates F] {msg payload : Members F} {identity : Identity F}
    {call : BuildCall F} (h : Carries msg identity call) (hpay : payloadOf msg = some payload)
    {k s : Str} (hk : Dict.get? payload k = some (.str s)) :
    (Json.obj call.payload).textAt k = some s := by
  obtain ⟨p, hp, htexts⟩ := h.payload
  rw [payloadOf, hp] at hpay
  cases p with
  | obj m =>
    cases hpay
    rw [← htexts k]
    exact Json.textAt_obj.mpr hk
  | _ => cases hpay

end

section

variable {ι F : Type} [DecidableEq ι] [DecidableEq F] [Float64 F] [Crates F] [PyRepr F]
  {identities : ι → Identity F} {s : ι → Node F} {as : List (SystemAct ι F)}
  {c : Config (ι → Node F) (SystemEvent ι F)}

/-! ### Messages of honest nodes -/

/-- A message that was accepted from an honest node was built by it. -/
theorem built_of_honest (hserde : SerdeReads F) (hjcs : JcsInjective F)
    (hstart : Started identities s) (hrun : system.run ⟨s, []⟩ as = some c)
    (hunf : Unforgeable identities c.log) {late early : List (SystemEvent ι F)} {i j : ι}
    (hj : Honest identities j c.log) {e : Event F} {x : Acceptance F}
    (hlog : c.log = late ++ .inl (i, some e) :: early) (hx : e.acceptance? = some x)
    (hsender : senderOf x.1 = (identities j).peerId) :
    ∃ why call envelope mid past, early = mid ++ .inl (j, some (.built why call envelope)) :: past ∧
      Carries x.1 (identities j) call ∧ Purposeful (Machine.component j past) call why ∧
      ((Json.obj call.payload).numberFree = true →
        Dict.get? x.1 Field.timestampMs = some (.int call.nowMs.toNat) ∧
        ∃ q, Dict.get? x.1 Field.payload = some q ∧ q.Same (.obj call.payload)) := by
  obtain ⟨hwf, contact, env, K, bytes, sig, -, hv, hcheck⟩ :=
    verified_of_accepted hstart hrun hlog hx
  rw [(senderOf_of_verified hserde hwf hv).2] at hsender
  -- the signature was made by some node, and by the sender's since that one is honest
  have hunf' := hunf
  rw [hlog] at hunf'
  obtain ⟨e', he', hsig⟩ := List.mem_map.mp (hunf'.event (K, bytes) hcheck)
  have hmem : e' ∈ c.log := by
    rw [hlog]
    exact List.mem_append_right _ (List.mem_cons_of_mem _ he')
  have hnode := hj e' hmem (K, bytes) hsig hsender
  obtain ⟨why, call, envelope, sk, env', rfl, hcall, hs⟩ :=
    signing_of_signature hstart hrun hmem hnode hsig
  obtain ⟨mid, past, hsplit⟩ := List.append_of_mem he'
  have hlog' : c.log = (late ++ .inl (i, some e) :: mid) ++
      .inl (j, some (.built why call envelope)) :: past := by
    rw [hlog, hsplit, List.append_assoc, List.cons_append]
  have hcarries := hv.carries hserde hjcs hwf hcall hs
  refine ⟨why, call, envelope, mid, past, hsplit, hcarries, (soundAt hstart hrun hlog').2.2, ?_⟩
  intro hfree
  obtain ⟨q, hq, -⟩ := hcarries.payload
  have hfree' := (hv.numberFree_iff hserde hjcs hwf hcall hs hq).mpr hfree
  obtain ⟨hts, hsame, -⟩ := hv.same hserde hjcs hwf hcall hs hq hfree'
  exact ⟨hts, q, hq, hsame⟩

/-- An offer that was taken up was accepted before, and names its session. -/
theorem accepted_of_took (hserde : SerdeReads F) (hstart : Started identities s)
    (hrun : system.run ⟨s, []⟩ as = some c) {late early : List (SystemEvent ι F)} {i : ι}
    {q : Str} {msg : Members F} {sid : Json F}
    (hlog : c.log = late ++ .inl (i, some (.took q msg sid)) :: early) :
    senderOf msg = q ∧ q.Plain ∧
      Dict.get? msg Field.recipientPeerId = some (.str (identities i).peerId) ∧
      (∃ payload, payloadOf msg = some payload ∧
        Dict.get? payload Field.type = some (.str Kind.offer) ∧
        Dict.get? payload Field.sessionId = some sid) ∧
      ∃ contact now mid past,
        early = mid ++ .inl (i, some (.accepted msg contact now)) :: past := by
  obtain ⟨hrec, hsid⟩ := soundAt hstart hrun hlog
  obtain ⟨contact, now, hacc⟩ := hrec.accepted
  obtain ⟨mid, past, hsplit⟩ := List.append_of_mem (Machine.mem_component.mp hacc)
  have hlog' : c.log = (late ++ .inl (i, some (.took q msg sid)) :: mid) ++
      .inl (i, some (.accepted msg contact now)) :: past := by
    rw [hlog, hsplit, List.append_assoc, List.cons_append]
  obtain ⟨hwf, _, env, K, bytes, sig, -, hv, -⟩ := verified_of_accepted hstart hrun hlog' rfl
  obtain ⟨payload, hpay, htype⟩ := hrec.type
  refine ⟨hrec.sender, ?_, (soundAt hstart hrun hlog').2, ⟨payload, hpay, htype, ?_⟩,
    contact, now, mid, past, hsplit⟩
  · have hsend : senderOf msg = _ := (senderOf_of_verified hserde hwf hv).2
    rw [← hrec.sender, hsend]
    exact plain_peerIdFromPublicKeyBytes _
  · rwa [hpay, Option.getD_some] at hsid

/-! ### Replies -/

/-- The lines that are delivered as replies are addressed to the node that reads them. -/
def repliesAddressed (d : Config (ι → Node F) (SystemEvent ι F)) : SystemAct ι F → Bool
  | .inl (i, .node (.reply _ _ stream _)) => addressed F (d.state i).identity.peerId stream
  | _ => true

omit [DecidableEq ι] [DecidableEq F] [Crates F] [PyRepr F] in
/-- The recipient of a message that was read from an addressed line. -/
theorem eq_of_addressed {own r : Str} {stream rest : List UInt8} {msg : Members F}
    (h : addressed F own stream = true) (hread : readJsonLine stream = .ok (msg, rest))
    (hr : Dict.get? msg Field.recipientPeerId = some (.str r)) : r = own := by
  unfold addressed at h
  rw [hread] at h
  dsimp only at h
  rw [hr] at h
  exact of_decide_eq_true h

/-- The replies that are accepted are then addressed to the node. -/
theorem recipient_of_reply (hstart : Started identities s)
    (hrun : system.run ⟨s, []⟩ as = some c)
    (hok : system.Meets (fun d a => repliesAddressed d a = true) ⟨s, []⟩ as) {i : ι}
    {msg : Members F} {contact : Option (Ref (Contact F))} {now : UInt64}
    (he : .inl (i, some (.replyAccepted msg contact now)) ∈ c.log) :
    Dict.get? msg Field.recipientPeerId = some (.str (identities i).peerId) := by
  have halong : Along (fun _ e => ∀ i msg contact now,
      e = .inl (i, some (.replyAccepted msg contact now)) →
      Dict.get? msg Field.recipientPeerId = some (.str (identities i).peerId)) c.log := by
    refine along_of_meets hstart hrun hok (fun _ _ _ _ h => h) ?_ ?_ ?_
    · rintro d i b n' o e hhist hd hstep heo i' msg contact now heq
      cases heq
      obtain ⟨stream, rest, r, -, hread, hr, hreply⟩ := Node.acceptance_origin hstep heo rfl
      obtain ⟨p, t, now', rfl⟩ := hreply ⟨_, _, _, rfl⟩
      rw [hr, eq_of_addressed hd hread hr, hhist.identityIs]
    · intro past i i' msg contact now heq
      cases heq
    · intro past f i msg contact now heq
      cases heq
  obtain ⟨late, early, hlog⟩ := List.append_of_mem he
  rw [hlog] at halong
  exact halong.event _ _ _ _ rfl

/-- What is known of an answer that node `A` applied for peer `p`. -/
structure AnswerBound (identities : ι → Identity F) (A : ι) (p : Str) (sid : Json F)
    (reply : Members F) (past : List (SystemEvent ι F)) : Prop where
  /-- signed with a key of the peer, the one that the contact entry of `A` has for it -/
  signed : ∃ contact now K bytes, .inl (A, some (.replyAccepted reply (some contact) now)) ∈ past ∧
    verification? reply contact.val.publicKeyB64 = some (K, bytes) ∧
    peerIdFromPublicKeyBytes F K.val = p ∧ some (K, bytes) ∈ past.map (signatureOf identities)
  sender : Dict.get? reply Field.senderPeerId = some (.str p)
  recipient : Dict.get? reply Field.recipientPeerId = some (.str (identities A).peerId)
  answer : ∃ payload, payloadOf reply = some payload ∧
    Dict.get? payload Field.type = some (.str Kind.answer) ∧
    Dict.get? payload Field.sessionId = some sid
  /-- the session id is that of an offer of `A` to the peer -/
  offer : ∃ call envelope desc, .inl (A, some (.built .offer call envelope)) ∈ past ∧
    call.toPeerId = .str p ∧ call.payload = descPayload Kind.offer sid desc

/-- In a run whose replies are addressed to the nodes that read them, an answer that is applied
was signed by the peer, for the node and for its offer; an honest peer made it in
`_handle_offer` for an offer that the node signed for it.

The event is traced back through the two nodes: what is applied was accepted as a reply, so it
verified, so the peer built it, as the answer to a message it had taken up; that message it had
accepted as an offer, so the node had built it. -/
theorem applied_answer_bound (hserde : SerdeReads F) (hjcs : JcsInjective F)
    (hstart : Started identities s) (hrun : system.run ⟨s, []⟩ as = some c)
    (hunf : Unforgeable identities c.log)
    (hok : system.Meets (fun d a => repliesAddressed d a = true) ⟨s, []⟩ as)
    {late early : List (SystemEvent ι F)} {A : ι} {p : Str} {sid : Json F} {reply : Members F}
    (hlog : c.log = late ++ .inl (A, some (.applied p sid reply)) :: early) :
    AnswerBound identities A p sid reply early ∧
    ∀ B, (identities B).peerId = p → Honest identities B c.log → Honest identities A c.log →
      ∃ msg call envelope, .inl (B, some (.built (.answer msg) call envelope)) ∈ early ∧
        Carries reply (identities B) call ∧
        Dict.get? reply Field.timestampMs = some (.int call.nowMs.toNat) ∧
        (∃ q, Dict.get? reply Field.payload = some q ∧ q.Same (.obj call.payload)) ∧
        Dict.get? msg Field.recipientPeerId = some (.str (identities B).peerId) ∧
        ∃ call' envelope', .inl (A, some (.built .offer call' envelope')) ∈ early ∧
          Carries msg (identities A) call' := by
  obtain ⟨-, hoffered, hreplied⟩ := soundAt hstart hrun hlog
  obtain ⟨contact?, now, hacc⟩ := hreplied.accepted
  have hmem := Machine.mem_component.mp hacc
  obtain ⟨mid, past, hsplit⟩ := List.append_of_mem hmem
  have hlog' : c.log = (late ++ .inl (A, some (.applied p sid reply)) :: mid) ++
      .inl (A, some (.replyAccepted reply contact? now)) :: past := by
    rw [hlog, hsplit, List.append_assoc, List.cons_append]
  have hpast : past ⊆ early := by
    intro e he
    rw [hsplit]
    exact List.mem_append_right _ (List.mem_cons_of_mem _ he)
  obtain ⟨payload, sidText, hpay, hsid, htype, hsession⟩ := checkAnswer_ok hreplied.checked
  have hrecipient : Dict.get? reply Field.recipientPeerId = some (.str (identities A).peerId) := by
    have hmem' : .inl (A, some (.replyAccepted reply contact? now)) ∈ c.log := by
      rw [hlog']
      exact List.mem_append_right _ (List.mem_cons_self ..)
    exact recipient_of_reply hstart hrun hok hmem'
  refine ⟨⟨?_, ?_, hrecipient, ⟨payload, hpay, htype, ?_⟩, ?_⟩, ?_⟩
  · obtain ⟨hwf, contact, env, K, bytes, sig, hcontact, hv, hcheck⟩ :=
      verified_of_accepted hstart hrun hlog' rfl
    have hcontact' : contact? = some contact := hcontact
    subst hcontact'
    have hunf' := hunf
    rw [hlog'] at hunf'
    obtain ⟨e', he', hsig⟩ := List.mem_map.mp (hunf'.event (K, bytes) hcheck)
    refine ⟨contact, now, K, bytes, hmem, hv.verification?_eq, ?_, ?_⟩
    · rw [← (senderOf_of_verified hserde hwf hv).2]
      exact hreplied.sender
    · exact List.mem_map.mpr ⟨e', hpast he', hsig⟩
  · obtain ⟨hwf, contact, env, K, bytes, sig, -, hv, -⟩ :=
      verified_of_accepted hstart hrun hlog' rfl
    obtain ⟨hget, hsend⟩ := senderOf_of_verified hserde hwf hv
    rw [← hreplied.sender]
    exact hget.trans (by rw [hsend])
  · rw [hsession, hsid]
  · obtain ⟨call, envelope, desc, hbuilt, hto, hcall⟩ := hoffered.built
    exact ⟨call, envelope, desc, Machine.mem_component.mp hbuilt, hto, hcall⟩
  · intro B hB honestB honestA
    obtain ⟨why, call, envelope, mid₂, past₂, hsplit₂, hcarries, hwhy, hwhole⟩ :=
      built_of_honest hserde hjcs hstart hrun hunf honestB hlog' rfl (hreplied.sender.trans hB.symm)
    obtain ⟨msg, sid', desc, rfl, hto, hcall, htook⟩ := hwhy.of_answer (hcarries.textAt hpay htype)
    obtain ⟨mid₃, past₃, hsplit₃⟩ := List.append_of_mem (Machine.mem_component.mp htook)
    have hlog₃ : c.log = (late ++ .inl (A, some (.applied p sid reply)) :: mid ++
        .inl (A, some (.replyAccepted reply contact? now)) :: mid₂ ++
        .inl (B, some (.built (.answer msg) call envelope)) :: mid₃) ++
        .inl (B, some (.took (senderOf msg) msg sid')) :: past₃ := by
      rw [hlog', hsplit₂, hsplit₃]
      simp only [List.append_assoc, List.cons_append]
    obtain ⟨-, hplain, hown, ⟨offer, hoffer, hofferType, -⟩, contact₄, now₄, mid₄, past₄,
      hsplit₄⟩ := accepted_of_took hserde hstart hrun hlog₃
    -- the answer is addressed to the sender of the offer, which is the node itself
    have hsenderA : senderOf msg = (identities A).peerId := by
      obtain ⟨to', hto', hrec⟩ := hcarries.recipient
      rw [hto] at hto'
      cases hto'
      rw [hplain.cStr_eq] at hrec
      exact Json.str.inj (Option.some.inj (hrec.symm.trans hrecipient))
    have hlog₄ : c.log = (late ++ .inl (A, some (.applied p sid reply)) :: mid ++
        .inl (A, some (.replyAccepted reply contact? now)) :: mid₂ ++
        .inl (B, some (.built (.answer msg) call envelope)) :: mid₃ ++
        .inl (B, some (.took (senderOf msg) msg sid')) :: mid₄) ++
        .inl (B, some (.accepted msg contact₄ now₄)) :: past₄ := by
      rw [hlog₃, hsplit₄]
      simp only [List.append_assoc, List.cons_append]
    obtain ⟨why', call', envelope', mid₅, past₅, hsplit₅, hcarries', hwhy', -⟩ :=
      built_of_honest hserde hjcs hstart hrun hunf honestA hlog₄ rfl hsenderA
    obtain rfl := hwhy'.of_offer (hcarries'.textAt hoffer hofferType)
    have hfree : (Json.obj call.payload).numberFree = true := by
      have hsid' := hcarries.textAt hpay hsession
      rw [hcall, textAt_descPayload_sessionId, Json.text?_eq_some] at hsid'
      rw [hcall, hsid']
      rfl
    obtain ⟨hts, hsame⟩ := hwhole hfree
    refine ⟨msg, call, envelope, ?_, hcarries, hts, hsame, hown, call', envelope', ?_, hcarries'⟩
    · refine hpast ?_
      rw [hsplit₂]
      exact List.mem_append_right _ (List.mem_cons_self ..)
    · refine hpast ?_
      rw [hsplit₂, hsplit₃, hsplit₄, hsplit₅]
      simp

end

/-! ### An answer to somebody else -/

namespace Sample

/-- The line of an answer of the second node. -/
def answerLine (recipient : UInt8) : List UInt8 :=
  line 2 recipient (descPayload Kind.answer (.str (Str.ofText ['s'])) desc) 9 1003

/-- The payload of an offer with the session id `s`. -/
def offerPayload : Members Empty := descPayload Kind.offer (.str (Str.ofText ['s'])) desc

/-- The first node offers to the second. -/
def dialing : List (SystemAct Bool Empty) :=
  [.inl (false, .node (.addContact (invited 2) true)),
   .inl (false, .node (.dial (identity 2).peerId)),
   .inl (false, .node (.session (identity 2).peerId (.acquire 0 ['s']))),
   .inl (false, .node (.request (identity 2).peerId 0 desc 1000 (random 7) true))]

/-- The second node takes up an offer of a contact and answers it; the answer reaches the first
node as the reply to its offer. -/
def answering (sender : UInt8) : List (SystemAct Bool Empty) :=
  [.inl (true, .node (.inbound (line sender 2 offerPayload 7 1000) 1001 1002 (random 8))),
   .inl (true, .node (.session (identity sender).peerId (.acquire 0 []))),
   .inl (true, .node (.answer (identity sender).peerId 0 desc 1003 (random 9))),
   .inl (false, .node (.reply (identity 2).peerId 0 (answerLine sender) 1004)),
   .inl (false, .node (.session (identity 2).peerId (.applied 0)))]

/-- What a third party signs for its own offer. -/
def foreignOffer : Foreign :=
  match signing? (identity 3)
    { toPeerId := .str (identity 2).peerId
      payload := offerPayload
      random := random 7
      nowMs := 1000 } with
  | some (sk, bytes) => { key := sk, bytes := bytes }
  | none => { key := key 3, bytes := [] }

/-- The first node's own offer is answered. -/
def answerRun : List (SystemAct Bool Empty) :=
  dialing ++ .inl (true, .node (.addContact (invited 1) true)) ::
    answering 1

/-- A third party has seen the session id and makes an offer with it. -/
def redirectRun : List (SystemAct Bool Empty) :=
  dialing ++ .inl (true, .node (.addContact (invited 3) true)) ::
    .inr foreignOffer :: answering 3

/-- The last event is an answer applied for the second node, with this recipient in it. -/
def appliedFor (recipient : UInt8) : List (SystemEvent Bool Empty) → Bool
  | .inl (false, some (.applied p _ reply)) :: _ => p = (pair true).peerId &&
    Dict.get? reply Field.recipientPeerId = some (.str (identity recipient).peerId)
  | _ => false

theorem appliedFor_spec {recipient : UInt8} {log : List (SystemEvent Bool Empty)}
    (h : appliedFor recipient log = true) : ∃ sid reply early,
      log = .inl (false, some (.applied (pair true).peerId sid reply)) :: early ∧
      Dict.get? reply Field.recipientPeerId = some (.str (identity recipient).peerId) := by
  unfold appliedFor at h
  split at h
  · rename_i p sid reply early
    rw [Bool.and_eq_true, decide_eq_true_eq, decide_eq_true_eq] at h
    rw [h.1]
    exact ⟨sid, reply, early, rfl, h.2⟩
  · cases h

/-- What is checked of a run by evaluating it. -/
def answerRunOk (recipient : UInt8) (as : List (SystemAct Bool Empty)) : Bool :=
  (system.run ⟨started, []⟩ as).any fun c => appliedFor recipient c.log &&
    decide (Unforgeable pair c.log) && decide (Honest pair false c.log) &&
    decide (Honest pair true c.log)

theorem answerRunOk_spec {recipient : UInt8} {as : List (SystemAct Bool Empty)}
    (h : answerRunOk recipient as = true) : ∃ c sid reply early,
      system.run ⟨started, []⟩ as = some c ∧ Unforgeable pair c.log ∧
      Honest pair false c.log ∧ Honest pair true c.log ∧
      c.log = [] ++ .inl (false, some (.applied (pair true).peerId sid reply)) :: early ∧
      Dict.get? reply Field.recipientPeerId = some (.str (identity recipient).peerId) := by
  obtain ⟨c, hc, hchecks⟩ := (Option.any_eq_true _ _).mp h
  simp only [Bool.and_eq_true, decide_eq_true_eq] at hchecks
  obtain ⟨⟨⟨happlied, hunf⟩, hfirst⟩, hsecond⟩ := hchecks
  obtain ⟨sid, reply, early, hlog, hrec⟩ := appliedFor_spec happlied
  exact ⟨c, sid, reply, early, hc, hunf, hfirst, hsecond, hlog, hrec⟩

end Sample

/-- The first node applies an answer that the second made for somebody else's offer. -/
theorem applied_answer_redirected : ∃ c sid reply early,
    Started Sample.pair Sample.started ∧
    system.run ⟨Sample.started, []⟩ Sample.redirectRun = some c ∧
    Unforgeable Sample.pair c.log ∧ Honest Sample.pair false c.log ∧
    Honest Sample.pair true c.log ∧
    c.log = [] ++ .inl (false, some (.applied (Sample.pair true).peerId sid reply)) :: early ∧
    Dict.get? reply Field.recipientPeerId ≠ some (.str (Sample.pair false).peerId) := by
  have hok : Sample.answerRunOk 3 Sample.redirectRun = true := by decide +kernel
  obtain ⟨c, sid, reply, early, hrun, hunf, hfirst, hsecond, hlog, hrec⟩ :=
    Sample.answerRunOk_spec hok
  refine ⟨c, sid, reply, early, Sample.started_pair, hrun, hunf, hfirst, hsecond, hlog, ?_⟩
  rw [hrec]
  intro heq
  exact absurd (Json.str.inj (Option.some.inj heq)) (by decide +kernel)

theorem applied_answer_bound_sample : ∃ c sid reply early,
    system.run ⟨Sample.started, []⟩ Sample.answerRun = some c ∧
    c.log = [] ++ .inl (false, some (.applied (Sample.pair true).peerId sid reply)) :: early ∧
    AnswerBound Sample.pair false (Sample.pair true).peerId sid reply early ∧
    ∃ msg call envelope, .inl (true, some (.built (.answer msg) call envelope)) ∈ early := by
  -- the run is evaluated once, for what it does and for the condition on its steps
  obtain ⟨hok, hmeets⟩ : Sample.answerRunOk 1 Sample.answerRun = true ∧
      system.Meets (fun d a => repliesAddressed d a = true) ⟨Sample.started, []⟩
        Sample.answerRun := by
    decide +kernel
  obtain ⟨c, sid, reply, early, hrun, hunf, hfirst, hsecond, hlog, -⟩ :=
    Sample.answerRunOk_spec hok
  obtain ⟨hbound, hhonest⟩ := applied_answer_bound Sample.serdeReads Sample.jcsInjective
    Sample.started_pair hrun hunf hmeets hlog
  obtain ⟨msg, call, envelope, hbuilt, -⟩ := hhonest true rfl hsecond hfirst
  exact ⟨c, sid, reply, early, hrun, hlog, hbound, msg, call, envelope, hbuilt⟩

end P4

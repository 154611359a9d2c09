/-
  Agreement on the current session.

  The network loses, delays, reorders and duplicates lines but makes up none (`carried`).  When
  an initiator has applied an answer, the responder has taken up its offer, and the session of
  the responder changes only when it takes up another offer of the initiator or is started
  again.  `_handle_offer` does not look at the order of offers, so an older offer that arrives
  late is such another one.
-/
import P4.System.Equiv.Answer

namespace P4

section

variable {ι F : Type} [DecidableEq ι] [DecidableEq F] [Float64 F] [Crates F] [PyRepr F]
  {identities : ι → Identity F} {s : ι → Node F} {as : List (SystemAct ι F)}
  {c : Config (ι → Node F) (SystemEvent ι F)}

/-! ### The network -/

/-- The line that was written in an event. -/
def lineOf : SystemEvent ι F → Option (List UInt8)
  | .inl (_, some (.wrote line)) => some line
  | _ => none

/-- A line that reaches a node was written before, and is not addressed to another node. -/
def carried (d : Config (ι → Node F) (SystemEvent ι F)) : SystemAct ι F → Bool
  | .inl (i, .node a) => (Node.stream? a).all fun stream =>
    decide (some stream ∈ d.log.map lineOf) && addressed F (d.state i).identity.peerId stream
  | _ => true

/-- The line carries an offer to peer `p`. -/
def offerTo (F : Type) [JsonFloat F] (p : Str) (line : List UInt8) : Bool :=
  match readJsonLine (F := F) line with
  | .ok (msg, _) => decide ((Json.obj msg).textAt Field.recipientPeerId = some p) &&
    decide ((Json.obj ((payloadOf msg).getD [])).textAt Field.type = some Kind.offer)
  | .error _ => false

omit [DecidableEq ι] [DecidableEq F] [Float64 F] [Crates F] [PyRepr F] in
theorem mem_lineOf {log : List (SystemEvent ι F)} {line : List UInt8}
    (h : some line ∈ log.map lineOf) : ∃ j, .inl (j, some (.wrote line)) ∈ log := by
  obtain ⟨e, he, hline⟩ := List.mem_map.mp h
  unfold lineOf at hline
  split at hline
  · cases hline
    exact ⟨_, he⟩
  · cases hline

/-- A message that was accepted was written by a node, which built it. -/
theorem written_of_accepted (hserde : SerdeReads F) (hwrites : SerdeWrites F)
    (hb : Base64Laws F) (hstart : Started identities s)
    (hrun : system.run ⟨s, []⟩ as = some c)
    (hok : system.Meets (fun d a => carried d a = true) ⟨s, []⟩ as)
    {late early : List (SystemEvent ι F)} {i : ι} {e : Event F} {x : Acceptance F}
    (hlog : c.log = late ++ .inl (i, some e) :: early) (hx : e.acceptance? = some x) :
    Dict.get? x.1 Field.recipientPeerId = some (.str (identities i).peerId) ∧
    ∃ j line rest mid past, early = mid ++ .inl (j, some (.wrote line)) :: past ∧
      readJsonLine line = .ok (x.1, rest) ∧ senderOf x.1 = (identities j).peerId ∧
      ∃ why call envelope mid' past',
        past = mid' ++ .inl (j, some (.built why call envelope)) :: past' ∧
        Carries x.1 (identities j) call ∧ Purposeful (Machine.component j past') call why := by
  have halong : Along (fun past e => ∀ i e' x, e = .inl (i, some e') →
      e'.acceptance? = some x → ∃ j line rest, .inl (j, some (.wrote line)) ∈ past ∧
        readJsonLine line = .ok (x.1, rest) ∧
        Dict.get? x.1 Field.recipientPeerId = some (.str (identities i).peerId)) c.log := by
    refine along_of_meets hstart hrun hok ?_ ?_ ?_ ?_
    · intro past past' e hsub h i e' x heq hx
      obtain ⟨j, line, rest, hmem, hread, hrec⟩ := h i e' x heq hx
      exact ⟨j, line, rest, hsub hmem, hread, hrec⟩
    · rintro d i b n' o e hhist hd hstep heo i' e' x heq hx
      cases heq
      obtain ⟨stream, rest, r, hstream, hread, hr, -⟩ := Node.acceptance_origin hstep heo hx
      have hd' : (Node.stream? b).all (fun stream =>
          decide (some stream ∈ d.log.map lineOf) &&
            addressed F (d.state i).identity.peerId stream) = true := hd
      rw [hstream, Option.all_some, Bool.and_eq_true, decide_eq_true_eq] at hd'
      obtain ⟨j, hj⟩ := mem_lineOf hd'.1
      refine ⟨j, stream, rest, hj, hread, ?_⟩
      rw [hr, eq_of_addressed hd'.2 hread hr, hhist.identityIs]
    · intro past i i' e' x heq
      cases heq
    · intro past f i e' x heq
      cases heq
  have halong' := halong
  rw [hlog] at halong'
  obtain ⟨j, line, rest, hmem, hread, hrec⟩ := halong'.event i e x rfl hx
  obtain ⟨mid, past, hsplit⟩ := List.append_of_mem hmem
  have hlog' : c.log =
      (late ++ .inl (i, some e) :: mid) ++ .inl (j, some (.wrote line)) :: past := by
    rw [hlog, hsplit, List.append_assoc, List.cons_append]
  -- the line is no error, since the message has a sender
  obtain ⟨hwf, contact, env, K, bytes, sig, -, hv, -⟩ := verified_of_accepted hstart hrun hlog hx
  rcases soundAt hstart hrun hlog' with ⟨err, rfl⟩ | ⟨why, call, envelope, hbuilt, rfl⟩
  · have hnone := senderPeerId_of_errorLine hread
    rw [(senderOf_of_verified hserde hwf hv).1] at hnone
    cases hnone
  · obtain ⟨mid', past', hsplit'⟩ := List.append_of_mem (Machine.mem_component.mp hbuilt)
    have hlog'' : c.log = (late ++ .inl (i, some e) :: mid ++
        .inl (j, some (.wrote (envelopeLine envelope))) :: mid') ++
        .inl (j, some (.built why call envelope)) :: past' := by
      rw [hlog', hsplit']
      simp only [List.append_assoc, List.cons_append]
    obtain ⟨hbuild, hcall, hwhy⟩ := soundAt hstart hrun hlog''
    have hcarries := carries_of_line hserde hwrites hb hcall hbuild hread
    refine ⟨hrec, j, _, rest, mid, past, hsplit, hread, ?_, why, call, envelope, mid', past',
      hsplit', hcarries, hwhy⟩
    rw [senderOf, hcarries.sender]

/-! ### The responder -/

omit [DecidableEq ι] [DecidableEq F] [Float64 F] [Crates F] [PyRepr F] in
/-- When all offers that were taken up since have the same session id, it is the last one. -/
theorem lastTook_of_after {p : Str} {msg : Members F} {sid : Json F} {after past : Past F}
    (hrestart : none ∉ after)
    (hsame : ∀ msg' sid', some (.took p msg' sid') ∈ after → sid' = sid) :
    lastTook p (after ++ some (.took p msg sid) :: past) = some sid := by
  induction after with
  | nil =>
    show (if p = p then some sid else _) = _
    rw [if_pos rfl]
  | cons e after ih =>
    have hrest := ih (fun hm => hrestart (List.mem_cons_of_mem _ hm))
      (fun msg' sid' hm => hsame msg' sid' (List.mem_cons_of_mem _ hm))
    rw [List.cons_append]
    cases e with
    | none => exact absurd (List.mem_cons_self ..) hrestart
    | some e =>
      cases e with
      | took q msg' sid' =>
        show (if q = p then some sid' else lastTook p _) = _
        split_ifs with hq
        · subst hq
          rw [hsame msg' sid' (List.mem_cons_self ..)]
        · exact hrest
      | _ => exact hrest

/-- An offer that was taken up was written by the node it names as its sender. -/
theorem written_of_took (hserde : SerdeReads F) (hwrites : SerdeWrites F) (hb : Base64Laws F)
    (hstart : Started identities s)
    (hdistinct : ∀ i j, (identities i).peerId = (identities j).peerId → i = j)
    (hrun : system.run ⟨s, []⟩ as = some c)
    (hok : system.Meets (fun d a => carried d a = true) ⟨s, []⟩ as)
    {late early : List (SystemEvent ι F)} {I R : ι} {msg : Members F} {sid : Json F}
    (hlog : c.log = late ++ .inl (R, some (.took (identities I).peerId msg sid)) :: early) :
    Dict.get? ((payloadOf msg).getD []) Field.sessionId = some sid ∧
    ∃ line rest mid past, early = mid ++ .inl (I, some (.wrote line)) :: past ∧
      readJsonLine line = .ok (msg, rest) ∧ offerTo F (identities R).peerId line = true := by
  obtain ⟨hsender, -, hown, ⟨payload, hpay, htype, hsid⟩, contact, now, mid, past, hsplit⟩ :=
    accepted_of_took hserde hstart hrun hlog
  have hlog' : c.log = (late ++ .inl (R, some (.took (identities I).peerId msg sid)) :: mid) ++
      .inl (R, some (.accepted msg contact now)) :: past := by
    rw [hlog, hsplit, List.append_assoc, List.cons_append]
  obtain ⟨-, j, line, rest, mid', past', hsplit', hread, hj, -⟩ :=
    written_of_accepted hserde hwrites hb hstart hrun hok hlog' rfl
  -- the writer has the peer id that the message names
  have hjI : j = I := hdistinct j I (hj.symm.trans hsender)
  subst hjI
  refine ⟨?_, line, rest, mid ++ .inl (R, some (.accepted msg contact now)) :: mid', past', ?_,
    hread, ?_⟩
  · rw [hpay, Option.getD_some]
    exact hsid
  · rw [hsplit, hsplit', List.append_assoc, List.cons_append]
  · have hread' : readJsonLine line = .ok (msg, rest) := hread
    unfold offerTo
    rw [hread']
    dsimp only
    rw [hpay, Option.getD_some, Bool.and_eq_true, decide_eq_true_eq, decide_eq_true_eq]
    exact ⟨Json.textAt_obj.mpr hown, Json.textAt_obj.mpr htype⟩

/-- The offer that the responder has taken up for an answer that the initiator applied. -/
theorem took_of_applied (hserde : SerdeReads F) (hwrites : SerdeWrites F) (hb : Base64Laws F)
    (hstart : Started identities s)
    (hdistinct : ∀ i j, (identities i).peerId = (identities j).peerId → i = j)
    (hrun : system.run ⟨s, []⟩ as = some c)
    (hok : system.Meets (fun d a => carried d a = true) ⟨s, []⟩ as)
    {late early : List (SystemEvent ι F)} {I R : ι} {sid : Json F} {reply : Members F}
    (hlog : c.log = late ++ .inl (I, some (.applied (identities R).peerId sid reply)) :: early) :
    (identities I).peerId.lt (identities R).peerId = true ∧
    ∃ msg mid past,
      early = mid ++ .inl (R, some (.took (identities I).peerId msg sid)) :: past := by
  obtain ⟨hdials, -, hreplied⟩ := soundAt hstart hrun hlog
  refine ⟨hdials, ?_⟩
  obtain ⟨contact, now, hacc⟩ := hreplied.accepted
  obtain ⟨mid, past, hsplit⟩ := List.append_of_mem (Machine.mem_component.mp hacc)
  have hlog' : c.log = (late ++ .inl (I, some (.applied (identities R).peerId sid reply)) :: mid) ++
      .inl (I, some (.replyAccepted reply contact now)) :: past := by
    rw [hlog, hsplit, List.append_assoc, List.cons_append]
  obtain ⟨hrec, j, line, rest, mid₁, past₁, hsplit₁, -, hj, why, call, envelope, mid₂, past₂,
    hsplit₂, hcarries, hwhy⟩ := written_of_accepted hserde hwrites hb hstart hrun hok hlog' rfl
  have hjR : j = R := hdistinct j R (hj.symm.trans hreplied.sender)
  subst hjR
  obtain ⟨payload, sidText, hpay, hsid, htype, hsession⟩ := checkAnswer_ok hreplied.checked
  obtain ⟨msg, sid', desc, -, hto, hcall, htook⟩ := hwhy.of_answer (hcarries.textAt hpay htype)
  obtain ⟨mid₃, past₃, hsplit₃⟩ := List.append_of_mem (Machine.mem_component.mp htook)
  have hlog₃ : c.log = (late ++ .inl (I, some (.applied (identities j).peerId sid reply)) :: mid ++
      .inl (I, some (.replyAccepted reply contact now)) :: mid₁ ++
      .inl (j, some (.wrote line)) :: mid₂ ++
      .inl (j, some (.built why call envelope)) :: mid₃) ++
      .inl (j, some (.took (senderOf msg) msg sid')) :: past₃ := by
    rw [hlog', hsplit₁, hsplit₂, hsplit₃]
    simp only [List.append_assoc, List.cons_append]
  obtain ⟨-, hplain, -⟩ := accepted_of_took hserde hstart hrun hlog₃
  -- the answer is addressed to the sender of the offer, which is the initiator
  have hsender : senderOf msg = (identities I).peerId := by
    obtain ⟨to', hto', hrec'⟩ := hcarries.recipient
    rw [hto] at hto'
    cases hto'
    rw [hplain.cStr_eq] at hrec'
    exact Json.str.inj (Option.some.inj (hrec'.symm.trans hrec))
  have hsid' : sid' = sid := by
    have htext := hcarries.textAt hpay hsession
    rw [hcall, textAt_descPayload_sessionId, Json.text?_eq_some] at htext
    rw [htext, hsid]
  refine ⟨msg, mid ++ .inl (I, some (.replyAccepted reply contact now)) :: mid₁ ++
    .inl (j, some (.wrote line)) :: mid₂ ++ .inl (j, some (.built why call envelope)) :: mid₃,
    past₃, ?_⟩
  rw [hsplit, hsplit₁, hsplit₂, hsplit₃, hsender, hsid']
  simp only [List.append_assoc, List.cons_append]

/-- Node `I` wrote an offer to peer `p`. -/
def isOffer (I : ι) (p : Str) : SystemEvent ι F → Bool
  | .inl (i, some (.wrote line)) => decide (i = I) && offerTo F p line
  | _ => false

/-- The node has written no offer to peer `p`. -/
def NoOffer (I : ι) (p : Str) (log : List (SystemEvent ι F)) : Prop :=
  ∀ e ∈ log, isOffer I p e = false

instance (I : ι) (p : Str) (log : List (SystemEvent ι F)) : Decidable (NoOffer I p log) :=
  List.decidableBAll _ log

/-- None of the offers of peer `p` that `R` took up in `after` was written by `I` in `before`. -/
def NoOlder (I R : ι) (p : Str) (before after : List (SystemEvent ι F)) : Prop :=
  ∀ msg sid line rest, .inl (R, some (.took p msg sid)) ∈ after →
    .inl (I, some (.wrote line)) ∈ before → readJsonLine line ≠ .ok (msg, rest)

/-- When the initiator has applied the answer to an offer, the responder has taken up this offer;
its session keeps the session id of it as long as the initiator writes no other offer to it, the
responder takes up no offer that was written earlier, and it is not started again.

The applied answer leads back to the offer that was taken up (`took_of_applied`) and to the line of
it.  Whatever offer of the initiator is taken up later was written later, which is excluded, or
earlier, which is excluded too, or is this one, so the last id that was taken up is `sid`. -/
theorem session_agreement (hserde : SerdeReads F) (hwrites : SerdeWrites F) (hb : Base64Laws F)
    (hstart : Started identities s)
    (hdistinct : ∀ i j, (identities i).peerId = (identities j).peerId → i = j)
    (hrun : system.run ⟨s, []⟩ as = some c)
    (hok : system.Meets (fun d a => carried d a = true) ⟨s, []⟩ as)
    {late early : List (SystemEvent ι F)} {I R : ι} {sid : Json F} {reply : Members F}
    (hlog : c.log = late ++ .inl (I, some (.applied (identities R).peerId sid reply)) :: early) :
    ∃ msg line rest mid between before,
      early = mid ++ .inl (R, some (.took (identities I).peerId msg sid)) ::
        (between ++ .inl (I, some (.wrote line)) :: before) ∧
      readJsonLine line = .ok (msg, rest) ∧ offerTo F (identities R).peerId line = true ∧
      (NoOffer I (identities R).peerId (late ++ mid ++ between) →
        NoOlder I R (identities I).peerId before (late ++ mid) → .inl (R, none) ∉ late ++ mid →
        ∃ w, Dict.get? (c.state R).sessions (identities I).peerId = some w ∧
          w.session.currentSessionId = sid) := by
  obtain ⟨hdials, msg, mid, past, hsplit⟩ :=
    took_of_applied hserde hwrites hb hstart hdistinct hrun hok hlog
  have htook : c.log = (late ++ .inl (I, some (.applied (identities R).peerId sid reply)) :: mid) ++
      .inl (R, some (.took (identities I).peerId msg sid)) :: past := by
    rw [hlog, hsplit, List.append_assoc, List.cons_append]
  obtain ⟨hsid, line, rest, between, before, hpast, hread, hoffer⟩ :=
    written_of_took hserde hwrites hb hstart hdistinct hrun hok htook
  refine ⟨msg, line, rest, mid, between, before, ?_, hread, hoffer, ?_⟩
  · rw [hsplit, hpast]
  intro hnewer holder hrestart
  obtain ⟨after, hafter⟩ : ∃ after, after =
      late ++ .inl (I, some (.applied (identities R).peerId sid reply)) :: mid := ⟨_, rfl⟩
  have hmem : ∀ {e}, e ∈ after → e = .inl (I, some (.applied (identities R).peerId sid reply)) ∨
      e ∈ late ++ mid := by
    intro e he
    rw [hafter] at he
    simp only [List.mem_append, List.mem_cons] at he ⊢
    tauto
  rw [← hafter] at htook
  -- every offer that was taken up since is the same one
  have hsame : ∀ msg' sid', .inl (R, some (.took (identities I).peerId msg' sid')) ∈ after →
      sid' = sid := by
    intro msg' sid' he
    obtain ⟨newer, older, hsplit'⟩ := List.append_of_mem he
    have hlog' : c.log = newer ++ .inl (R, some (.took (identities I).peerId msg' sid')) ::
        (older ++ .inl (R, some (.took (identities I).peerId msg sid)) :: past) := by
      rw [htook, hsplit', List.append_assoc, List.cons_append]
    obtain ⟨hsid', line', rest', mid', past', hsplit'', hread', hoffer'⟩ :=
      written_of_took hserde hwrites hb hstart hdistinct hrun hok hlog'
    have hwrote : .inl (I, some (.wrote line')) ∈ older ++
        .inl (R, some (.took (identities I).peerId msg sid)) ::
          (between ++ .inl (I, some (.wrote line)) :: before) := by
      rw [← hpast, hsplit'']
      exact List.mem_append_right _ (List.mem_cons_self ..)
    have hnew : .inl (I, some (.wrote line')) ∉ late ++ mid ++ between := by
      intro hm
      have hnone : (decide (I = I) && offerTo F (identities R).peerId line') = false :=
        hnewer _ hm
      rw [hoffer', decide_eq_true rfl] at hnone
      cases hnone
    have hnew' : .inl (I, some (.wrote line')) ∉ after := by
      intro hm
      rcases hmem hm with heq | hm
      · cases heq
      · exact hnew (List.mem_append_left _ hm)
    rw [List.mem_append, List.mem_cons, List.mem_append, List.mem_cons] at hwrote
    rcases hwrote with hm | heq | hm | heq | hm
    · refine absurd ?_ hnew'
      rw [hsplit']
      exact List.mem_append_right _ (List.mem_cons_of_mem _ hm)
    · cases heq
    · exact absurd (List.mem_append_right _ hm) hnew
    · cases heq
      have hmsg : msg' = msg := by
        rw [hread] at hread'
        cases hread'
        rfl
      rw [hmsg, hsid] at hsid'
      exact (Option.some.inj hsid').symm
    · rcases hmem he with heq | he'
      · cases heq
      · exact absurd hread' (holder msg' sid' line' rest' he' hm)
  have hlast : lastTook (identities I).peerId (Machine.component R c.log) = some sid := by
    rw [htook, Machine.component_append, Machine.component_cons_self]
    refine lastTook_of_after ?_ ?_
    · intro hm
      rcases hmem (Machine.mem_component.mp hm) with heq | hm
      · cases heq
      · exact hrestart hm
    · exact fun msg' sid' hm => hsame msg' sid' (Machine.mem_component.mp hm)
  have hhistory := history_component hstart hrun R
  cases hw : Dict.get? (c.state R).sessions (identities I).peerId with
  | none =>
    rw [hhistory.absent _ hw] at hlast
    cases hlast
  | some w =>
    refine ⟨w, rfl, ?_⟩
    rw [(hhistory.sessions _ w hw).latest (Str.lt_asymm hdials), hlast, Option.getD_some]

end

/-! ### An offer that arrives late -/

namespace Sample

/-- The session id in the offer that a line carries. -/
def sessionOf (line : List UInt8) : Option (Json Empty) :=
  match readJsonLine line with
  | .ok (msg, _) => Dict.get? ((payloadOf msg).getD []) Field.sessionId
  | .error _ => none

/-- The first node waits in vain for an answer to its first offer and makes a second one, which
is answered; then the first offer arrives. -/
def lateOfferRun : List (SystemAct Bool Empty) :=
  dialing ++
  [.inl (false, .node (.raised (pair true).peerId 0 (.builtin (Str.lit "TimeoutError")))),
   .inl (false, .node (.dial (pair true).peerId)),
   .inl (false, .node (.session (pair true).peerId (.acquire 1 ['t']))),
   .inl (false, .node (.session (pair true).peerId (.closed 1 ['t']))),
   .inl (false, .node (.request (pair true).peerId 1 desc 1001 (random 6) true)),
   .inl (true, .node (.addContact (invited 1) true)),
   .inl (true, .node (.inbound (offerLine (pair true).peerId ['t'] 6 1001) 1002 1003 (random 8))),
   .inl (true, .node (.session (pair false).peerId (.acquire 0 []))),
   .inl (true, .node (.answer (pair false).peerId 0 desc 1003 (random 9))),
   .inl (false, .node (.reply (pair true).peerId 1
     (line 2 1 (descPayload Kind.answer (.str (Str.ofText ['t'])) desc) 9 1003) 1004)),
   .inl (false, .node (.session (pair true).peerId (.applied 1))),
   .inl (true, .node (.inbound (offerLine (pair true).peerId ['s'] 7 1000) 1005 1006 (random 8))),
   .inl (true, .node (.session (pair false).peerId (.acquire 1 []))),
   .inl (true, .node (.session (pair false).peerId (.closed 1 [])))]

/-- What is checked of the run by evaluating it: the offer whose answer was applied is the last
one of the first node, and the second node has another session. -/
def lateOffer (c : Config (Bool → Node Empty) (SystemEvent Bool Empty)) : Bool :=
  match c.log with
  | e₁ :: e₂ :: .inl (false, some (.applied p sid _)) :: e₃ :: e₄ :: e₅ :: e₆ :: e₇ ::
      .inl (false, some (.wrote line)) :: _ =>
    p = (pair true).peerId && offerTo Empty p line && sessionOf line = some sid &&
      decide (NoOffer false p [e₁, e₂, e₃, e₄, e₅, e₆, e₇]) &&
      decide (∀ e ∈ c.log, e ≠ .inl (true, none)) &&
      (Dict.get? (c.state true).sessions (pair false).peerId).any fun w =>
        decide (w.session.currentSessionId ≠ sid)
  | _ => false

theorem lateOffer_spec {c : Config (Bool → Node Empty) (SystemEvent Bool Empty)}
    (h : lateOffer c = true) : ∃ late mid before sid reply line,
      c.log = late ++ .inl (false, some (.applied (pair true).peerId sid reply)) ::
        (mid ++ .inl (false, some (.wrote line)) :: before) ∧
      offerTo Empty (pair true).peerId line = true ∧ sessionOf line = some sid ∧
      NoOffer false (pair true).peerId (late ++ mid) ∧ .inl (true, none) ∉ c.log ∧
      ∃ w, Dict.get? (c.state true).sessions (pair false).peerId = some w ∧
        w.session.currentSessionId ≠ sid := by
  unfold lateOffer at h
  split at h
  · rename_i e₁ e₂ p sid reply e₃ e₄ e₅ e₆ e₇ line before hlog
    simp only [Bool.and_eq_true, decide_eq_true_eq, Option.any_eq_true] at h
    obtain ⟨⟨⟨⟨⟨hp, hoffer⟩, hsid⟩, hno⟩, hrestart⟩, w, hw, hne⟩ := h
    subst hp
    exact ⟨[e₁, e₂], [e₃, e₄, e₅, e₆, e₇], before, sid, reply, line, hlog, hoffer, hsid, hno,
      fun hm => hrestart _ hm rfl, w, hw, hne⟩
  · cases h

theorem pair_injective (i j : Bool) (h : (pair i).peerId = (pair j).peerId) : i = j := by
  have hne : (pair false).peerId ≠ (pair true).peerId := by decide
  cases i <;> cases j
  · rfl
  · exact absurd h hne
  · exact absurd h.symm hne
  · rfl

end Sample

/-- The session of the responder does not keep the id of the last offer, whose answer the
initiator has applied: an older offer replaces it. -/
theorem late_offer_replaces_session : ∃ c late mid before sid reply line,
    Started Sample.pair Sample.started ∧
    system.run ⟨Sample.started, []⟩ Sample.lateOfferRun = some c ∧
    system.Meets (fun d a => carried d a = true) ⟨Sample.started, []⟩ Sample.lateOfferRun ∧
    c.log = late ++ .inl (false, some (.applied (Sample.pair true).peerId sid reply)) ::
      (mid ++ .inl (false, some (.wrote line)) :: before) ∧
    offerTo Empty (Sample.pair true).peerId line = true ∧ Sample.sessionOf line = some sid ∧
    NoOffer false (Sample.pair true).peerId (late ++ mid) ∧ .inl (true, none) ∉ c.log ∧
    ∃ w, Dict.get? (c.state true).sessions (Sample.pair false).peerId = some w ∧
      w.session.currentSessionId ≠ sid := by
  obtain ⟨hmeets, hrunOk⟩ : system.Meets (fun d a => carried d a = true) ⟨Sample.started, []⟩
        Sample.lateOfferRun ∧
      (system.run ⟨Sample.started, []⟩ Sample.lateOfferRun).any Sample.lateOffer = true := by
    decide +kernel
  obtain ⟨c, hrun, hlate⟩ := (Option.any_eq_true _ _).mp hrunOk
  obtain ⟨late, mid, before, sid, reply, line, hlog, hoffer, hsid, hno, hrestart, hw⟩ :=
    Sample.lateOffer_spec hlate
  exact ⟨c, late, mid, before, sid, reply, line, Sample.started_pair, hrun, hmeets, hlog, hoffer,
    hsid, hno, hrestart, hw⟩

namespace Sample

/-- The first node wrote a line. -/
def firstWrote : SystemEvent Bool Empty → Bool
  | .inl (false, some (.wrote _)) => true
  | _ => false

/-- The first node wrote one line, and the second was not started again. -/
def oneOffer (c : Config (Bool → Node Empty) (SystemEvent Bool Empty)) : Bool :=
  c.log.countP firstWrote = 1 &&
    decide (∀ e ∈ c.log, e ≠ .inl (true, none))

theorem noOffer_of_countP {p : Str} {log : List (SystemEvent Bool Empty)}
    (h : log.countP firstWrote = 0) : NoOffer false p log := by
  intro e he
  have hnot := List.countP_eq_zero.mp h e he
  unfold isOffer
  split
  · rename_i i line
    cases i
    · exact absurd rfl hnot
    · rfl
  · rfl

end Sample

theorem session_agreement_sample : ∃ c sid reply early,
    system.run ⟨Sample.started, []⟩ Sample.answerRun = some c ∧
    c.log = [] ++ .inl (false, some (.applied (Sample.pair true).peerId sid reply)) :: early ∧
    ∃ w, Dict.get? (c.state true).sessions (Sample.pair false).peerId = some w ∧
      w.session.currentSessionId = sid := by
  obtain ⟨hok, hmeets, hone⟩ : Sample.answerRunOk 1 Sample.answerRun = true ∧
      system.Meets (fun d a => carried d a = true) ⟨Sample.started, []⟩ Sample.answerRun ∧
      (system.run ⟨Sample.started, []⟩ Sample.answerRun).all Sample.oneOffer = true := by
    decide +kernel
  obtain ⟨c, sid, reply, early, hrun, -, -, -, hlog, -⟩ := Sample.answerRunOk_spec hok
  obtain ⟨msg, line, rest, mid, between, before, hsplit, -, -, hagree⟩ :=
    session_agreement Sample.serdeReads Sample.serdeWrites Sample.base64Laws Sample.started_pair
      Sample.pair_injective hrun hmeets hlog
  refine ⟨c, sid, reply, early, hrun, hlog, ?_⟩
  rw [hrun, Option.all_some, Sample.oneOffer, Bool.and_eq_true, decide_eq_true_eq,
    decide_eq_true_eq] at hone
  obtain ⟨hcount, hrestart⟩ := hone
  rw [hlog, hsplit] at hcount hrestart
  -- the one line that was written is that of the offer
  have hzero : mid.countP Sample.firstWrote = 0 ∧ between.countP Sample.firstWrote = 0 ∧
      before.countP Sample.firstWrote = 0 := by
    simp only [List.nil_append, List.countP_cons, List.countP_append, Sample.firstWrote] at hcount
    simp at hcount
    omega
  obtain ⟨hmid, hbetween, hbefore⟩ := hzero
  refine hagree ?_ ?_ ?_
  · refine Sample.noOffer_of_countP ?_
    rw [List.nil_append, List.countP_append, hmid, hbetween]
  · intro msg' sid' line' rest' _ hm
    exact absurd rfl (List.countP_eq_zero.mp hbefore _ hm)
  · intro hm
    rw [List.nil_append] at hm
    refine hrestart _ ?_ rfl
    exact List.mem_append_right _ (List.mem_cons_of_mem _ (List.mem_append_left _ hm))

end P4

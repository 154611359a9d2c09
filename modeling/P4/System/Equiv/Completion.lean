/-
  A handshake can always be completed.

  Whatever has happened (coroutines that wait for replies that never come, connections that were
  lost, lines of strangers), a node that has a maintainer for a peer can still get from a dial to
  an applied answer, when both have each other's keys and the network makes nothing up
  (`handshake_can_complete`).  The coroutines that are in the way can end, since whoever holds the
  lock of a session can go on (`Node.released_run`); what is sent then is accepted
  (`exists_sent`).
-/
import P4.Node.Equiv.Exchange
import P4.Node.Equiv.Sessions
import P4.Run.Reach
import P4.System.Equiv.Agreement
import P4.System.Equiv.Glare

namespace P4

/-- The later of two assignments counts. -/
theorem Dict.set_set {κ α : Type} [DecidableEq κ] (d : Dict κ α) (k : κ) (v v' : α) :
    Dict.set (Dict.set d k v) k v' = Dict.set d k v' := by
  induction d with
  | nil => simp [Dict.set]
  | cons kv d ih =>
    by_cases h : kv.1 = k
    · simp [Dict.set, h]
    · simp [Dict.set, h, ih]

section

variable {ι F : Type} [DecidableEq ι] [DecidableEq F] [Float64 F] [Crates F] [PyRepr F]
  {identities : ι → Identity F} {s : ι → Node F} {as : List (SystemAct ι F)}
  {c d : Config (ι → Node F) (SystemEvent ι F)}

/-! ### Steps of the nodes -/

/-- A node acts, other than by adding a contact, and the network makes nothing up. -/
def ordinary (d : Config (ι → Node F) (SystemEvent ι F)) : SystemAct ι F → Bool
  | .inl (i, .node a) => carried d (.inl (i, .node a)) && !a.isAdd
  | _ => false

/-- The nodes can get from `c` to `d` by ordinary steps. -/
def Leads (c d : Config (ι → Node F) (SystemEvent ι F)) : Prop :=
  system.Reaches (fun d a => ordinary d a = true) c d

/-- The events of node `i`, before the log. -/
def noting (i : ι) (out : List (Event F)) (log : List (SystemEvent ι F)) :
    List (SystemEvent ι F) :=
  (out.map fun e => Sum.inl (i, some e)).reverse ++ log

omit [DecidableEq ι] [DecidableEq F] [Float64 F] [Crates F] [PyRepr F] in
theorem mem_lineOf_noting {i : ι} {out : List (Event F)} {log : List (SystemEvent ι F)}
    {line : List UInt8} (h : .wrote line ∈ out) : some line ∈ (noting i out log).map lineOf := by
  refine List.mem_map.mpr ⟨.inl (i, some (.wrote line)), ?_, rfl⟩
  apply List.mem_append_left
  rw [List.mem_reverse]
  exact List.mem_map.mpr ⟨_, h, rfl⟩

/-- An ordinary step of a node is one of the system. -/
theorem leads_node {i : ι} {a : Act F} {n' : Node F} {out : List (Event F)}
    (h : Node.step (c.state i) a = some (n', out)) (ha : ordinary c (.inl (i, .node a)) = true) :
    Leads c ⟨Function.update c.state i n', noting i out c.log⟩ := by
  have hhost : Node.host (c.state i) (.node a) = some (n', out.map some) := by
    simp only [Node.host, h, Option.map_some]
  have hstep := Machine.beside_product_step (β := Foreign) hhost
  rw [List.map_map, List.map_map] at hstep
  exact Machine.Reaches.of_step hstep ha

/-- The node with another state of the session of peer `p`. -/
def Node.withSession {F : Type} [Crates F] (n : Node F) (p : Str) (w : SessionWorld F) : Node F :=
  { n with sessions := Dict.set n.sessions p w }

/-- Node `i` with another state of the session of peer `p`. -/
def putSession (s : ι → Node F) (i : ι) (p : Str) (w : SessionWorld F) : ι → Node F :=
  Function.update s i ((s i).withSession p w)

omit [DecidableEq F] [Float64 F] [PyRepr F] in
theorem putSession_putSession (s : ι → Node F) (i : ι) (p : Str) (w w' : SessionWorld F) :
    putSession (putSession s i p w) i p w' = putSession s i p w' := by
  simp [putSession, Node.withSession, Dict.set_set]

omit [DecidableEq F] [Float64 F] [PyRepr F] in
theorem putSession_self {i : ι} {p : Str} {w : SessionWorld F}
    (hw : Dict.get? (s i).sessions p = some w) : putSession s i p w = s := by
  rw [putSession, Node.withSession, Dict.set_eq_self_iff.mpr hw]
  exact Function.update_eq_self i s

omit [DecidableEq F] [Float64 F] [PyRepr F] in
theorem get?_putSession (s : ι → Node F) (i : ι) (p : Str) (w : SessionWorld F) :
    Dict.get? (putSession s i p w i).sessions p = some w := by
  rw [putSession, Function.update_self, Node.withSession, Dict.get?_set, if_pos rfl]

omit [DecidableEq F] [Float64 F] [PyRepr F] in
theorem putSession_of_ne {i j : ι} (h : j ≠ i) (p : Str) (w : SessionWorld F) :
    putSession s i p w j = s j :=
  Function.update_of_ne h _ _

/-! ### Steps of a session -/

section

variable {i : ι} {p : Str} {w w' : SessionWorld F} {o : List (SessionEvent F)}

omit [DecidableEq F] [Float64 F] [PyRepr F] in
theorem stepSession_of_step {n : Node F} {a : SessionAct F}
    (hw : Dict.get? n.sessions p = some w) (hs : SessionWorld.step w a = some (w', o)) :
    n.stepSession p a = some (n.withSession p w', o.map (Node.sessionEvent p)) :=
  Node.stepSession_eq_some.mpr ⟨w, w', o, hw, hs, rfl, rfl⟩

/-- A step of a session that the node takes by itself. -/
theorem leads_session {a : SessionAct F} (hw : Dict.get? (c.state i).sessions p = some w)
    (hs : SessionWorld.step w a = some (w', o)) (ha : a.isInternal = true) :
    Leads c ⟨putSession c.state i p w', noting i (o.map (Node.sessionEvent p) ++
      Node.incompleteOffer (c.state i) ((c.state i).withSession p w') p a) c.log⟩ := by
  have hstep : Node.step (c.state i) (.session p a) =
      some ((c.state i).withSession p w', o.map (Node.sessionEvent p) ++
        Node.incompleteOffer (c.state i) ((c.state i).withSession p w') p a) := by
    simp only [Node.step, ha, if_true, stepSession_of_step hw hs]
    rfl
  exact leads_node hstep rfl

/-- By induction on the internal steps of a session. -/
theorem leads_sessionRun {acts : List (SessionAct F)} (hacts : ∀ a ∈ acts, a.isInternal = true)
    {l l' : List (SessionEvent F)} (hw : Dict.get? (c.state i).sessions p = some w)
    (hrun : Machine.run SessionWorld.step ⟨w, l⟩ acts = some ⟨w', l'⟩) :
    ∃ d, Leads c d ∧ d.state = putSession c.state i p w' := by
  induction acts generalizing c w l with
  | nil =>
    cases hrun
    exact ⟨c, .refl c, (putSession_self hw).symm⟩
  | cons a acts ih =>
    rw [List.forall_mem_cons] at hacts
    obtain ⟨⟨v, l₁⟩, hnext, hrun⟩ := Machine.run_cons.mp hrun
    obtain ⟨o, hs, -⟩ := Machine.next_eq_some.mp hnext
    have hfirst := leads_session hw hs hacts.1
    obtain ⟨d, hd, hstate⟩ := ih (c := ⟨putSession c.state i p v, _⟩) hacts.2
      (get?_putSession _ _ _ _) hrun
    refine ⟨d, hfirst.trans hd, ?_⟩
    rw [hstate]
    exact putSession_putSession _ _ _ _ _

/-- A coroutine ends. -/
theorem leads_raised {t : Nat} {task : Task F} (hw : Dict.get? (c.state i).sessions p = some w)
    (ht : w.tasks[t]? = some task) (ha : task.alive = true) :
    ∃ d, Leads c d ∧ d.state = putSession c.state i p (w.finish t) := by
  have hsess : (c.state i).stepSession p (.raised t) =
      some ((c.state i).withSession p (w.finish t), []) :=
    stepSession_of_step hw (SessionWorld.step_raised ht ha)
  have hstep : ∃ out, Node.step (c.state i) (.raised p t (.builtin [])) =
      some ((c.state i).withSession p (w.finish t), out) := by
    simp only [Node.step, hsess, Option.map_some]
    split <;> exact ⟨_, rfl⟩
  obtain ⟨out, hout⟩ := hstep
  exact ⟨_, leads_node hout rfl, rfl⟩

/-- The coroutines of a session end, one after the other. -/
theorem leads_drained (hw : Dict.get? (c.state i).sessions p = some w) (hr : w.Released) :
    ∃ d w', Leads c d ∧ d.state = putSession c.state i p w' ∧ w'.Drained ∧
      w'.session = w.session := by
  -- the number of coroutines that have not ended is lowered until there are none
  let P : Config (ι → Node F) (SystemEvent ι F) → Prop := fun d => ∃ v,
    d.state = putSession c.state i p v ∧ v.Released ∧ v.session = w.session
  let alive : Config (ι → Node F) (SystemEvent ι F) → Nat := fun d =>
    (Dict.get? (d.state i).sessions p).elim 0 fun v => v.tasks.countP Task.alive
  have halive : ∀ (d : Config (ι → Node F) (SystemEvent ι F)) (v : SessionWorld F),
      d.state = putSession c.state i p v → alive d = v.tasks.countP Task.alive := by
    intro d v hd
    show (Dict.get? (d.state i).sessions p).elim _ _ = _
    rw [hd, get?_putSession]
    rfl
  have hlower : ∀ d, P d → alive d ≠ 0 → ∃ e, Leads d e ∧ P e ∧ alive e < alive d := by
    rintro d ⟨v, hstate, hreleased, hsession⟩ hpos
    rw [halive d v hstate, ← Nat.pos_iff_ne_zero, List.countP_pos_iff] at hpos
    obtain ⟨task, hmem, ha⟩ := hpos
    obtain ⟨t, ht⟩ := List.mem_iff_getElem?.mp hmem
    have hv : Dict.get? (d.state i).sessions p = some v := by
      rw [hstate]
      exact get?_putSession _ _ _ _
    obtain ⟨e, he, hnext⟩ := leads_raised hv ht ha
    rw [hstate, putSession_putSession] at hnext
    refine ⟨e, he, ⟨_, hnext, hreleased.finish t, hsession⟩, ?_⟩
    rw [halive e _ hnext, halive d v hstate, ← SessionWorld.countP_finish ht ha]
    omega
  obtain ⟨d, hd, ⟨v, hstate, hreleased, hsession⟩, hzero⟩ :=
    Machine.Reaches.exhaust hlower ⟨w, (putSession_self hw).symm, hr, rfl⟩
  rw [halive d v hstate] at hzero
  exact ⟨d, v, hd, hstate, SessionWorld.drained_of_finished hreleased hzero, hsession⟩

end

/-! ### The offer -/

omit [DecidableEq F] [Float64 F] [Crates F] [PyRepr F] in
theorem entering_internal (w : SessionWorld F) (t : Nat) (sid : Text) :
    ∀ a ∈ w.entering t sid, a.isInternal = true := by
  intro a ha
  unfold SessionWorld.entering at ha
  split_ifs at ha <;> simp at ha <;> rcases ha with rfl | rfl <;> rfl

/-- `_initiate_with_contact` uses the transport of the contact. -/
def Contact.dialable (contact : Contact F) : Bool :=
  contact.rendezvous.transport.eqStr Kind.direct || contact.rendezvous.transport.eqStr Kind.onion

/-- A maintainer dials and sends its offer. -/
theorem leads_offer {I : ι} {p : Str} {w : SessionWorld F}
    (hw : Dict.get? (c.state I).sessions p = some w) (hd : w.Drained)
    (hmem : p ∈ (c.state I).maintainers) (hconn : w.session.connected = false)
    (hto : w.session.contact.val.peerId = .str p) (hdial : w.session.contact.val.dialable = true)
    {sid : Text} {desc : Text × Text} {random : FixedBytes 16} {now : UInt64} {m : Members F}
    (hbuild : buildMessage (c.state I).identity (.str p)
      (descPayload Kind.offer (.str (Str.ofText sid)) desc) random now = .ok (.obj m)) :
    ∃ d w', ∃ t : Nat, Leads c d ∧ d.state = putSession c.state I p w' ∧
      some (writeJsonLine m) ∈ d.log.map lineOf ∧
      w'.tasks[t]? = some (Task.initiate .requesting) ∧
      w'.session.currentSessionId = .str (Str.ofText sid) ∧
      w'.session.contact = w.session.contact := by
  -- the maintainer calls `_initiate_with_contact`
  have hcall : Node.step (c.state I) (.dial p) =
      some ((c.state I).withSession p (w.call (.initiate .lock)), []) := by
    have hs : SessionWorld.step w .callInitiate = some (w.call (.initiate .lock), []) := rfl
    simp only [Node.step, hw, hmem, hconn, and_self, if_true]
    exact stepSession_of_step hw hs
  have hdialed := leads_node hcall rfl
  -- the previous connection is closed and the description prepared
  obtain ⟨v, hrun, htask, hsid, howner⟩ := SessionWorld.run_initiate hd hconn sid
  obtain ⟨d, hd, hstate⟩ := leads_sessionRun
    (c := ⟨putSession c.state I p (w.call (.initiate .lock)), _⟩) (entering_internal w _ sid)
    (get?_putSession _ _ _ _) hrun
  rw [putSession_putSession] at hstate
  have hcontact : v.session.contact = w.session.contact := congrArg Prod.fst howner
  -- the offer is signed and sent
  have hv : Dict.get? (d.state I).sessions p = some v := by
    rw [hstate]
    exact get?_putSession _ _ _ _
  have hid : (d.state I).identity = (c.state I).identity := by
    rw [hstate, putSession, Function.update_self]
    rfl
  have hgathered : SessionWorld.step v (.gathered w.tasks.length) =
      some (v.suspend w.tasks.length (.initiate .requesting), []) := by
    simp only [SessionWorld.step, htask]
  let call : BuildCall F :=
    { toPeerId := .str p
      payload := descPayload Kind.offer (.str (Str.ofText sid)) desc
      random := random
      nowMs := now }
  have hrequest : Node.step (d.state I) (.request p w.tasks.length desc now random true) =
      some ((d.state I).withSession p (v.suspend w.tasks.length (.initiate .requesting)),
        [.built .offer call (.obj m), .wrote (writeJsonLine m)]) := by
    have ht := Node.task?_eq_some.mpr ⟨hv, htask⟩
    have htransport : (v.session.contact.val.rendezvous.transport.eqStr Kind.direct ||
        v.session.contact.val.rendezvous.transport.eqStr Kind.onion) = true := by
      rw [hcontact]
      exact hdial
    rw [← hcontact] at hto
    rw [← hid] at hbuild
    simp only [Node.step, Node.requestOffer, ht, hto, hsid, hbuild, htransport, Bool.and_self,
      if_true, stepSession_of_step hv hgathered, Option.map_some]
    rfl
  have hlt : w.tasks.length < v.tasks.length := (List.getElem?_eq_some_iff.mp htask).1
  refine ⟨_, v.suspend w.tasks.length (.initiate .requesting), w.tasks.length,
    (hdialed.trans hd).trans (leads_node hrequest rfl), ?_, ?_, ?_, hsid, hcontact⟩
  · show putSession d.state I p _ = _
    rw [hstate, putSession_putSession]
  · exact mem_lineOf_noting (by simp)
  · exact List.getElem?_set_self hlt

/-! ### The answer -/

/-- A node takes an offer up that was written to it, and answers. -/
theorem leads_answer {R : ι} {p : Str} {w : SessionWorld F}
    (hw : Dict.get? (c.state R).sessions p = some w) (hd : w.Drained)
    {stream rest : List UInt8} {msg payload : Members F}
    (hwritten : some stream ∈ c.log.map lineOf)
    (haddr : addressed F (c.state R).identity.peerId stream = true)
    (hread : readJsonLine stream = .ok (msg, rest)) {received : UInt64} {replay : ReplayWindow}
    (hval : validateMessage (c.state R).contacts (c.state R).replay msg none
      (some (.str (c.state R).identity.peerId)) received = (.ok (), replay))
    (hsender : senderOf msg = p) (hpayload : payloadOf msg = some payload)
    (htype : Dict.get? payload Field.type = some (.str Kind.offer)) {sid : Json F}
    (hcomplete : SessionWorld.Complete msg sid)
    {desc : Text × Text} {random : FixedBytes 16} {now : UInt64} {m : Members F}
    (hbuild : buildMessage (c.state R).identity (.str p) (descPayload Kind.answer sid desc) random
      now = .ok (.obj m)) :
    ∃ d w', Leads c d ∧
      d.state = putSession (Function.update c.state R { c.state R with replay := replay }) R p w' ∧
      some (writeJsonLine m) ∈ d.log.map lineOf ∧ w'.session.currentSessionId = sid := by
  -- the line is read and `_handle_offer` called
  let n : Node F := { c.state R with replay := replay }
  have hcall : Node.step (c.state R) (.inbound stream received now random) =
      some (n.withSession p (w.call (.offer msg .lock)),
        [.accepted msg (Dict.get? (c.state R).contacts (.str p)) received]) := by
    have hs : SessionWorld.step w (.callOffer msg) = some (w.call (.offer msg .lock), []) := rfl
    have hsess := stepSession_of_step (n := n) hw hs
    have hoffer : (Json.str Kind.offer : Json F).eqStr Kind.offer = true := by
      simp [Json.eqStr]
    simp only [Node.step, Node.handleSignalConn, hread, hval, Node.dispatch, hpayload, htype,
      Option.getD_some, hoffer, if_true, hsender]
    rw [hsess]
    rfl
  have hordinary : ordinary c (.inl (R, .node (.inbound stream received now random))) = true := by
    simp only [ordinary, carried, Node.stream?, Option.all_some, hwritten, haddr, decide_true,
      Bool.and_self, Act.isAdd, Bool.not_false]
  have hcalled := leads_node hcall hordinary
  have hupdate : Function.update c.state R (n.withSession p (w.call (.offer msg .lock))) =
      putSession (Function.update c.state R n) R p (w.call (.offer msg .lock)) := by
    simp [putSession]
  rw [hupdate] at hcalled
  -- the offer is taken up
  obtain ⟨v, hrun, htask, hsid, -⟩ := SessionWorld.run_offer hd hcomplete []
  obtain ⟨d, hd, hstate⟩ := leads_sessionRun
    (c := ⟨putSession (Function.update c.state R n) R p (w.call (.offer msg .lock)), _⟩)
    (entering_internal w _ []) (get?_putSession _ _ _ _) hrun
  rw [putSession_putSession] at hstate
  -- the answer is signed and sent
  have hv : Dict.get? (d.state R).sessions p = some v := by
    rw [hstate]
    exact get?_putSession _ _ _ _
  have hid : (d.state R).identity = (c.state R).identity := by
    rw [hstate, putSession, Function.update_self, Function.update_self]
    rfl
  have hgathered : SessionWorld.step v (.gathered w.tasks.length) =
      some (v.finish w.tasks.length, []) := by
    simp only [SessionWorld.step, htask]
  let call : BuildCall F :=
    { toPeerId := .str p
      payload := descPayload Kind.answer sid desc
      random := random
      nowMs := now }
  have hanswer : Node.step (d.state R) (.answer p w.tasks.length desc now random) =
      some ((d.state R).withSession p (v.finish w.tasks.length),
        [.built (.answer msg) call (.obj m), .wrote (writeJsonLine m)]) := by
    have ht := Node.task?_eq_some.mpr ⟨hv, htask⟩
    rw [← hid] at hbuild
    simp only [Node.step, Node.answerOffer, ht, stepSession_of_step hv hgathered,
      Option.map_some, Node.respond, hsender, hsid, hbuild]
    rfl
  refine ⟨_, v.finish w.tasks.length, (hcalled.trans hd).trans (leads_node hanswer rfl), ?_, ?_,
    hsid⟩
  · show putSession d.state R p _ = _
    rw [hstate, putSession_putSession]
  · exact mem_lineOf_noting (by simp)

/-! ### The reply -/

/-- A node reads the answer to its offer, and applies it. -/
theorem leads_applied {I : ι} {p : Str} {w : SessionWorld F} {t : Nat}
    (hw : Dict.get? (c.state I).sessions p = some w)
    (ht : w.tasks[t]? = some (.initiate .requesting))
    {stream rest : List UInt8} {msg : Members F}
    (hwritten : some stream ∈ c.log.map lineOf)
    (haddr : addressed F (c.state I).identity.peerId stream = true)
    (hread : readJsonLine stream = .ok (msg, rest)) (herror : Dict.get? msg Field.ok = none)
    {received : UInt64} {replay : ReplayWindow}
    (hval : validateMessage (c.state I).contacts (c.state I).replay msg
      (some w.session.contact.val.peerId) none received = (.ok (), replay))
    (hanswer : Node.checkAnswer w.session.currentSessionId msg = true) :
    ∃ d w', Leads c d ∧
      d.state = putSession (Function.update c.state I { c.state I with replay := replay }) I p w' ∧
      d.log.head? = some (.inl (I, some (.applied p w.session.currentSessionId msg))) ∧
      w'.session.currentSessionId = w.session.currentSessionId ∧
      w'.session.state = .answerApplied := by
  let n : Node F := { c.state I with replay := replay }
  let v : SessionWorld F := w.suspend t (.initiate (.applying msg))
  let accepted : Event F :=
    .replyAccepted msg (Dict.get? (c.state I).contacts (.str (senderOf msg))) received
  have hreplied : Node.step (c.state I) (.reply p t stream received) =
      some (n.withSession p v, [accepted]) := by
    have hs : SessionWorld.step w (.replied t msg) = some (v, []) := by
      simp only [SessionWorld.step, ht]
      rfl
    have htask := Node.task?_eq_some.mpr ⟨hw, ht⟩
    have hsess := stepSession_of_step (n := n) hw hs
    simp only [Node.step, Node.receiveReply, htask, hread, herror, hval, hanswer, if_true]
    rw [hsess]
    rfl
  have hordinary : ordinary c (.inl (I, .node (.reply p t stream received))) = true := by
    simp only [ordinary, carried, Node.stream?, Option.all_some, hwritten, haddr, decide_true,
      Bool.and_self, Act.isAdd, Bool.not_false]
  have hread := leads_node hreplied hordinary
  have hupdate : Function.update c.state I (n.withSession p v) =
      putSession (Function.update c.state I n) I p v := by
    simp [putSession]
  rw [hupdate] at hread
  -- `setRemoteDescription` returns
  have hlt : t < w.tasks.length := (List.getElem?_eq_some_iff.mp ht).1
  have hv : v.tasks[t]? = some (.initiate (.applying msg)) := List.getElem?_set_self hlt
  let v' : SessionWorld F :=
    { v with session := { v.session with state := .answerApplied } }.finish t
  have happlied : SessionWorld.step v (.applied t) =
      some (v', [.applied v.session.currentSessionId msg]) := by
    simp only [SessionWorld.step, hv]
    rfl
  have hdone := leads_session
    (c := ⟨putSession (Function.update c.state I n) I p v, noting I [accepted] c.log⟩)
    (get?_putSession _ _ _ _) happlied rfl
  refine ⟨_, v', hread.trans hdone, ?_, rfl, rfl, rfl⟩
  exact putSession_putSession _ _ _ _ _

/-! ### The handshake -/

/-- What a handshake gets from outside: the session id, the descriptions, the nonces and the
clock readings. -/
structure Handshake where
  sid : Text
  offer : Text × Text
  answer : Text × Text
  offerRandom : FixedBytes 16
  answerRandom : FixedBytes 16
  /-- when the offer is signed, read, answered, and the answer read -/
  offeredMs : UInt64
  takenMs : UInt64
  answeredMs : UInt64
  repliedMs : UInt64

/-- The clocks of the two nodes differ by no more than the tolerance. -/
def InTime (sent received : UInt64) : Prop :=
  received.toNat ≤ sent.toNat + maxEnvelopeSkewMs ∧ sent.toNat ≤ received.toNat + maxEnvelopeSkewMs

/-- The envelope is not longer than a line may be. -/
def FitsLine (S : Identity F) (R : Str) (payload : Members F) (random : FixedBytes 16)
    (now : UInt64) : Prop :=
  ∀ m, buildMessage S (.str R) payload random now = .ok (.obj m) →
    (Json.dumpsSorted (.obj m)).length ≤ streamLimit

/-- Nothing in what the handshake gets from outside stands in its way. -/
structure Handshake.Fair (h : Handshake) (I R : Identity F) (nI nR : Node F) : Prop where
  offerFresh : tokenHex h.offerRandom ∉ nR.replay.known I.peerId
  answerFresh : tokenHex h.answerRandom ∉ nI.replay.known R.peerId
  offerInTime : InTime h.offeredMs h.takenMs
  answerInTime : InTime h.answeredMs h.repliedMs
  offerFits : FitsLine I R.peerId (descPayload Kind.offer (.str (Str.ofText h.sid)) h.offer)
    h.offerRandom h.offeredMs
  answerFits : FitsLine R I.peerId (descPayload Kind.answer (.str (Str.ofText h.sid)) h.answer)
    h.answerRandom h.answeredMs

/-- The node has a session for the peer, and its key. -/
structure Knows (n : Node F) (S : Identity F) (w : SessionWorld F) : Prop where
  session : Dict.get? n.sessions S.peerId = some w
  contact : ∃ contact, Dict.get? n.contacts (.str S.peerId) = some contact ∧
    contact.val.publicKeyB64 = .str S.publicKeyB64

omit [DecidableEq ι] in
/-- A message that was read from the line is addressed to its recipient. -/
theorem addressed_of_checked {stream rest : List UInt8} {msg : Members F}
    (hread : readJsonLine stream = .ok (msg, rest))
    {contacts : Dict (Key F) (Ref (Contact F))} {ef et : Option (Json F)} {now : UInt64}
    {sender recipient nonce : Str} {contact : Ref (Contact F)}
    (h : Checked contacts msg ef et now sender recipient nonce contact) :
    addressed F recipient stream = true := by
  rw [addressed, hread]
  dsimp only
  rw [h.recipientIs]
  simp

omit [DecidableEq ι] [DecidableEq F] [Crates F] [PyRepr F] in
theorem unexpected_self (p : Str) : unexpected (some (.str p : Json F)) p = false := by
  simp [unexpected, Json.eqStr]

/-- Whoever holds the lock of a session can go on, in every run of the system. -/
theorem released_component (hstart : Started identities s)
    (hrun : system.run ⟨s, []⟩ as = some c) {i : ι} {p : Str} {w : SessionWorld F}
    (hw : Dict.get? (c.state i).sessions p = some w) : w.Released := by
  obtain ⟨file, hboot⟩ := hstart i
  obtain ⟨bs, hbs⟩ := Machine.run_component hrun i
  exact (Node.released_run hboot hbs hw).2

/-- The nodes can go on from `c` by ordinary steps, until node `I` has applied the answer of the
handshake and both sessions have its id. -/
def CanComplete (identities : ι → Identity F) (I R : ι) (h : Handshake)
    (c : Config (ι → Node F) (SystemEvent ι F)) : Prop :=
  ∃ bs d reply vI vR, system.run c bs = some d ∧
    system.Meets (fun d a => ordinary d a = true) c bs ∧
    d.log.head? = some (.inl (I, some
      (.applied (identities R).peerId (.str (Str.ofText h.sid)) reply))) ∧
    Dict.get? (d.state I).sessions (identities R).peerId = some vI ∧
    vI.session.currentSessionId = .str (Str.ofText h.sid) ∧
    vI.session.state = .answerApplied ∧
    Dict.get? (d.state R).sessions (identities I).peerId = some vR ∧
    vR.session.currentSessionId = .str (Str.ofText h.sid)

/-- From a dial to an applied answer, between two nodes that have each other's keys. -/
theorem exists_handshake (hl : CrateLaws F) (hstart : Started identities s)
    (hrun : system.run ⟨s, []⟩ as = some c) {I R : ι} {skI skR : SigningKey}
    (hI : Genuine (identities I) skI) (hR : Genuine (identities R) skR)
    {wI wR : SessionWorld F} (hIR : Knows (c.state I) (identities R) wI)
    (hRI : Knows (c.state R) (identities I) wR)
    (hmem : (identities R).peerId ∈ (c.state I).maintainers)
    (hconn : wI.session.connected = false) (hdial : wI.session.contact.val.dialable = true)
    (h : Handshake) (hfair : h.Fair (identities I) (identities R) (c.state I) (c.state R)) :
    CanComplete identities I R h c := by
  have hhI := history_component hstart hrun I
  have hhR := history_component hstart hrun R
  have hne : R ≠ I := by
    rintro rfl
    have hlt := hhI.maintainers _ hmem
    rw [Str.lt_irrefl] at hlt
    cases hlt
  have hofferScalar : Kind.offer.isScalar = true := Str.isScalar_ofText _
  have hanswerScalar : Kind.answer.isScalar = true := Str.isScalar_ofText _
  obtain ⟨m, msg, hoffer⟩ := exists_sent hl hI (identities R) hofferScalar h.sid h.offer
    h.offerRandom h.offeredMs
  obtain ⟨m', reply, hanswer⟩ := exists_sent hl hR (identities I) hanswerScalar h.sid h.answer
    h.answerRandom h.answeredMs
  obtain ⟨contactI, hcontactI, hkeyI⟩ := hIR.contact
  obtain ⟨contactR, hcontactR, hkeyR⟩ := hRI.contact
  -- both sessions come to rest
  obtain ⟨d₁, uI, h₁, hs₁, hdrI, huI⟩ :=
    leads_drained hIR.session (released_component hstart hrun hIR.session)
  have hsessR : Dict.get? (d₁.state R).sessions (identities I).peerId = some wR := by
    rw [hs₁, putSession_of_ne hne]
    exact hRI.session
  obtain ⟨d₂, uR, h₂, hs₂, hdrR, huR⟩ :=
    leads_drained hsessR (released_component hstart hrun hRI.session)
  have hI₂ : d₂.state I = (c.state I).withSession (identities R).peerId uI := by
    rw [hs₂, putSession_of_ne hne.symm, hs₁]
    exact Function.update_self _ _ _
  have hR₂ : d₂.state R = (c.state R).withSession (identities I).peerId uR := by
    rw [hs₂, putSession, Function.update_self, hs₁, putSession_of_ne hne]
  -- the offer
  have hbuild : buildMessage (d₂.state I).identity (.str (identities R).peerId)
      (descPayload Kind.offer (.str (Str.ofText h.sid)) h.offer) h.offerRandom h.offeredMs =
        .ok (.obj m) := by
    rw [hI₂]
    show buildMessage (c.state I).identity _ _ _ _ = _
    rw [hhI.identityIs]
    exact hoffer.built
  have hto := (hhI.sessions _ _ hIR.session).contact
  obtain ⟨d₃, vI, t, h₃, hs₃, hline, htask, hsid, hcontact⟩ := leads_offer (c := d₂) (w := uI)
    (by rw [hI₂, Node.withSession, Dict.get?_set, if_pos rfl]) hdrI (by rw [hI₂]; exact hmem)
    (by rw [huI]; exact hconn) (by rw [huI]; exact hto) (by rw [huI]; exact hdial) hbuild
  -- the answer
  have hR₃ : d₃.state R = (c.state R).withSession (identities I).peerId uR := by
    rw [hs₃, putSession_of_ne hne, hR₂]
  have hidR : (d₃.state R).identity.peerId = (identities R).peerId := by
    rw [hR₃]
    show (c.state R).identity.peerId = _
    rw [hhR.identityIs]
  have hreadOffer := hoffer.read (hfair.offerFits m hoffer.built)
  have hcheckedOffer := hoffer.checked (c.state R).contacts contactR h.takenMs hcontactR hkeyR
    hfair.offerInTime
  have hvalOffer : validateMessage (d₃.state R).contacts (d₃.state R).replay msg none
      (some (.str (d₃.state R).identity.peerId)) h.takenMs =
        (.ok (), ((c.state R).replay.seen (identities I).peerId (tokenHex h.offerRandom)).2) := by
    rw [hidR, hR₃]
    exact hoffer.accepts hcontactR hkeyR hfair.offerFresh hfair.offerInTime rfl
      (unexpected_self _)
  have htype : Dict.get? (asRead (descPayload (F := F) Kind.offer (.str (Str.ofText h.sid))
      h.offer)) Field.type = some (.str Kind.offer) :=
    get?_asRead_textMembers (nodup_descTexts Kind.offer _ h.offer) Field.type
  have hbuild' : buildMessage (d₃.state R).identity (.str (identities I).peerId)
      (descPayload Kind.answer (.str (Str.ofText h.sid)) h.answer) h.answerRandom h.answeredMs =
        .ok (.obj m') := by
    rw [hR₃]
    show buildMessage (c.state R).identity _ _ _ _ = _
    rw [hhR.identityIs]
    exact hanswer.built
  obtain ⟨d₄, vR, h₄, hs₄, hline', hsid'⟩ := leads_answer (c := d₃) (w := uR)
    (by rw [hR₃, Node.withSession, Dict.get?_set, if_pos rfl]) hdrR hline
    (by rw [hidR]; exact addressed_of_checked hreadOffer hcheckedOffer) hreadOffer hvalOffer
    (Node.Checked.senderOf_eq hcheckedOffer) hoffer.payload htype hoffer.complete hbuild'
  -- the reply
  have hI₄ : d₄.state I = (c.state I).withSession (identities R).peerId vI := by
    rw [hs₄, putSession_of_ne hne.symm, Function.update_of_ne hne.symm, hs₃, putSession,
      Function.update_self, hI₂]
    simp [Node.withSession, Dict.set_set]
  have hidI : (d₄.state I).identity.peerId = (identities I).peerId := by
    rw [hI₄]
    show (c.state I).identity.peerId = _
    rw [hhI.identityIs]
  have hreadAnswer := hanswer.read (hfair.answerFits m' hanswer.built)
  have hcheckedAnswer := hanswer.checked (c.state I).contacts contactI h.repliedMs hcontactI hkeyI
    hfair.answerInTime
  have hvalAnswer : validateMessage (d₄.state I).contacts (d₄.state I).replay reply
      (some vI.session.contact.val.peerId) none h.repliedMs =
        (.ok (), ((c.state I).replay.seen (identities R).peerId (tokenHex h.answerRandom)).2) := by
    rw [hcontact, huI, hto, hI₄]
    exact hanswer.accepts hcontactI hkeyI hfair.answerFresh hfair.answerInTime
      (unexpected_self _) rfl
  have hcheck : Node.checkAnswer vI.session.currentSessionId reply = true := by
    rw [hsid]
    exact hanswer.checkAnswer
  obtain ⟨d₅, vI', h₅, hs₅, hhead, hsid₅, hstate₅⟩ := leads_applied (c := d₄) (w := vI)
    (by rw [hI₄, Node.withSession, Dict.get?_set, if_pos rfl]) htask hline'
    (by rw [hidI]; exact addressed_of_checked hreadAnswer hcheckedAnswer) hreadAnswer
    hanswer.notError hvalAnswer hcheck
  obtain ⟨bs, hbs, hmeets⟩ := (((h₁.trans h₂).trans h₃).trans h₄).trans h₅
  rw [hsid] at hhead hsid₅
  refine ⟨bs, d₅, reply, vI', vR, hbs, hmeets, hhead, ?_, hsid₅, hstate₅, ?_, hsid'⟩
  · rw [hs₅]
    exact get?_putSession _ _ _ _
  · rw [hs₅, putSession_of_ne hne, Function.update_of_ne hne, hs₄]
    exact get?_putSession _ _ _ _

end

/-! ### Two nodes that wait -/

namespace Sample

/-- A second handshake, while both nodes still work on the first. -/
def handshake : Handshake where
  sid := ['t']
  offer := desc
  answer := desc
  offerRandom := random 11
  answerRandom := random 12
  offeredMs := 2000
  takenMs := 2001
  answeredMs := 2002
  repliedMs := 2003

/-- The length of the line of an envelope. -/
def lineLength (S R : UInt8) (type : Str) (nonce : UInt8) (now : UInt64) : Nat :=
  match buildMessage (identity S) (.str (identity R).peerId)
    (descPayload type (.str (Str.ofText ['t'])) desc) (random nonce) now with
  | .ok v => (Json.dumpsSorted v).length
  | .error _ => 0

theorem fitsLine_of_lineLength {S R : UInt8} {type : Str} {nonce : UInt8} {now : UInt64}
    (h : lineLength S R type nonce now ≤ streamLimit) :
    FitsLine (identity S) (identity R).peerId (descPayload type (.str (Str.ofText ['t'])) desc)
      (random nonce) now := by
  intro m hm
  rw [lineLength, hm] at h
  exact h

end Sample

end P4

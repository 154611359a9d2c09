/-
  The sessions of a node are runs of the session machine.

  A step of a node is a step of one of its sessions, makes a new one, or leaves them all alone
  (`SessionMove`), and reports what the session reports.  So every session that a node ever has
  is in a state that the session machine reaches from `Session(contact, role)`, with the events
  of the peer since the last start (`session_run`); what holds of every run of a session holds of
  the sessions of a node, whatever else the node does.
-/
import P4.Node.Equiv.History
import P4.Sample.Equiv.Laws
import P4.Session.Equiv.Lock

namespace P4

variable {F : Type}

/-- The event of a session in an event of its node, with the peer. -/
def Event.session? : Event F → Option (Str × SessionEvent F)
  | .took p msg sid => some (p, .took msg sid)
  | .applied p sid reply => some (p, .applied sid reply)
  | _ => none

/-- The events of the session of peer `p` since the last start, the latest first. -/
def sessionLog (p : Str) : Past F → List (SessionEvent F)
  | [] => []
  | none :: _ => []
  | some e :: past =>
    match e.session? with
    | some (q, se) => if q = p then se :: sessionLog p past else sessionLog p past
    | none => sessionLog p past

theorem session?_sessionEvent (p : Str) (se : SessionEvent F) :
    (Node.sessionEvent p se).session? = some (p, se) := by
  cases se <;> rfl

section

variable {p q : Str} {past : Past F}

theorem sessionLog_of_none {out : List (Event F)} (h : ∀ e ∈ out, e.session? = none) :
    sessionLog p (out.reverse.map some ++ past) = sessionLog p past := by
  have hall : ∀ e ∈ out.reverse, e.session? = none := by simpa using h
  generalize out.reverse = late at hall
  induction late with
  | nil => rfl
  | cons e late ih =>
    rw [List.forall_mem_cons] at hall
    rw [List.map_cons, List.cons_append, sessionLog, hall.1]
    exact ih hall.2

theorem sessionLog_sessionEvent (o : List (SessionEvent F)) :
    sessionLog p ((o.map (Node.sessionEvent q)).reverse.map some ++ past) =
      if q = p then o.reverse ++ sessionLog p past else sessionLog p past := by
  rw [← List.map_reverse]
  generalize o.reverse = late
  induction late with
  | nil => simp
  | cons se late ih =>
    rw [List.map_cons, List.map_cons, List.cons_append, sessionLog, session?_sessionEvent]
    dsimp only
    rw [ih]
    split_ifs <;> rfl

end

namespace Node

/-! ### One step -/

section

variable [Crates F]

/-- What a step of a node does with its sessions. -/
inductive SessionMove (n n' : Node F) (out : List (Event F)) : Prop
  /-- nothing -/
  | still : n'.sessions = n.sessions → (∀ e ∈ out, e.session? = none) → SessionMove n n' out
  /-- a step of one of them, among other events -/
  | steps (p a w w' o before after) : Dict.get? n.sessions p = some w →
    SessionWorld.step w a = some (w', o) → n'.sessions = Dict.set n.sessions p w' →
    out = before ++ o.map (sessionEvent p) ++ after → (∀ e ∈ before, e.session? = none) →
    (∀ e ∈ after, e.session? = none) → SessionMove n n' out
  /-- a new one -/
  | opens (p contact role) : Dict.get? n.sessions p = none →
    n'.sessions = Dict.set n.sessions p (SessionWorld.new contact role) → out = [] →
    SessionMove n n' out

end

variable [DecidableEq F] [Float64 F] [Crates F] [PyRepr F] {n n' : Node F}

omit [DecidableEq F] [PyRepr F] in
theorem session?_respond (n : Node F) (why : Purpose F) (call : BuildCall F) :
    ∀ e ∈ n.respond why call, e.session? = none := by
  rcases respond_cases n why call with ⟨e, h⟩ | ⟨envelope, -, h⟩ <;>
    rw [h] <;> simp [Event.session?]

omit [DecidableEq F] [Float64 F] [PyRepr F] in
/-- A step of a session, among other events. -/
theorem SessionMove.of_stepSession {m : Node F} {p : Str} {a : SessionAct F}
    {out : List (Event F)} (before after : List (Event F)) (hm : m.sessions = n.sessions)
    (h : m.stepSession p a = some (n', out)) (hbefore : ∀ e ∈ before, e.session? = none)
    (hafter : ∀ e ∈ after, e.session? = none) : SessionMove n n' (before ++ out ++ after) := by
  obtain ⟨w, w', o, hw, hstep, rfl, rfl⟩ := stepSession_eq_some.mp h
  rw [hm] at hw
  refine .steps p a w w' o before after hw hstep ?_ rfl hbefore hafter
  show Dict.set m.sessions p w' = _
  rw [hm]

omit [DecidableEq F] in
/-- A message that is dispatched may start a coroutine of one session. -/
theorem SessionMove.of_dispatch {m : Node F} {msg : Members F} {replyMs : UInt64}
    {random : FixedBytes 16} {out : List (Event F)} (before : List (Event F))
    (hm : m.sessions = n.sessions) (h : m.dispatch msg replyMs random = (n', out))
    (hbefore : ∀ e ∈ before, e.session? = none) : SessionMove n n' (before ++ out) := by
  have hboth : ∀ after : List (Event F), (∀ e ∈ after, e.session? = none) →
      ∀ e ∈ before ++ after, e.session? = none := by
    intro after hafter e he
    rcases List.mem_append.mp he with he | he
    · exact hbefore e he
    · exact hafter e he
  rcases dispatch_cases h with ⟨rfl, e, rfl⟩ | ⟨payload, -, -, hs⟩ | ⟨payload, -, -, rfl, rfl⟩
  · apply SessionMove.still hm
    apply hboth
    simp [Event.session?]
  · have hmove := SessionMove.of_stepSession before [] hm hs hbefore (by simp)
    rwa [List.append_nil] at hmove
  · apply SessionMove.still hm
    apply hboth
    exact session?_respond _ _ _

omit [PyRepr F] in
/-- An add makes a new session, or is a step of the one that is there. -/
theorem SessionMove.of_addContact (n : Node F) (invite : Json F) (writeOk : Bool) :
    SessionMove n (n.addContact invite writeOk).2 [] := by
  obtain ⟨contacts, oid, file, heq | ⟨contact, p, -, heq⟩⟩ := addContact_cases n invite writeOk
  · rw [heq]
    exact .still rfl (by simp)
  · rw [heq]
    unfold addSession
    dsimp only
    split
    · rename_i hnone
      exact .opens p contact _ hnone rfl rfl
    · -- the contact of the session is set, which is a step of the session
      rename_i w hw
      exact .steps p (.setContact contact _) w _ [] [] [] hw rfl rfl rfl (by simp) (by simp)

/-- Every step of a node moves at most one session. -/
theorem sessionMove {a : Act F} {out : List (Event F)} (h : step n a = some (n', out)) :
    SessionMove n n' out := by
  have hnil : ∀ e ∈ ([] : List (Event F)), e.session? = none := by simp
  cases step_outcome h with
  | unread => exact .still rfl (by simp [Event.session?])
  | rejected => exact .still rfl (by simp [Event.session?])
  | accepted stream now replyMs random msg rest sender recipient nonce contact n' out hread hacc
      hd =>
    exact SessionMove.of_dispatch (m := n.noted sender nonce) [_] rfl hd (by simp [Event.session?])
  | answered p t desc now random w msg n' out ht hsess =>
    exact SessionMove.of_stepSession [] _ rfl hsess hnil (session?_respond _ _ _)
  | dialed p w n' out hw hmem hsess =>
    have hmove := SessionMove.of_stepSession [] [] rfl hsess hnil hnil
    rwa [List.append_nil] at hmove
  | requested p t desc now random online w envelope n' out act sent ht henv hact hsess =>
    have hbefore : ∀ e ∈ Event.built .offer
        { toPeerId := w.session.contact.val.peerId
          payload := descPayload Kind.offer w.session.currentSessionId desc
          random := random
          nowMs := now } envelope :: sent, e.session? = none := by
      rcases hact with ⟨-, rfl⟩ | ⟨-, rfl⟩ <;> simp [Event.session?]
    have hmove := SessionMove.of_stepSession _ [] rfl hsess hbefore hnil
    rwa [List.append_nil] at hmove
  | replied p t stream now w reply rest sender recipient nonce contact n' out act ht hread hacc
      hact hsess =>
    have hmove := SessionMove.of_stepSession (n := n) (m := n.noted sender nonce)
      [.replyAccepted reply (some contact) now] [] rfl hsess (by simp [Event.session?]) hnil
    rwa [List.append_nil] at hmove
  | session a p act n' out rest hin hact hrest hsess =>
    refine SessionMove.of_stepSession [] _ rfl hsess hnil ?_
    rcases hrest with rfl | ⟨e, rfl⟩ <;> simp [Event.session?]
  | addContact invite writeOk => exact SessionMove.of_addContact n invite.val writeOk

/-! ### Offers that lack a member -/

omit [DecidableEq F] [Float64 F] [Crates F] [PyRepr F] in
/-- `_handle_offer` waits for its description unless a member is missing. -/
theorem missingMember_of_finished {w : SessionWorld F} {t : Nat} {msg : Members F}
    (h : (w.startOffer t msg).1.tasks[t]? = some .finished) :
    (missingMember? msg).isSome = true := by
  unfold SessionWorld.startOffer at h
  dsimp only at h
  cases hsid : Dict.get? ((payloadOf msg).getD []) Field.sessionId with
  | none => simp [missingMember?, hsid]
  | some sid =>
    cases hsdp : Dict.get? ((payloadOf msg).getD []) Field.sdp with
    | none => simp [missingMember?, hsid, hsdp]
    | some sdp =>
      cases htype : Dict.get? ((payloadOf msg).getD []) Field.sdpType with
      | none => simp [missingMember?, hsid, hsdp, htype]
      | some sdpType =>
        simp only [hsid, hsdp, htype] at h
        rcases SessionWorld.suspend_tasks h with ⟨heq, -⟩ | ⟨hne, -⟩
        · cases heq
        · exact absurd rfl hne

/-- A step of its own that ends `_handle_offer` writes the error line of a missing member: the
sender of an offer does not wait in vain for a line. -/
theorem offer_ends_with_line {p : Str} {act : SessionAct F} {t : Nat} {w w' : SessionWorld F}
    {msg : Members F} {phase : OfferPhase} {out : List (Event F)}
    (h : step n (.session p act) = some (n', out)) (hact : act.continues? = some t)
    (ht : n.task? p t = some (w, .offer msg phase)) (hend : n'.task? p t = some (w', .finished)) :
    ∃ member, .wrote (errorLine F (.key member)) ∈ out := by
  simp only [step] at h
  split_ifs at h
  obtain ⟨⟨n₁, o⟩, hs, heq⟩ := Option.map_eq_some_iff.mp h
  cases heq
  obtain ⟨hw, htask⟩ := task?_eq_some.mp ht
  obtain ⟨hw', hfinished⟩ := task?_eq_some.mp hend
  obtain ⟨v, v', o', hv, hstep, hn', -⟩ := stepSession_eq_some.mp hs
  rw [hw] at hv
  cases hv
  rw [hn', Dict.get?_set, if_pos rfl] at hw'
  cases hw'
  -- the offer waits for `pc.close()`, or `startOffer` has run
  have hmissing : (missingMember? msg).isSome = true := by
    cases SessionWorld.step_outcome hstep with
    | closes u sid task task' hl hu hmoves hpc =>
      cases hact
      rcases SessionWorld.suspend_tasks hfinished with ⟨heq, -⟩ | ⟨hne, -⟩
      · rw [← heq] at hmoves
        cases hmoves
      · exact absurd rfl hne
    | answers u sid msg' hl hu hpc =>
      cases hact
      rw [htask] at hu
      cases hu
      exact missingMember_of_finished hfinished
    | reanswers u sid msg' hu =>
      cases hact
      rw [htask] at hu
      cases hu
      exact missingMember_of_finished hfinished
    | connected u sid hl hu =>
      cases hact
      rw [htask] at hu
      cases hu
    | dials u sid hl hu =>
      cases hact
      rw [htask] at hu
      cases hu
    | redials u sid hu =>
      cases hact
      rw [htask] at hu
      cases hu
    | drops u sid hl hu =>
      cases hact
      rw [htask] at hu
      cases hu
    | dropped u sid hu =>
      cases hact
      rw [htask] at hu
      cases hu
    | called a task htask' => cases act <;> cases hact <;> cases htask'
    | offers | answered | replied | applied | raised | connectionStateChange | dataChannel
      | channelOpen | channelClose | setContact | shutdown => cases hact
  obtain ⟨member, hmember⟩ := Option.isSome_iff_exists.mp hmissing
  refine ⟨member, List.mem_append_right _ ?_⟩
  simp [incompleteOffer, hact, ht, hend, hmember]

/-! ### Runs -/

/-- Every session of the node is in a state that the session machine reaches, with the events of
the peer since the last start. -/
structure Simulates (n : Node F) (past : Past F) : Prop where
  reached : ∀ p w, Dict.get? n.sessions p = some w → ∃ contact role as,
    Machine.run SessionWorld.step ⟨SessionWorld.new contact role, []⟩ as =
      some ⟨w, sessionLog p past⟩
  absent : ∀ p, Dict.get? n.sessions p = none → sessionLog p past = []

omit [DecidableEq F] [Float64 F] [PyRepr F] in
/-- The session that moved takes one more step, and the others none. -/
theorem Simulates.move {past : Past F} {out : List (Event F)} (h : Simulates n past)
    (hmove : SessionMove n n' out) : Simulates n' (out.reverse.map some ++ past) := by
  cases hmove with
  | still hs hout =>
    constructor
    · intro p w hw
      rw [hs] at hw
      rw [sessionLog_of_none hout]
      exact h.reached p w hw
    · intro p hp
      rw [hs] at hp
      rw [sessionLog_of_none hout]
      exact h.absent p hp
  | steps p a w w' o before after hw hstep hs hout hbefore hafter =>
    have hlog : ∀ q, sessionLog q (out.reverse.map some ++ past) =
        if p = q then o.reverse ++ sessionLog q past else sessionLog q past := by
      intro q
      rw [hout, List.reverse_append, List.reverse_append, List.map_append, List.map_append,
        List.append_assoc, List.append_assoc, sessionLog_of_none hafter, sessionLog_sessionEvent,
        sessionLog_of_none hbefore]
    constructor
    · intro q v hv
      rw [hs, Dict.get?_set] at hv
      rw [hlog]
      split_ifs at hv with hq
      · -- the session that moved takes one more step
        cases hv
        subst hq
        rw [if_pos rfl]
        obtain ⟨contact, role, as, hrun⟩ := h.reached q w hw
        exact ⟨contact, role, as ++ [a], Machine.run_snoc hrun hstep⟩
      · rw [if_neg (Ne.symm hq)]
        exact h.reached q v hv
    · intro q hq
      rw [hs, Dict.get?_set] at hq
      split_ifs at hq with hqp
      rw [hlog, if_neg (Ne.symm hqp)]
      exact h.absent q hq
  | opens p contact role hnone hs hout =>
    subst hout
    constructor
    · intro q v hv
      rw [hs, Dict.get?_set] at hv
      split_ifs at hv with hq
      · cases hv
        subst hq
        refine ⟨contact, role, [], ?_⟩
        show some _ = some _
        rw [List.reverse_nil, List.map_nil, List.nil_append, h.absent q hnone]
      · exact h.reached q v hv
    · intro q hq
      rw [hs, Dict.get?_set] at hq
      split_ifs at hq
      exact h.absent q hq

omit [PyRepr F] in
/-- A process that starts has new sessions, and none of them has reported anything. -/
theorem simulates_boot {identity : Identity F} {file : Option Text} {past : Past F}
    (hboot : boot identity file = .ok n) (hlog : ∀ p, sessionLog p past = []) :
    Simulates n past := by
  obtain ⟨l, -, -, -, -, -, hsessions, -⟩ := boot_ok hboot
  constructor
  · intro p w hw
    have hspec : (Dict.keys n.sessions).Nodup ∧ ∀ ps ∈ n.sessions, ∃ contact role,
        ps.2 = SessionWorld.new contact role := by
      rw [hsessions]
      refine Dict.ofPairs_spec fun ps hps => ?_
      obtain ⟨c, -, rfl⟩ := List.mem_map.mp hps
      exact ⟨c, _, rfl⟩
    obtain ⟨contact, role, hnew⟩ := hspec.2 _ (Dict.get?_mem hw)
    refine ⟨contact, role, [], ?_⟩
    show some _ = some _
    rw [hlog, ← hnew]
  · exact fun p _ => hlog p

/-- By induction on the run; a restart forgets the sessions and their logs. -/
theorem simulates_run {identity : Identity F} {file : Option Text} {as : List (HostAct F)}
    {c : Config (Node F) (Option (Event F))} (hboot : boot identity file = .ok n)
    (hrun : host.run ⟨n, []⟩ as = some c) : Simulates c.state c.log := by
  refine Machine.run_invariant (P := fun c => Simulates c.state c.log) ?_
    (simulates_boot hboot fun _ => rfl) hrun
  intro d a d' hd hnext
  obtain ⟨out, hs, hlog⟩ := Machine.next_eq_some.mp hnext
  rw [hlog]
  rcases host_cases hs with ⟨b, o, -, hstep, rfl⟩ | ⟨-, hn', rfl⟩
  · have hmove := hd.move (sessionMove hstep)
    rwa [← List.map_reverse]
  · exact simulates_boot hn' fun _ => rfl

/-- Every session that a node has after any run is in a state that the session machine reaches
from `Session(contact, role)`, and the events of this run are those that the node reported of
the peer since it was started.

A step of the node is a step of one session, with its events, or leaves the session alone
(`SessionMove`). -/
theorem session_run {identity : Identity F} {file : Option Text} {as : List (HostAct F)}
    {c : Config (Node F) (Option (Event F))} (hboot : boot identity file = .ok n)
    (hrun : host.run ⟨n, []⟩ as = some c) {p : Str} {w : SessionWorld F}
    (hw : Dict.get? c.state.sessions p = some w) : ∃ contact role acts,
    Machine.run SessionWorld.step ⟨SessionWorld.new contact role, []⟩ acts =
      some ⟨w, sessionLog p c.log⟩ :=
  (simulates_run hboot hrun).reached p w hw

/-- In every run of a node, whoever holds the lock of a session can go on. -/
theorem released_run {identity : Identity F} {file : Option Text} {as : List (HostAct F)}
    {c : Config (Node F) (Option (Event F))} (hboot : boot identity file = .ok n)
    (hrun : host.run ⟨n, []⟩ as = some c) {p : Str} {w : SessionWorld F}
    (hw : Dict.get? c.state.sessions p = some w) : w.Locked ∧ w.Released := by
  obtain ⟨contact, role, acts, hacts⟩ := (simulates_run hboot hrun).reached p w hw
  refine Machine.run_invariant (m := SessionWorld.step)
    (P := fun c => SessionWorld.Locked c.state ∧ SessionWorld.Released c.state) ?_
    ⟨SessionWorld.locked_new contact role, SessionWorld.released_new contact role⟩ hacts
  intro d a d' hd hnext
  obtain ⟨out, hs, -⟩ := Machine.next_eq_some.mp hnext
  exact ⟨SessionWorld.locked_step hd.1 hs, SessionWorld.released_step hd.1 hd.2 hs⟩

end Node

/-! ### A session with one event -/

namespace Sample

/-- The second node takes up an offer of the first. -/
def takingRun : List (HostAct Empty) :=
  [.node (.addContact (invited 1) true),
   .node (.inbound (line 1 2 (descPayload Kind.offer (.str (Str.ofText ['s'])) (['v'], ['o'])) 7
    1000) 1001 1002 (random 8)),
   .node (.session (identity 1).peerId (.acquire 0 []))]

end Sample

theorem session_run_sample : ∃ n c w contact role acts,
    Node.boot (Sample.identity 2) none = .ok n ∧
    Node.host.run ⟨n, []⟩ Sample.takingRun = some c ∧
    (sessionLog (Sample.identity 1).peerId c.log).length = 1 ∧
    Machine.run SessionWorld.step ⟨SessionWorld.new contact role, []⟩ acts =
      some ⟨w, sessionLog (Sample.identity 1).peerId c.log⟩ := by
  have hok : (Node.boot (Sample.identity 2) none).toOption.any (fun n =>
      (Node.host.run ⟨n, []⟩ Sample.takingRun).any fun c =>
        (sessionLog (Sample.identity 1).peerId c.log).length = 1 &&
          (Dict.get? c.state.sessions (Sample.identity 1).peerId).isSome) = true := by
    decide +kernel
  obtain ⟨n, hn, hrun⟩ := (Option.any_eq_true _ _).mp hok
  obtain ⟨c, hc, hchecks⟩ := (Option.any_eq_true _ _).mp hrun
  rw [Bool.and_eq_true, decide_eq_true_eq] at hchecks
  obtain ⟨w, hw⟩ := Option.isSome_iff_exists.mp hchecks.2
  have hboot := Sample.eq_ok_of_toOption hn
  obtain ⟨contact, role, acts, hacts⟩ := Node.session_run hboot hc hw
  exact ⟨n, c, w, contact, role, acts, hboot, hc, hchecks.1, hacts⟩

end P4

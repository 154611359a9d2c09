/-
  What becomes of each message, counted.

  An offer that is accepted starts one coroutine, which takes the offer up at most once and
  answers it at most once; an offer that is sent has one coroutine that waits for the reply,
  accepts at most one and applies it at most once.  So each stage of a handshake is reached at most
  as often as the stage before it, over all runs and restarts: the coroutines between two stages
  hold the difference (`Covers`).
-/
import P4.Node.Equiv.History
import P4.Run.Tally
import P4.Sample.Equiv.Laws
import P4.Session.Equiv.Turns

namespace P4

variable {F : Type}

namespace Node

/-! ### Coroutines at a place -/

/-- How many coroutines of the session of peer `p` are at the place. -/
def waiting [Crates F] (n : Node F) (p : Str) (place : Task F → Bool) : Nat :=
  (Dict.get? n.sessions p).elim 0 fun w => w.tasks.countP place

section

variable [DecidableEq F]

/-- `_handle_offer` has the message and has not taken up its offer. -/
def untaken (msg : Members F) : Task F → Bool
  | .offer m .lock => m = msg
  | .offer m .closing => m = msg
  | _ => false

/-- `_handle_offer` has taken up the offer of the message and has not answered. -/
def unanswered (msg : Members F) : Task F → Bool
  | .offer m .negotiating => m = msg
  | _ => false

/-- `_initiate_with_contact` waits for a reply. -/
def unreplied : Task F → Bool
  | .initiate .requesting => true
  | _ => false

/-- `_initiate_with_contact` has accepted the reply and has not applied it. -/
def unapplied (reply : Members F) : Task F → Bool
  | .initiate (.applying m) => m = reply
  | _ => false

/-! ### Stages -/

/-- The message was accepted by the signaling server. -/
def isAccepted (msg : Members F) : Event F → Bool
  | .accepted m _ _ => m = msg
  | _ => false

/-- The offer of the message was taken up in the session of peer `p`. -/
def isTookUp (p : Str) (msg : Members F) : Event F → Bool
  | .took q m _ => q = p ∧ m = msg
  | _ => false

/-- An answer to the message was built. -/
def isAnswer (msg : Members F) : Event F → Bool
  | .built (.answer m) _ _ => m = msg
  | _ => false

/-- An offer was built for peer `p`. -/
def isOfferFor (p : Str) : Event F → Bool
  | .built .offer call _ => call.toPeerId = .str p
  | _ => false

/-- A reply of peer `p` was accepted. -/
def isReplyOf (p : Str) : Event F → Bool
  | .replyAccepted m _ _ => senderOf m = p
  | _ => false

/-- The message was accepted as a reply. -/
def isReply (msg : Members F) : Event F → Bool
  | .replyAccepted m _ _ => m = msg
  | _ => false

/-- The message was applied in the session of peer `p`. -/
def isApplied (p : Str) (msg : Members F) : Event F → Bool
  | .applied q _ m => q = p ∧ m = msg
  | _ => false

end

/-- Events at which no coroutine works. -/
def isIdle : Event F → Bool
  | .wrote _ => true
  | .rejected _ _ => true
  | .accepted _ _ _ => true
  | .built (.pong _) _ _ => true
  | _ => false

/-! ### Steps of a session -/

section

variable [DecidableEq F] [Float64 F] [Crates F] [PyRepr F] {n n' : Node F} {p q : Str}
  {a : SessionAct F} {out : List (Event F)} {place : Task F → Bool}

/-- The coroutine counts, when it belongs to the session of peer `p`. -/
def held (p : Str) (place : Task F → Bool) (q : Str) (task : Task F) : Nat :=
  (decide (q = p) && place task).toNat

omit [DecidableEq F] [Float64 F] [PyRepr F] in
/-- A step of a session is one turn of one coroutine. -/
theorem turns_stepSession (hs : n.stepSession q a = some (n', out)) :
    ∃ w old new o, Dict.get? n.sessions q = some w ∧ SessionWorld.Turn a old new o ∧
      (∀ t, a.index? = some t → w.tasks[t]? = some old) ∧ out = o.map (sessionEvent q) ∧
      ∀ p place, place .finished = false →
        n'.waiting p place + held p place q old = n.waiting p place + held p place q new := by
  obtain ⟨w, w', o, hw, hstep, rfl, rfl⟩ := stepSession_eq_some.mp hs
  obtain ⟨old, new, hturns⟩ := SessionWorld.turn_step hstep
  refine ⟨w, old, new, o, hw, hturns.turn, hturns.oldIs, rfl, ?_⟩
  intro p place hplace
  by_cases hq : q = p
  · subst hq
    have hcount := hturns.count place hplace
    simpa [waiting, held, Dict.get?_set, hw] using hcount
  · simp [waiting, held, Dict.get?_set, hq, Ne.symm hq]

omit [DecidableEq F] [Float64 F] [PyRepr F] in
/-- The turn of a coroutine that has one way to go, or ends. -/
theorem waiting_turn {t : Nat} {w : SessionWorld F} {old new : Task F}
    (hs : n.stepSession q a = some (n', out)) (ha : a.index? = some t)
    (ht : n.task? q t = some (w, old))
    (hnew : ∀ new' o, SessionWorld.Turn a old new' o → (new' = new ∨ new' = .finished) ∧ o = [])
    (hplace : place .finished = false) (p : Str) :
    out = [] ∧
      n'.waiting p place + held p place q old ≤ n.waiting p place + held p place q new := by
  obtain ⟨w', old', new', o, hw', hturn, hold', rfl, hcount⟩ := turns_stepSession hs
  obtain ⟨hw, htask⟩ := task?_eq_some.mp ht
  rw [hw, Option.some.injEq] at hw'
  have hsame := hold' t ha
  rw [← hw', htask, Option.some.injEq] at hsame
  rw [← hsame] at hturn hcount
  obtain ⟨hcases, rfl⟩ := hnew new' o hturn
  have h := hcount p place hplace
  refine ⟨rfl, ?_⟩
  rcases hcases with rfl | rfl
  · exact Nat.le_of_eq h
  · have hnone : held p place q .finished = 0 := by simp [held, hplace]
    omega

/-- The steps of a session that a node takes by itself. -/
def IsQuiet (a : SessionAct F) : Prop :=
  a = .callInitiate ∨ a.isInternal = true ∨ a = .callDrop ∨ ∃ t, a = .raised t

omit [DecidableEq F] [Float64 F] [Crates F] [PyRepr F] in
/-- The turns of a coroutine in such a step. -/
theorem IsQuiet.turn_cases {old new : Task F} {o : List (SessionEvent F)} (ha : IsQuiet a)
    (h : SessionWorld.Turn a old new o) :
    (new = .finished ∧ o = []) ∨ (new = .initiate .lock ∧ o = []) ∨
    ((new = .initiate .closing ∨ new = .initiate .negotiating) ∧ o = []) ∨
    ((∃ phase, new = .drop phase) ∧ o = []) ∨
    (∃ msg, old = .offer msg .lock ∧ new = .offer msg .closing ∧ o = []) ∨
    (∃ msg phase sid, (phase = .lock ∨ phase = .closing) ∧ old = .offer msg phase ∧
      (new = .offer msg .negotiating ∨ new = .finished) ∧ o = [.took msg sid]) ∨
    ∃ sid reply, old = .initiate (.applying reply) ∧ new = .finished ∧
      o = [.applied sid reply] := by
  cases h with
  | ends => simp
  | called a task htask =>
    rcases ha with rfl | ha | rfl | ⟨t, rfl⟩
    · cases htask
      simp
    · rw [task?_of_isInternal ha] at htask
      cases htask
    · cases htask
      simp
    · cases htask
  | moves t a old new hm =>
    have hg : ∀ u, a ≠ .gathered u := by
      rintro u rfl
      simp [IsQuiet, SessionAct.isInternal] at ha
    have hr : ∀ u reply, a ≠ .replied u reply := by
      rintro u reply rfl
      simp [IsQuiet, SessionAct.isInternal] at ha
    rcases hm.closes hg hr with ⟨-, rfl⟩ | ⟨msg, rfl, rfl⟩ | ⟨-, rfl⟩ <;> simp
  | prepares => simp
  | takes a msg phase sid new henters hphase hnew =>
    exact Or.inr (Or.inr (Or.inr (Or.inr (Or.inr (Or.inl
      ⟨msg, phase, sid, hphase, rfl, hnew, rfl⟩)))))
  | applies t sid reply => simp

/-- What is spent in the session of peer `p` was earned before, and the coroutines at `place`
hold what is not spent yet. -/
structure Account (n : Node F) (p : Str) (place : Task F → Bool) (spend earn : Event F → Bool) :
    Prop where
  finished : place .finished = false
  idle : ∀ e, isIdle e = true → spend e = false
  other : ∀ q e, q ≠ p → spend (sessionEvent q e) = false
  turn : ∀ a old new o, IsQuiet a → SessionWorld.Turn a old new o →
    (o.map (sessionEvent p)).countP spend + (place new).toNat ≤
      (o.map (sessionEvent p)).countP earn + (place old).toNat
  /-- `_handle_offer` is called for a message that was accepted -/
  called : ∀ msg contact now, place (.offer msg .lock) = true →
    earn (.accepted msg contact now) = true
  /-- it ends with an answer -/
  answered : ∀ q t w msg call envelope, n.task? q t = some (w, .offer msg .negotiating) →
    (spend (.built (.answer msg) call envelope)).toNat ≤ held p place q (.offer msg .negotiating)
  /-- `_initiate_with_contact` sends its offer -/
  requested : ∀ q t w call envelope, n.task? q t = some (w, .initiate .negotiating) →
    call.toPeerId = w.session.contact.val.peerId →
    (spend (.built .offer call envelope)).toNat + held p place q (.initiate .requesting) ≤
      (earn (.built .offer call envelope)).toNat + held p place q (.initiate .negotiating)
  /-- and accepts a reply -/
  replied : ∀ q t w reply contact now, n.task? q t = some (w, .initiate .requesting) →
    senderOf reply = q →
    (spend (.replyAccepted reply contact now)).toNat +
        held p place q (.initiate (.applying reply)) ≤
      (earn (.replyAccepted reply contact now)).toNat + held p place q (.initiate .requesting)

variable {spend earn : Event F → Bool}

omit [DecidableEq F] [Float64 F] [PyRepr F] in
/-- An internal step moves a coroutine from one stage to the next. -/
theorem Account.covers_quiet (h : Account n p place spend earn) (ha : IsQuiet a)
    (hs : n.stepSession q a = some (n', out)) :
    Covers spend earn (n.waiting p place) (n'.waiting p place) out := by
  obtain ⟨w, old, new, o, -, hturn, -, rfl, hcount⟩ := turns_stepSession hs
  have h₁ := hcount p place h.finished
  unfold Covers
  by_cases hq : q = p
  · subst hq
    have h₂ := h.turn a old new o ha hturn
    simp only [held, decide_true, Bool.true_and] at h₁
    omega
  · have hnone : (o.map (sessionEvent q)).countP spend = 0 := by
      rw [List.countP_eq_zero]
      intro e he
      obtain ⟨e', -, rfl⟩ := List.mem_map.mp he
      simp [h.other q e' hq]
    simp only [held, hq, decide_false, Bool.false_and, Bool.toNat_false] at h₁
    omega

omit [DecidableEq F] [PyRepr F] in
theorem Account.countP_respond (h : Account n p place spend earn) (m : Node F) {why : Purpose F}
    {call : BuildCall F} {k : Nat}
    (hk : ∀ envelope, (spend (.built why call envelope)).toNat ≤ k) :
    (m.respond why call).countP spend ≤ k := by
  have hwrote : ∀ bytes, spend (.wrote bytes) = false := fun bytes => h.idle _ rfl
  rcases respond_cases m why call with ⟨e, hout⟩ | ⟨envelope, -, hout⟩
  · simp [hout, hwrote]
  · have hle := hk envelope
    rw [hout, List.countP_cons, List.countP_singleton, hwrote]
    rw [Bool.toNat, Bool.cond_eq_ite] at hle
    simpa using hle

omit [PyRepr F] in
/-- A contact that is added or updated takes no coroutine anywhere. -/
theorem waiting_addContact (n : Node F) (invite : Json F) (writeOk : Bool) (p : Str) :
    (n.addContact invite writeOk).2.waiting p place = n.waiting p place := by
  obtain ⟨contacts, oid, file, heq | ⟨contact, q, -, heq⟩⟩ := addContact_cases n invite writeOk
  · rw [heq]
    rfl
  · rw [heq, addSession]
    dsimp only
    split
    · rename_i hnone
      simp only [waiting, Dict.get?_set]
      split_ifs with hq
      · rw [hq, hnone]
        rfl
      · rfl
    · rename_i w hw
      simp only [waiting, Dict.get?_set]
      split_ifs with hq
      · rw [hq, hw]
        rfl
      · rfl

/-- A reply that is accepted in a session comes from the peer of the session. -/
theorem History.sender_of_reply {identity : Identity F} {past : Past F} {t : Nat}
    {w : SessionWorld F} {reply : Members F} {now : UInt64} {sender recipient nonce : Str}
    {contact : Ref (Contact F)} (h : History identity n past)
    (ht : n.task? q t = some (w, .initiate .requesting))
    (hacc : Accepts n reply (some w.session.contact.val.peerId) none now sender recipient nonce
      contact) : senderOf reply = q := by
  obtain ⟨hw, htask⟩ := task?_eq_some.mp ht
  have htended := h.sessions q w hw
  have hexp := hacc.checked.expectedFrom
  rw [htended.contact] at hexp
  rw [Checked.senderOf_eq hacc.checked]
  exact eq_of_expected (ne_nil_of_lt (htended.tasks t _ htask).dials) hexp

/-- Every step of a node is covered. -/
theorem Account.covers_step (h : Account n p place spend earn) {identity : Identity F}
    {past : Past F} (hhist : History identity n past) {b : Act F} (hs : Step n b n' out) :
    Covers spend earn (n.waiting p place) (n'.waiting p place) out := by
  unfold Covers
  have hwrote : ∀ bytes, spend (.wrote bytes) = false := fun bytes => h.idle _ rfl
  have haccepted : ∀ msg contact now, spend (.accepted msg contact now) = false :=
    fun msg contact now => h.idle _ rfl
  cases hs with
  | unread => simp [hwrote]
  | rejected => simp [hwrote, h.idle (.rejected _ _) rfl]
  | accepted stream now replyMs random m rest sender recipient nonce contact _ out hread hacc hd =>
    have hnoted : (n.noted sender nonce).waiting p place = n.waiting p place := rfl
    rcases dispatch_cases hd with ⟨rfl, e, rfl⟩ | ⟨payload, -, -, hs⟩ | ⟨payload, -, -, rfl, rfl⟩
    · simp [hwrote, haccepted, hnoted]
    · -- the new coroutine holds what the acceptance has earned
      obtain ⟨w, old, new, o, -, hturn, -, rfl, hcount⟩ := turns_stepSession hs
      have h₁ := hcount p place h.finished
      have hnew : held p place (senderOf m) new ≤
          (earn (.accepted m (some contact) now)).toNat := by
        rcases hturn.callOffer.1 with rfl | rfl
        · have hcalled := h.called m (some contact) now
          unfold held
          cases hplace : place (.offer m .lock) with
          | false => simp
          | true =>
            rw [hcalled hplace]
            exact Bool.toNat_le _
        · simp [held, h.finished]
      obtain rfl := hturn.callOffer.2
      rw [hnoted] at h₁
      rw [List.map_nil, List.countP_singleton, List.countP_singleton, haccepted]
      rw [Bool.toNat, Bool.cond_eq_ite] at hnew
      simp only [Bool.false_eq_true, if_false]
      omega
    · have hpong : ∀ call envelope, (spend (.built (.pong m) call envelope)).toNat ≤ 0 := by
        intro call envelope
        rw [h.idle _ rfl]
        exact Nat.le_refl 0
      have hle := h.countP_respond (n.noted sender nonce) (hpong
        { toPeerId := .str (senderOf m)
          payload := [(Field.type, .str Kind.pong),
            (Field.sessionId, (Dict.get? payload Field.sessionId).getD (.str []))]
          random := random
          nowMs := replyMs })
      rw [List.countP_cons, haccepted, hnoted]
      simp only [Bool.false_eq_true, if_false]
      omega
  | answered q t desc now random w m _ out ht hs =>
    have hnew : ∀ new o, SessionWorld.Turn (.gathered t) (.offer m .negotiating) new o →
        (new = .finished ∨ new = .finished) ∧ o = [] := by
      intro new o hturn
      simpa using hturn.gathered
    obtain ⟨rfl, hcount⟩ := waiting_turn hs rfl ht hnew h.finished p
    have hle := h.countP_respond n (fun envelope => h.answered q t w m
      { toPeerId := .str (senderOf m)
        payload := descPayload Kind.answer w.session.currentSessionId desc
        random := random
        nowMs := now } envelope ht)
    have hnone : held p place q .finished = 0 := by simp [held, h.finished]
    rw [List.nil_append]
    omega
  | dialed q w _ out hw hmem hs => exact h.covers_quiet (Or.inl rfl) hs
  | requested q t desc now random online w envelope _ out act sent ht henv hact hs =>
    have hnew : ∀ new o, SessionWorld.Turn act (.initiate .negotiating) new o →
        (new = .initiate .requesting ∨ new = .finished) ∧ o = [] := by
      intro new o hturn
      rcases hact with ⟨rfl, -⟩ | ⟨rfl, -⟩
      · simpa using hturn.gathered
      · exact ⟨Or.inr hturn.raised.1, hturn.raised.2⟩
    have hindex : act.index? = some t := by
      rcases hact with ⟨rfl, -⟩ | ⟨rfl, -⟩ <;> rfl
    obtain ⟨rfl, hcount⟩ := waiting_turn hs hindex ht hnew h.finished p
    have hoffer := h.requested q t w
      { toPeerId := w.session.contact.val.peerId
        payload := descPayload Kind.offer w.session.currentSessionId desc
        random := random
        nowMs := now } envelope ht rfl
    have hsent : sent.countP spend = 0 := by
      rcases hact with ⟨-, rfl⟩ | ⟨-, rfl⟩ <;> simp [hwrote]
    rw [Bool.toNat, Bool.cond_eq_ite, Bool.toNat, Bool.cond_eq_ite] at hoffer
    rw [List.append_nil, List.countP_cons, List.countP_cons, hsent]
    omega
  | replied q t stream now w reply rest sender recipient nonce contact _ out act ht hread hacc
      hact hs =>
    have hnew : ∀ new o, SessionWorld.Turn act (.initiate .requesting) new o →
        (new = .initiate (.applying reply) ∨ new = .finished) ∧ o = [] := by
      intro new o hturn
      rcases hact with ⟨rfl, -⟩ | rfl
      · exact hturn.replied
      · exact ⟨Or.inr hturn.raised.1, hturn.raised.2⟩
    have hindex : act.index? = some t := by
      rcases hact with ⟨rfl, -⟩ | rfl <;> rfl
    obtain ⟨rfl, hcount⟩ := waiting_turn (n := n.noted sender nonce) hs hindex ht hnew h.finished p
    have hreply := h.replied q t w reply (some contact) now ht (hhist.sender_of_reply ht hacc)
    have hnoted : (n.noted sender nonce).waiting p place = n.waiting p place := rfl
    rw [Bool.toNat, Bool.cond_eq_ite, Bool.toNat, Bool.cond_eq_ite] at hreply
    rw [hnoted] at hcount
    rw [List.countP_singleton, List.countP_singleton]
    omega
  | session a q act _ out rest hin hact hrest hs =>
    have hquiet := h.covers_quiet (Or.inr hact) hs
    have hrest : rest.countP spend = 0 := by
      rcases hrest with rfl | ⟨e, rfl⟩ <;> simp [hwrote]
    unfold Covers at hquiet
    rw [List.countP_append, List.countP_append]
    omega
  | addContact invite writeOk =>
    rw [waiting_addContact]
    simp

/-! ### The stages of a handshake -/

variable {identity : Identity F} {past : Past F}

omit [Float64 F] [PyRepr F] in
/-- The coroutines that have not taken the offer up yet. -/
theorem account_tookUp (n : Node F) (p : Str) (msg : Members F) :
    Account n p (untaken msg) (isTookUp p msg) (isAccepted msg) := by
  constructor
  · rfl
  · intro e he
    cases e <;> simp_all [isIdle, isTookUp]
  · intro q e hq
    cases e <;> simp [isTookUp, sessionEvent, hq]
  · intro a old new o ha h
    rcases ha.turn_cases h with ⟨rfl, rfl⟩ | ⟨rfl, rfl⟩ | ⟨rfl | rfl, rfl⟩ | ⟨⟨_, rfl⟩, rfl⟩ |
      ⟨m, rfl, rfl, rfl⟩ | ⟨m, phase, sid, hphase, rfl, hnew, rfl⟩ | ⟨sid, m, rfl, rfl, rfl⟩
    case inr.inr.inr.inr.inr.inl =>
      -- the credit of the coroutine is spent
      by_cases hm : m = msg <;> rcases hphase with rfl | rfl <;> rcases hnew with rfl | rfl <;>
        simp [untaken, isTookUp, isAccepted, sessionEvent, hm]
    all_goals simp [untaken, isTookUp, sessionEvent]
  · intro m contact now h
    simpa [untaken, isAccepted] using h
  · intro q t w m call envelope _
    simp [isTookUp]
  · intro q t w call envelope _ _
    simp [isTookUp, held, untaken]
  · intro q t w reply contact now _ _
    simp [isTookUp, held, untaken]

omit [PyRepr F] in
/-- The message may only be answered in the session of its sender. -/
theorem account_answer (hhist : History identity n past) (msg : Members F) :
    Account n (senderOf msg) (unanswered msg) (isAnswer msg) (isTookUp (senderOf msg) msg) := by
  constructor
  · rfl
  · intro e he
    cases e with
    | built why => cases why <;> simp_all [isIdle, isAnswer]
    | _ => simp [isAnswer]
  · intro q e hq
    cases e <;> simp [isAnswer, sessionEvent]
  · intro a old new o ha h
    rcases ha.turn_cases h with ⟨rfl, rfl⟩ | ⟨rfl, rfl⟩ | ⟨rfl | rfl, rfl⟩ | ⟨⟨_, rfl⟩, rfl⟩ |
      ⟨m, rfl, rfl, rfl⟩ | ⟨m, phase, sid, hphase, rfl, hnew, rfl⟩ | ⟨sid, m, rfl, rfl, rfl⟩
    case inr.inr.inr.inr.inr.inl =>
      -- the coroutine holds what it has earned
      by_cases hm : m = msg <;> rcases hphase with rfl | rfl <;> rcases hnew with rfl | rfl <;>
        simp [unanswered, isAnswer, isTookUp, sessionEvent, hm]
    all_goals simp [unanswered, isAnswer, sessionEvent]
  · intro m contact now h
    simp [unanswered] at h
  · intro q t w m call envelope ht
    -- the coroutine works on a message of the peer of its session
    obtain ⟨hw, htask⟩ := task?_eq_some.mp ht
    have hsender := ((hhist.sessions q w hw).tasks t _ htask).1.sender
    by_cases hm : m = msg
    · subst hm
      simp [isAnswer, held, unanswered, hsender]
    · simp [isAnswer, hm]
  · intro q t w call envelope _ _
    simp [isAnswer, held, unanswered]
  · intro q t w reply contact now _ _
    simp [isAnswer, held, unanswered]

omit [PyRepr F] in
/-- The coroutines that still wait for a reply. -/
theorem account_reply (hhist : History identity n past) (p : Str) :
    Account n p unreplied (isReplyOf p) (isOfferFor p) := by
  constructor
  · rfl
  · intro e he
    cases e <;> simp_all [isIdle, isReplyOf]
  · intro q e hq
    cases e <;> simp [isReplyOf, sessionEvent]
  · intro a old new o ha h
    rcases ha.turn_cases h with ⟨rfl, rfl⟩ | ⟨rfl, rfl⟩ | ⟨rfl | rfl, rfl⟩ | ⟨⟨_, rfl⟩, rfl⟩ |
      ⟨m, rfl, rfl, rfl⟩ | ⟨m, phase, sid, -, rfl, rfl | rfl, rfl⟩ | ⟨sid, m, rfl, rfl, rfl⟩ <;>
      simp [unreplied, isReplyOf, sessionEvent]
  · intro m contact now h
    simp [unreplied] at h
  · intro q t w m call envelope _
    simp [isReplyOf]
  · intro q t w call envelope ht hto
    obtain ⟨hw, -⟩ := task?_eq_some.mp ht
    rw [(hhist.sessions q w hw).contact] at hto
    by_cases hq : q = p <;> simp [isReplyOf, isOfferFor, held, unreplied, hto, hq]
  · intro q t w reply contact now _ hsender
    by_cases hq : q = p <;> simp [isReplyOf, held, unreplied, hsender, hq]

omit [Float64 F] [PyRepr F] in
/-- The coroutines that have a reply to apply. -/
theorem account_applied (n : Node F) (p : Str) (reply : Members F) :
    Account n p (unapplied reply) (isApplied p reply) (isReply reply) := by
  constructor
  · rfl
  · intro e he
    cases e <;> simp_all [isIdle, isApplied]
  · intro q e hq
    cases e <;> simp [isApplied, sessionEvent, hq]
  · intro a old new o ha h
    rcases ha.turn_cases h with ⟨rfl, rfl⟩ | ⟨rfl, rfl⟩ | ⟨rfl | rfl, rfl⟩ | ⟨⟨_, rfl⟩, rfl⟩ |
      ⟨m, rfl, rfl, rfl⟩ | ⟨m, phase, sid, -, rfl, rfl | rfl, rfl⟩ | ⟨sid, m, rfl, rfl, rfl⟩
    case inr.inr.inr.inr.inr.inr =>
      -- the credit of the coroutine is spent
      by_cases hm : m = reply <;> simp [unapplied, isApplied, isReply, sessionEvent, hm]
    all_goals simp [unapplied, isApplied, sessionEvent]
  · intro m contact now h
    simp [unapplied] at h
  · intro q t w m call envelope _
    simp [isApplied]
  · intro q t w call envelope _ _
    simp [isApplied, held, unapplied]
  · intro q t w m contact now _ hsender
    by_cases hm : m = reply <;> by_cases hq : q = p <;>
      simp [isApplied, isReply, held, unapplied, hm, hq]

/-! ### Runs -/

omit [PyRepr F] in
/-- A process that starts has no coroutines. -/
theorem waiting_boot {file : Option Text} (hboot : boot identity file = .ok n) (p : Str) :
    n.waiting p place = 0 := by
  have hsession : ∀ w, Dict.get? n.sessions p = some w → w.tasks = [] := by
    obtain ⟨l, -, -, -, -, -, hsessions, -⟩ := boot_ok hboot
    intro w hw
    have hspec : (Dict.keys n.sessions).Nodup ∧ ∀ ps ∈ n.sessions, ps.2.tasks = [] := by
      rw [hsessions]
      refine Dict.ofPairs_spec fun ps hps => ?_
      obtain ⟨c, -, rfl⟩ := List.mem_map.mp hps
      rfl
    exact hspec.2 _ (Dict.get?_mem hw)
  unfold waiting
  cases hw : Dict.get? n.sessions p with
  | none => rfl
  | some w => simp [hsession w hw]

/-- No run spends more than it has earned. -/
theorem account_run {file : Option Text} {as : List (HostAct F)}
    {c : Config (Node F) (Option (Event F))} (hboot : boot identity file = .ok n)
    (hacc : ∀ m past, History identity m past → Account m p place spend earn)
    (h : host.run ⟨n, []⟩ as = some c) :
    c.log.countP (Option.any spend) ≤ c.log.countP (Option.any earn) := by
  have hcovers : Covers (Option.any spend) (Option.any earn) (n.waiting p place)
      (c.state.waiting p place) c.log := by
    refine Machine.tally_run (fun m : Node F => m.waiting p place) ?_ h
    intro bs d b s' out hbs hstep
    have hhist := history_run hboot hbs
    rcases host_cases hstep with ⟨b', o, -, hstep', rfl⟩ | ⟨-, hboot', rfl⟩
    · have hstep'' := (hacc _ _ hhist).covers_step hhist (step_outcome hstep')
      unfold Covers at hstep'' ⊢
      rw [List.countP_map, List.countP_map]
      exact hstep''
    · unfold Covers
      rw [waiting_boot hboot']
      simp
  unfold Covers at hcovers
  rw [waiting_boot hboot] at hcovers
  omega

/-- In every run of a node, restarts included, every accepted offer is taken up at most once and
answered at most once, and every offer is completed by at most one reply, which is applied at
most once.

Each inequality is an account (`account_run`): the coroutines between the two stages make up for
the difference, and a restart only takes coroutines away. -/
theorem handled_at_most_once {file : Option Text} {as : List (HostAct F)}
    {c : Config (Node F) (Option (Event F))} (hboot : boot identity file = .ok n)
    (h : host.run ⟨n, []⟩ as = some c) (p : Str) (msg : Members F) :
    c.log.countP (Option.any (isTookUp p msg)) ≤ c.log.countP (Option.any (isAccepted msg)) ∧
    c.log.countP (Option.any (isAnswer msg)) ≤
      c.log.countP (Option.any (isTookUp (senderOf msg) msg)) ∧
    c.log.countP (Option.any (isReplyOf p)) ≤ c.log.countP (Option.any (isOfferFor p)) ∧
    c.log.countP (Option.any (isApplied p msg)) ≤ c.log.countP (Option.any (isReply msg)) :=
  ⟨account_run hboot (fun m _ _ => account_tookUp m p msg) h,
    account_run hboot (fun _ _ hhist => account_answer hhist msg) h,
    account_run hboot (fun _ _ hhist => account_reply hhist p) h,
    account_run hboot (fun m _ _ => account_applied m p msg) h⟩

end

end Node

/-! ### An offer that is answered -/

namespace Sample

/-- The second node gets an offer of the first, answers it and is started again. -/
def handledRun : List (HostAct Empty) :=
  [.node (.addContact (invited 1) true),
   .node (.inbound (line 1 2 (descPayload Kind.offer (.str (Str.ofText ['s'])) (['v'], ['o'])) 7
    1000) 1001 1002 (random 8)),
   .node (.session (identity 1).peerId (.acquire 0 [])),
   .node (.answer (identity 1).peerId 0 (['w'], ['a']) 1003 (random 9)),
   .restart]

/-- The messages that were answered. -/
def answeredIn (log : Past Empty) : List (Members Empty) :=
  log.filterMap fun
    | some (.built (.answer msg) _ _) => some msg
    | _ => none

end Sample

theorem handled_at_most_once_sample : ∃ n c msg,
    Node.boot (Sample.identity 2) none = .ok n ∧
    Node.host.run ⟨n, []⟩ Sample.handledRun = some c ∧ Sample.answeredIn c.log = [msg] ∧
    c.log.countP (Option.any (Node.isAnswer msg)) ≤
      c.log.countP (Option.any (Node.isTookUp (senderOf msg) msg)) := by
  have hok : (Node.boot (Sample.identity 2) none).toOption.any (fun n =>
      (Node.host.run ⟨n, []⟩ Sample.handledRun).any fun c =>
        (Sample.answeredIn c.log).length = 1) = true := by
    decide +kernel
  obtain ⟨n, hn, hrun⟩ := (Option.any_eq_true _ _).mp hok
  obtain ⟨c, hc, hlen⟩ := (Option.any_eq_true _ _).mp hrun
  obtain ⟨msg, hmsg⟩ := List.length_eq_one_iff.mp (of_decide_eq_true hlen)
  exact ⟨n, c, msg, Sample.eq_ok_of_toOption hn, hc, hmsg,
    (Node.handled_at_most_once (Sample.eq_ok_of_toOption hn) hc (senderOf msg) msg).2.1⟩

end P4

/-
  Everything a node can do in one step.

  `Step` lists the outcomes of `Node.step` with the checks that lead to them; the invariants of
  nodes and systems are proved from it, one case each, without opening the definitions.
-/
import P4.Node.Basic
import P4.Node.Equiv.Message

namespace P4

namespace Node

variable {F : Type} [DecidableEq F] [Float64 F] [Crates F] [PyRepr F]

/-! ### Sessions -/

omit [DecidableEq F] [Float64 F] [PyRepr F] in
/-- A step of a session is a step of the session machine, with its events. -/
theorem stepSession_eq_some {n n' : Node F} {p : Str} {act : SessionAct F}
    {out : List (Event F)} :
    n.stepSession p act = some (n', out) ↔ ∃ w w' o, Dict.get? n.sessions p = some w ∧
      SessionWorld.step w act = some (w', o) ∧
      n' = { n with sessions := Dict.set n.sessions p w' } ∧ out = o.map (sessionEvent p) := by
  unfold stepSession
  constructor
  · intro h
    split at h
    · cases h
    · rename_i w hw
      split at h
      · cases h
      · rename_i w' o hs
        cases h
        exact ⟨w, w', o, hw, hs, rfl, rfl⟩
  · rintro ⟨w, w', o, hw, hs, rfl, rfl⟩
    rw [hw]
    dsimp only
    rw [hs]

omit [DecidableEq F] [Float64 F] [PyRepr F] in
theorem task?_eq_some {n : Node F} {p : Str} {t : Nat} {w : SessionWorld F} {task : Task F} :
    n.task? p t = some (w, task) ↔
      Dict.get? n.sessions p = some w ∧ w.tasks[t]? = some task := by
  unfold task?
  cases Dict.get? n.sessions p with
  | none => simp
  | some w' =>
    simp only [Option.map_eq_some_iff, Prod.mk.injEq, Option.some.injEq]
    constructor
    · rintro ⟨task', ht, rfl, rfl⟩
      exact ⟨rfl, ht⟩
    · rintro ⟨rfl, ht⟩
      exact ⟨task, ht, rfl, rfl⟩

/-! ### Outcomes -/

/-- The message was accepted: it passed the checks and its nonce is new. -/
structure Accepts (n : Node F) (msg : Members F) (ef et : Option (Json F)) (now : UInt64)
    (sender recipient nonce : Str) (contact : Ref (Contact F)) : Prop where
  checked : Checked n.contacts msg ef et now sender recipient nonce contact
  fresh : (n.replay.seen sender nonce).1 = false

/-- The node after the replay window has taken the nonce. -/
def noted (n : Node F) (sender nonce : Str) : Node F :=
  { n with replay := (n.replay.seen sender nonce).2 }

/-- The action is the delivery of a line to the signaling server. -/
def isInbound : Act F → Bool
  | .inbound _ _ _ _ => true
  | _ => false

/-- The outcomes of a step. -/
inductive Step (n : Node F) : Act F → Node F → List (Event F) → Prop
  /-- no message could be read -/
  | unread (stream now replyMs random e) : readJsonLine (F := F) stream = .error e →
    Step n (.inbound stream now replyMs random) n [.wrote (errorLine F e)]
  /-- a message was read and rejected -/
  | rejected (stream now replyMs random msg rest e) :
    readJsonLine (F := F) stream = .ok (msg, rest) →
    validateMessage n.contacts n.replay msg none (some (.str n.identity.peerId)) now =
      (.error e, n.replay) →
    Step n (.inbound stream now replyMs random) n [.rejected msg e, .wrote (errorLine F e)]
  /-- a message was accepted and dispatched -/
  | accepted (stream now replyMs random msg rest sender recipient nonce contact n' out) :
    readJsonLine (F := F) stream = .ok (msg, rest) →
    Accepts n msg none (some (.str n.identity.peerId)) now sender recipient nonce contact →
    (n.noted sender nonce).dispatch msg replyMs random = (n', out) →
    Step n (.inbound stream now replyMs random) n' (.accepted msg (some contact) now :: out)
  /-- an offer was answered -/
  | answered (p t desc now random w msg n' out) :
    n.task? p t = some (w, .offer msg .negotiating) →
    n.stepSession p (.gathered t) = some (n', out) →
    Step n (.answer p t desc now random) n' (out ++ n.respond (.answer msg)
      { toPeerId := .str (senderOf msg)
        payload := descPayload Kind.answer w.session.currentSessionId desc
        random := random
        nowMs := now })
  /-- a maintainer dials -/
  | dialed (p w n' out) : Dict.get? n.sessions p = some w → p ∈ n.maintainers →
    n.stepSession p .callInitiate = some (n', out) → Step n (.dial p) n' out
  /-- an offer was built and perhaps sent -/
  | requested (p t desc now random online w envelope n' out act sent) :
    n.task? p t = some (w, .initiate .negotiating) →
    buildMessage n.identity w.session.contact.val.peerId
      (descPayload Kind.offer w.session.currentSessionId desc) random now = .ok envelope →
    act = .gathered t ∧ sent = [.wrote (envelopeLine envelope)] ∨ act = .raised t ∧ sent = [] →
    n.stepSession p act = some (n', out) →
    Step n (.request p t desc now random online) n' (.built .offer
      { toPeerId := w.session.contact.val.peerId
        payload := descPayload Kind.offer w.session.currentSessionId desc
        random := random
        nowMs := now } envelope :: sent ++ out)
  /-- a reply was accepted, and is applied if it is the answer to the offer -/
  | replied (p t stream now w reply rest sender recipient nonce contact n' out act) :
    n.task? p t = some (w, .initiate .requesting) →
    readJsonLine (F := F) stream = .ok (reply, rest) →
    Accepts n reply (some w.session.contact.val.peerId) none now sender recipient nonce
      contact →
    act = .replied t reply ∧ checkAnswer w.session.currentSessionId reply = true ∨
      act = .raised t →
    (n.noted sender nonce).stepSession p act = some (n', out) →
    Step n (.reply p t stream now) n' (.replyAccepted reply (some contact) now :: out)
  /-- a coroutine of a session ends, or another step that concerns only the session -/
  | session (a p act n' out rest) : isInbound a = false → act.isInternal = true ∨ act = .callDrop ∨
      (∃ t, act = .raised t) → rest = [] ∨ (∃ e, rest = [.wrote (errorLine F e)]) →
    n.stepSession p act = some (n', out) → Step n a n' (out ++ rest)
  /-- a contact was added -/
  | addContact (invite writeOk) :
    Step n (.addContact invite writeOk) (n.addContact invite.val writeOk).2 []

/-- The sender that was checked is the one in the message. -/
theorem Checked.senderOf_eq {contacts : Dict (Key F) (Ref (Contact F))} {msg : Members F}
    {ef et : Option (Json F)} {now : UInt64} {sender recipient nonce : Str}
    {contact : Ref (Contact F)}
    (h : Checked contacts msg ef et now sender recipient nonce contact) :
    senderOf msg = sender := by
  rw [senderOf, h.senderIs]

omit [DecidableEq F] [PyRepr F] in
/-- An offer that ends early is answered with one error line. -/
theorem incompleteOffer_eq (n n' : Node F) (p : Str) (act : SessionAct F) :
    incompleteOffer n n' p act = [] ∨
      ∃ e, incompleteOffer n n' p act = [.wrote (errorLine F e)] := by
  unfold incompleteOffer
  split
  · exact Or.inl rfl
  · split
    · rename_i msg _ _ _ _
      cases missingMember? msg with
      | none => exact Or.inl rfl
      | some member => exact Or.inr ⟨.key member, rfl⟩
    · exact Or.inl rfl

/-- Every step has one of the outcomes. -/
theorem step_outcome {n n' : Node F} {a : Act F} {out : List (Event F)}
    (h : step n a = some (n', out)) : Step n a n' out := by
  cases a with
  | inbound stream now replyMs random =>
    -- `_handle_signal_conn`: the line, the checks, the dispatch
    simp only [step, Option.some.injEq] at h
    unfold handleSignalConn at h
    split at h
    · rename_i e he
      cases h
      exact .unread _ _ _ _ _ he
    · rename_i msg rest hread
      split at h
      · rename_i e replay hval
        -- a rejected message leaves the replay window as it was
        have hreplay := validateMessage_error hval
        subst hreplay
        cases h
        exact .rejected _ _ _ _ _ _ _ hread hval
      · rename_i replay hval
        obtain ⟨sender, recipient, nonce, contact, hch, hfresh, rfl⟩ := validateMessage_ok hval
        have hc : Dict.get? n.contacts (.str (senderOf msg)) = some contact := by
          rw [Checked.senderOf_eq hch, hch.contactIs]
        rw [hc] at h
        cases h
        exact .accepted _ _ _ _ _ _ _ _ _ _ _ _ hread ⟨hch, hfresh⟩ rfl
  | answer p t desc now random =>
    -- `_handle_offer`, once the description is there
    simp only [step, answerOffer] at h
    split at h
    · rename_i w msg ht
      obtain ⟨⟨n₁, out₁⟩, hs, heq⟩ := Option.map_eq_some_iff.mp h
      cases heq
      exact .answered _ _ _ _ _ _ _ _ _ ht hs
    · cases h
  | dial p =>
    simp only [step] at h
    split at h
    · cases h
    · rename_i w hw
      split_ifs at h with hmem
      exact .dialed _ _ _ _ hw hmem.1 h
  | request p t desc now random online =>
    -- `_initiate`: the offer is built, and then sent if the peer can be reached
    simp only [step, requestOffer] at h
    split at h
    · rename_i w ht
      split at h
      · rename_i e he
        have := Step.session (n := n) (.request p t desc now random online) p (.raised t) n' out []
          rfl (Or.inr (Or.inr ⟨t, rfl⟩)) (Or.inl rfl) h
        rwa [List.append_nil] at this
      · rename_i envelope henv
        split_ifs at h
        · obtain ⟨⟨n₁, out₁⟩, hs, heq⟩ := Option.map_eq_some_iff.mp h
          cases heq
          exact .requested _ _ _ _ _ _ _ _ _ _ _ _ ht henv (Or.inl ⟨rfl, rfl⟩) hs
        · obtain ⟨⟨n₁, out₁⟩, hs, heq⟩ := Option.map_eq_some_iff.mp h
          cases heq
          exact .requested _ _ _ _ _ _ _ _ _ _ _ _ ht henv (Or.inr ⟨rfl, rfl⟩) hs
    · cases h
  | reply p t stream now =>
    -- the rest of `_initiate`; every failure on the way ends the coroutine
    simp only [step, receiveReply] at h
    have hraised : ∀ n₁ out₁, n.stepSession p (.raised t) = some (n₁, out₁) →
        Step n (.reply p t stream now) n₁ out₁ := by
      intro n₁ out₁ hs
      have := Step.session (n := n) (.reply p t stream now) p (.raised t) n₁ out₁ []
        rfl (Or.inr (Or.inr ⟨t, rfl⟩)) (Or.inl rfl) hs
      rwa [List.append_nil] at this
    split at h
    · rename_i w ht
      split at h
      · exact hraised _ _ h
      · rename_i reply rest hread
        split at h
        · exact hraised _ _ h
        · split at h
          · rename_i e replay hval
            have hreplay := validateMessage_error hval
            subst hreplay
            exact hraised _ _ h
          · rename_i replay hval
            obtain ⟨sender, recipient, nonce, contact, hch, hfresh, rfl⟩ :=
              validateMessage_ok hval
            have hc : Dict.get? n.contacts (.str (senderOf reply)) = some contact := by
              rw [Checked.senderOf_eq hch, hch.contactIs]
            rw [hc] at h
            obtain ⟨⟨n₁, out₁⟩, hs, heq⟩ := Option.map_eq_some_iff.mp h
            cases heq
            refine .replied _ _ _ _ _ _ _ _ _ _ _ _ _ _ ht hread ⟨hch, hfresh⟩ ?_ hs
            split_ifs with hans
            · exact Or.inl ⟨rfl, hans⟩
            · exact Or.inr rfl
    · cases h
  | drop p =>
    have := Step.session (n := n) (.drop p) p .callDrop n' out [] rfl (Or.inr (Or.inl rfl))
      (Or.inl rfl) h
    rwa [List.append_nil] at this
  | raised p t e =>
    -- an offer's exception is answered with an error line, another's is not
    simp only [step] at h
    split at h
    · obtain ⟨⟨n₁, out₁⟩, hs, heq⟩ := Option.map_eq_some_iff.mp h
      cases heq
      exact .session _ p (.raised t) _ _ _ rfl (Or.inr (Or.inr ⟨t, rfl⟩)) (Or.inr ⟨e, rfl⟩) hs
    · have := Step.session (n := n) (.raised p t e) p (.raised t) n' out []
        rfl (Or.inr (Or.inr ⟨t, rfl⟩)) (Or.inl rfl) h
      rwa [List.append_nil] at this
  | session p act =>
    simp only [step] at h
    split_ifs at h with hint
    obtain ⟨⟨n₁, out₁⟩, hs, heq⟩ := Option.map_eq_some_iff.mp h
    cases heq
    exact .session _ p act _ _ _ rfl (Or.inl hint) (incompleteOffer_eq n n₁ p act) hs
  | addContact invite writeOk =>
    simp only [step, Option.some.injEq] at h
    cases h
    exact .addContact _ _

/-- Everything that the process of a state directory can do. -/
theorem host_cases {n n' : Node F} {a : HostAct F} {out : List (Option (Event F))}
    (h : host n a = some (n', out)) :
    (∃ b o, a = .node b ∧ step n b = some (n', o) ∧ out = o.map some) ∨
      (a = .restart ∧ boot n.identity n.contactsFile = .ok n' ∧ out = [none]) := by
  cases a with
  | node b =>
    obtain ⟨⟨n₁, o⟩, hstep, heq⟩ := Option.map_eq_some_iff.mp h
    cases heq
    exact Or.inl ⟨b, o, rfl, hstep, rfl⟩
  | restart =>
    simp only [host] at h
    split at h
    · rename_i n₁ hboot
      cases h
      exact Or.inr ⟨rfl, hboot, rfl⟩
    · cases h

end Node

end P4

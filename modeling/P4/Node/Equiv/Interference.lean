/-
  Messages that are rejected do not interfere with a node.

  A run in which deliveries that `_validate_message` rejects are mixed in at any points ends in
  the same state, with the same events of everything else, as the run without them; and the
  replay window of a peer changes only when a message verified under the key of the contact
  entry of that peer.
-/
import P4.Node.Equiv.Acceptance
import P4.Sample.Equiv.Laws

namespace P4

namespace Node

variable {F : Type} [DecidableEq F] [Float64 F] [Crates F] [PyRepr F]

/-- A connection that delivers bytes to the signaling server, with the clock readings and the
random bytes the handler meets. -/
structure Delivery where
  stream : List UInt8
  nowMs : UInt64
  replyMs : UInt64
  random : FixedBytes 16

/-- The delivery as an action of the node. -/
def Delivery.act (d : Delivery) : Act F := .inbound d.stream d.nowMs d.replyMs d.random

/-- The machine of the node with deliveries mixed in: on the left its own actions and events,
on the right what was mixed in. -/
def mixed : Machine (Node F) (Act F ⊕ Delivery) (Event F ⊕ Event F) := fun n a =>
  match a with
  | .inl a => (step n a).map fun r => (r.1, r.2.map Sum.inl)
  | .inr d => (step n d.act).map fun r => (r.1, r.2.map Sum.inr)

/-- The delivery brings a message that `_validate_message` rejects. -/
def Rejects (n : Node F) (d : Delivery) : Prop :=
  ∃ msg rest e, readJsonLine (F := F) d.stream = .ok (msg, rest) ∧
    (validateMessage n.contacts n.replay msg none (some (.str n.identity.peerId)) d.nowMs).1 =
      .error e

/-- A rejected delivery changes nothing. -/
theorem step_of_rejects {n : Node F} {d : Delivery} (h : Rejects n d) :
    ∃ out, step n d.act = some (n, out) := by
  obtain ⟨msg, rest, e, hread, hval⟩ := h
  obtain ⟨⟨n', out⟩, hstep⟩ : ∃ r, step n d.act = some r := ⟨_, rfl⟩
  refine ⟨out, ?_⟩
  rw [hstep]
  cases step_outcome hstep with
  | unread => rfl
  | rejected => rfl
  | accepted _ _ _ _ msg' rest' sender recipient nonce contact n' out hread' hacc hd =>
    rw [hread] at hread'
    cases hread'
    rw [hacc.checked.validateMessage] at hval
    dsimp only at hval
    rw [hacc.fresh] at hval
    cases hval
  | session _ p act n' out rest hin => cases hin

/-- The own events of a log. -/
def own (log : List (Event F ⊕ Event F)) : List (Event F) := log.filterMap Sum.getLeft?

/-- The own actions of a run. -/
def ownActs (as : List (Act F ⊕ Delivery)) : List (Act F) := as.filterMap Sum.getLeft?

omit [DecidableEq F] [Float64 F] [Crates F] [PyRepr F] in
theorem own_append_inl (out : List (Event F)) (log : List (Event F ⊕ Event F)) :
    own ((out.map Sum.inl).reverse ++ log) = out.reverse ++ own log := by
  have h : (out.map Sum.inl).reverse.filterMap (Sum.getLeft? (β := Event F)) = out.reverse := by
    rw [← List.map_reverse, List.filterMap_map]
    exact List.filterMap_some
  rw [own, List.filterMap_append, h]
  rfl

omit [DecidableEq F] [Float64 F] [Crates F] [PyRepr F] in
theorem own_append_inr (out : List (Event F)) (log : List (Event F ⊕ Event F)) :
    own ((out.map Sum.inr).reverse ++ log) = own log := by
  have h : (out.map Sum.inr).reverse.filterMap (Sum.getLeft? (α := Event F)) = [] := by
    rw [List.filterMap_eq_nil_iff]
    intro e he
    obtain ⟨e', -, rfl⟩ := List.mem_map.mp (List.mem_reverse.mp he)
    rfl
  rw [own, List.filterMap_append, h]
  rfl

/-- The run without the rejected deliveries. -/
theorem run_own {c c' : Config (Node F) (Event F ⊕ Event F)} {as : List (Act F ⊕ Delivery)}
    (hok : mixed.Meets (fun c a => ∀ d, a = .inr d → Rejects c.state d) c as)
    (h : mixed.run c as = some c') :
    Machine.run step ⟨c.state, own c.log⟩ (ownActs as) = some ⟨c'.state, own c'.log⟩ := by
  induction as generalizing c with
  | nil =>
    cases h
    rfl
  | cons a as ih =>
    obtain ⟨c₁, hnext, hrun⟩ := Machine.run_cons.mp h
    have hrest := ih (hok.2 c₁ hnext) hrun
    obtain ⟨out, hstep, hlog⟩ := Machine.next_eq_some.mp hnext
    cases a with
    | inl a =>
      -- the node's own act stays in the run
      obtain ⟨⟨n', out'⟩, hs, heq⟩ := Option.map_eq_some_iff.mp hstep
      obtain ⟨hstate, rfl⟩ := Prod.mk.inj heq
      rw [hlog, own_append_inl] at hrest
      refine Machine.run_cons.mpr ⟨_, Machine.next_eq_some.mpr ⟨out', ?_, rfl⟩, hrest⟩
      rw [← hstate]
      exact hs
    | inr d =>
      -- a rejected delivery leaves the node as it was, so it can be left out
      obtain ⟨out', hd⟩ := step_of_rejects (hok.1 d rfl)
      have hmixed : (step c.state d.act).map (fun r => (r.1, r.2.map Sum.inr)) =
          some (c₁.state, out) := hstep
      obtain ⟨⟨n', out''⟩, hs, heq⟩ := Option.map_eq_some_iff.mp hmixed
      obtain ⟨hstate, rfl⟩ := Prod.mk.inj heq
      rw [hd] at hs
      cases hs
      rw [hlog, own_append_inr, ← hstate] at hrest
      exact hrest

/-- Who can change the window of a peer: only the sender of a message that verified under the
key of the contact entry of that peer. -/
theorem replay_changes_by_key {n n' : Node F} {a : Act F} {out : List (Event F)}
    (h : step n a = some (n', out)) {p : Str}
    (hp : (Dict.get? n'.replay.seqs p, Dict.get? n'.replay.sets p) ≠
      (Dict.get? n.replay.seqs p, Dict.get? n.replay.sets p)) :
    ∃ msg contact now env K canonical sig,
      Dict.get? msg Field.senderPeerId = some (.str p) ∧
      Dict.get? n.contacts (.str p) = some contact ∧
      Verified msg contact.val.publicKeyB64 now env K canonical sig := by
  rcases step_acceptance (step_outcome h) with
    ⟨hr, -⟩ | ⟨_, _, msg, ef, et, now, sender, recipient, nonce, contact, -, hacc, hr, -⟩
  · rw [hr] at hp
    exact absurd rfl hp
  · by_cases hs : p = sender
    · subst hs
      obtain ⟨env, K, canonical, sig, hver⟩ := verifyMessage_ok hacc.checked.verified
      exact ⟨msg, contact, now, env, K, canonical, sig, hacc.checked.senderIs,
        hacc.checked.contactIs, hver⟩
    · obtain ⟨h₁, h₂⟩ := ReplayWindow.get?_seen_of_ne (w := n.replay) (n := nonce) hs
      rw [hr, h₁, h₂] at hp
      exact absurd rfl hp

/-- Deliveries that `_validate_message` rejects, mixed into a run at any points, change neither
the state the run ends in nor the events of anything else; and the window of a peer changes
only by a message that verified under the key of the contact entry of that peer.

A delivery that is rejected leaves the node as it is, so it can be taken out of the run step by
step (`run_own`); and only a message that passed all checks gets to the window. -/
theorem rejected_messages_do_not_interfere :
    (∀ (n : Node F) (as : List (Act F ⊕ Delivery)) (c : Config (Node F) (Event F ⊕ Event F)),
      mixed.Meets (fun c a => ∀ d, a = .inr d → Rejects c.state d) ⟨n, []⟩ as →
      mixed.run ⟨n, []⟩ as = some c →
      Machine.run step ⟨n, []⟩ (ownActs as) = some ⟨c.state, own c.log⟩) ∧
    ∀ (n n' : Node F) (a : Act F) (out : List (Event F)) (p : Str),
      step n a = some (n', out) →
      (Dict.get? n'.replay.seqs p, Dict.get? n'.replay.sets p) ≠
        (Dict.get? n.replay.seqs p, Dict.get? n.replay.sets p) →
      ∃ msg contact now env K canonical sig,
        Dict.get? msg Field.senderPeerId = some (.str p) ∧
        Dict.get? n.contacts (.str p) = some contact ∧
        Verified msg contact.val.publicKeyB64 now env K canonical sig := by
  constructor
  · intro n as c hok h
    exact run_own hok h
  · intro n n' a out p h hp
    exact replay_changes_by_key h hp

/-- A ping of a contact. -/
def samplePing : Act Empty :=
  .inbound (Sample.line 1 2 [(Field.type, .str Kind.ping)] 7 1000) 1001 1002 (Sample.random 8)

/-- The delivery of an empty dictionary, before a ping of a contact. -/
def sampleMixed : List (Act Empty ⊕ Delivery) :=
  [.inr { stream := [123, 125, 10], nowMs := 500, replyMs := 500, random := Sample.random 9 },
   .inl samplePing]

theorem rejected_messages_do_not_interfere_sample :
    (∃ c, mixed.run ⟨Sample.node 2 [1], []⟩ sampleMixed = some c ∧
      Machine.run step ⟨Sample.node 2 [1], []⟩ (ownActs sampleMixed)
        = some ⟨c.state, own c.log⟩) ∧
    ∃ msg contact now env K canonical sig,
      Dict.get? msg Field.senderPeerId = some (.str (Sample.identity 1).peerId) ∧
      Dict.get? (Sample.node 2 [1]).contacts (.str (Sample.identity 1).peerId) = some contact ∧
      Verified msg contact.val.publicKeyB64 now env K canonical sig := by
  constructor
  · obtain ⟨c, hc⟩ := Option.isSome_iff_exists.mp
      (show (mixed.run ⟨Sample.node 2 [1], []⟩ sampleMixed).isSome = true by decide +kernel)
    refine ⟨c, hc, rejected_messages_do_not_interfere.1 _ _ _ ?_ hc⟩
    refine ⟨fun d hd => ?_, fun c' _ => ⟨fun d hd => (nomatch hd), fun _ _ => trivial⟩⟩
    cases hd
    exact ⟨[], [], _, by decide +kernel, rfl⟩
  · have hwindow : (step (Sample.node 2 [1]) samplePing).map (fun r =>
        (Dict.get? r.1.replay.seqs (Sample.identity 1).peerId,
          Dict.get? r.1.replay.sets (Sample.identity 1).peerId)) ≠ some (none, none) := by
      decide +kernel
    obtain ⟨⟨n', out⟩, hs⟩ : ∃ r, step (Sample.node 2 [1]) samplePing = some r := ⟨_, rfl⟩
    refine rejected_messages_do_not_interfere.2 _ n' _ out _ hs ?_
    rw [hs] at hwindow
    exact fun heq => hwindow (congrArg some heq)

end Node

end P4

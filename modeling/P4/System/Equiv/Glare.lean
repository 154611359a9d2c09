/-
  Two nodes never dial each other.

  A maintainer runs only for a peer id that is greater than the node's own, in both places where
  the role is computed, and an update of a contact keeps its peer id.  So of two nodes one makes
  all the offers (`no_glare`).  Only `_initiate_with_contact` waits for a reply with a session
  lock in its hands, and the lock that the reply needs is that of the session of the dialing
  node: its holder does not dial, so it does not wait for a reply itself.
-/
import P4.System.Equiv.Answer

namespace P4

/-! ### Offers -/

namespace Node

variable {F : Type} [DecidableEq F] [Float64 F] [Crates F] [PyRepr F] {n n' : Node F}

omit [DecidableEq F] [Float64 F] [PyRepr F] in
/-- A step of a session builds nothing by itself. -/
theorem built_not_mem_stepSession {p : Str} {act : SessionAct F} {out : List (Event F)}
    (hs : n.stepSession p act = some (n', out)) {why : Purpose F} {call : BuildCall F}
    {envelope : Json F} : .built why call envelope ∉ out := by
  obtain ⟨w, w', o, -, -, -, rfl⟩ := stepSession_eq_some.mp hs
  intro hm
  obtain ⟨e, -, he⟩ := List.mem_map.mp hm
  cases e <;> cases he

omit [DecidableEq F] [PyRepr F] in
theorem why_of_mem_respond {why why' : Purpose F} {call call' : BuildCall F} {envelope : Json F}
    (h : .built why' call' envelope ∈ n.respond why call) : why' = why := by
  rcases respond_cases n why call with ⟨e, hout⟩ | ⟨envelope', -, hout⟩
  · rw [hout, List.mem_singleton] at h
    cases h
  · rw [hout, List.mem_cons, List.mem_singleton] at h
    rcases h with h | h <;> cases h
    rfl

/-- An offer is built by `_initiate_with_contact`, for the contact and with the session id of the
session. -/
theorem offer_of_step {a : Act F} {out : List (Event F)} (h : Step n a n' out)
    {call : BuildCall F} {envelope : Json F} (hm : .built .offer call envelope ∈ out) :
    ∃ p t w desc, n.task? p t = some (w, .initiate .negotiating) ∧
      call.toPeerId = w.session.contact.val.peerId ∧
      call.payload = descPayload Kind.offer w.session.currentSessionId desc := by
  cases h with
  | unread stream now replyMs random e =>
    cases List.mem_singleton.mp hm
  | rejected stream now replyMs random msg rest e =>
    simp only [List.mem_cons, List.not_mem_nil, or_false, reduceCtorEq] at hm
  | accepted stream now replyMs random msg rest sender recipient nonce contact _ out hread hacc
      hd =>
    rcases List.mem_cons.mp hm with heq | hm
    · cases heq
    · rcases dispatch_cases hd with
        ⟨-, e, rfl⟩ | ⟨payload, -, -, hs⟩ | ⟨payload, -, -, -, rfl⟩
      · cases List.mem_singleton.mp hm
      · exact absurd hm (built_not_mem_stepSession hs)
      · cases why_of_mem_respond hm
  | answered p t desc now random w msg _ out ht hs =>
    -- a response is an answer or a pong
    rcases List.mem_append.mp hm with hm | hm
    · exact absurd hm (built_not_mem_stepSession hs)
    · cases why_of_mem_respond hm
  | dialed p w _ out hw hmem hs => exact absurd hm (built_not_mem_stepSession hs)
  | requested p t desc now random online w envelope' _ out act sent ht henv hact hs =>
    -- the event is the offer itself, its line, or one of the session's
    refine ⟨p, t, w, desc, ht, ?_⟩
    rw [List.cons_append, List.mem_cons, List.mem_append] at hm
    rcases hm with heq | hm | hm
    · cases heq
      exact ⟨rfl, rfl⟩
    · rcases hact with ⟨-, rfl⟩ | ⟨-, rfl⟩
      · cases List.mem_singleton.mp hm
      · cases hm
    · exact absurd hm (built_not_mem_stepSession hs)
  | replied p t stream now w reply rest sender recipient nonce contact _ out act ht hread hacc
      hact hs =>
    rcases List.mem_cons.mp hm with heq | hm
    · cases heq
    · exact absurd hm (built_not_mem_stepSession hs)
  | session a p act _ out rest hin hact hrest hs =>
    rcases List.mem_append.mp hm with hm | hm
    · exact absurd hm (built_not_mem_stepSession hs)
    · rcases hrest with rfl | ⟨e, rfl⟩
      · cases hm
      · cases List.mem_singleton.mp hm
  | addContact invite writeOk => cases hm

end Node

section

variable {ι F : Type} [DecidableEq ι] [DecidableEq F] [Float64 F] [Crates F] [PyRepr F]
  {identities : ι → Identity F} {s : ι → Node F} {as : List (SystemAct ι F)}
  {c : Config (ι → Node F) (SystemEvent ι F)}

/-- An offer goes to a peer with a greater peer id, and its session id is a string. -/
theorem offer_made (hstart : Started identities s) (hrun : system.run ⟨s, []⟩ as = some c)
    {i : ι} {call : BuildCall F} {envelope : Json F}
    (he : .inl (i, some (.built .offer call envelope)) ∈ c.log) :
    ∃ p sid desc, call.toPeerId = .str p ∧ (identities i).peerId.lt p = true ∧
      call.payload = descPayload Kind.offer (.str sid) desc := by
  have halong : Along (fun _ e => ∀ i call envelope,
      e = .inl (i, some (.built .offer call envelope)) →
      ∃ p sid desc, call.toPeerId = .str p ∧ (identities i).peerId.lt p = true ∧
        call.payload = descPayload Kind.offer (.str sid) desc) c.log := by
    have hok : system.Meets (fun _ _ => True) ⟨s, []⟩ as :=
      Machine.meets_of_forall (fun _ _ => trivial) _
    refine along_of_meets hstart hrun hok (fun _ _ _ _ h => h) ?_ ?_ ?_
    · rintro d i b n' o e hhist - hstep heo i' call envelope heq
      cases heq
      obtain ⟨q, t, w, desc, ht, hto, hpay⟩ := Node.offer_of_step hstep heo
      obtain ⟨hw, htask⟩ := Node.task?_eq_some.mp ht
      have htended := hhist.sessions q w hw
      obtain ⟨hdials, sid, hsid⟩ := htended.tasks t _ htask
      rw [htended.contact] at hto
      rw [hsid] at hpay
      exact ⟨q, sid, desc, hto, hdials, hpay⟩
    · intro past i i' call envelope heq
      cases heq
    · intro past f i' call envelope heq
      cases heq
  obtain ⟨late, early, hlog⟩ := List.append_of_mem he
  rw [hlog] at halong
  exact halong.event _ _ _ rfl

/-- A node offers to peers with greater peer ids only. -/
theorem lt_of_offer (hstart : Started identities s) (hrun : system.run ⟨s, []⟩ as = some c)
    {i : ι} {call : BuildCall F} {envelope : Json F} {p : Str}
    (he : .inl (i, some (.built .offer call envelope)) ∈ c.log) (hp : call.toPeerId = .str p) :
    (identities i).peerId.lt p = true := by
  obtain ⟨q, -, -, hto, hlt, -⟩ := offer_made hstart hrun he
  rw [hp] at hto
  rwa [Json.str.inj hto]

/-! ### Locks -/

/-- A coroutine of a node, on the session of a peer. -/
structure Coroutine (ι : Type) where
  node : ι
  peer : Str
  task : Nat

/-- The coroutine holds the lock of its session. -/
def Holds (s : ι → Node F) (x : Coroutine ι) : Prop :=
  ∃ w, Dict.get? (s x.node).sessions x.peer = some w ∧ w.lock = some x.task

/-- The coroutine has sent an offer and waits for the reply. -/
def AwaitsReply (s : ι → Node F) (x : Coroutine ι) : Prop :=
  ∃ w, Dict.get? (s x.node).sessions x.peer = some w ∧
    w.tasks[x.task]? = some (.initiate .requesting)

/-- With the lock of its session, `x` waits for a reply: `_handle_offer` of the peer needs the
lock of its own session for the node of `x`, and `y` has that. -/
def WaitsFor (identities : ι → Identity F) (s : ι → Node F) (x y : Coroutine ι) : Prop :=
  Holds s x ∧ AwaitsReply s x ∧ (identities y.node).peerId = x.peer ∧
    y.peer = (identities x.node).peerId ∧ Holds s y

/-- A coroutine that waits for a reply belongs to the node with the smaller peer id. -/
theorem lt_of_awaitsReply (hstart : Started identities s)
    (hrun : system.run ⟨s, []⟩ as = some c) {x : Coroutine ι} (hx : AwaitsReply c.state x) :
    (identities x.node).peerId.lt x.peer = true := by
  obtain ⟨w, hw, htask⟩ := hx
  exact ((history_component hstart hrun x.node).sessions _ w hw).tasks _ _ htask |>.dials

/-- The holder of a lock that somebody waits for does not wait for a reply. -/
theorem not_awaitsReply_of_waitsFor (hstart : Started identities s)
    (hrun : system.run ⟨s, []⟩ as = some c) {x y : Coroutine ι}
    (h : WaitsFor identities c.state x y) : ¬ AwaitsReply c.state y := by
  obtain ⟨-, hx, hpeer, hback, -⟩ := h
  intro hy
  have hlt := lt_of_awaitsReply hstart hrun hx
  have hgt := lt_of_awaitsReply hstart hrun hy
  rw [← hpeer] at hlt
  rw [hback, Str.lt_asymm hlt] at hgt
  cases hgt

/-- Of two nodes at most one offers to the other, and the coroutines that hold a session lock
while they wait for a reply do not wait for each other in a cycle.

Who offers has the smaller peer id (`lt_of_offer`), so two nodes cannot both do it.  A coroutine
that another one waits for holds the lock of a session that its node answers in, so it waits for no
reply itself, and a chain of two is already impossible. -/
theorem no_glare_no_lock_cycle (hstart : Started identities s)
    (hrun : system.run ⟨s, []⟩ as = some c) :
    (∀ i j call envelope call' envelope',
      .inl (i, some (.built .offer call envelope)) ∈ c.log →
      .inl (j, some (.built .offer call' envelope')) ∈ c.log →
      call.toPeerId = .str (identities j).peerId →
      call'.toPeerId ≠ .str (identities i).peerId) ∧
    ∀ x, ¬ Relation.TransGen (WaitsFor identities c.state) x x := by
  constructor
  · intro i j call envelope call' envelope' hi hj hto hto'
    have hlt := lt_of_offer hstart hrun hi hto
    have hgt := lt_of_offer hstart hrun hj hto'
    rw [Str.lt_asymm hlt] at hgt
    cases hgt
  · intro x hcycle
    obtain ⟨y, hxy, hyx⟩ := Relation.TransGen.head'_iff.mp hcycle
    refine not_awaitsReply_of_waitsFor hstart hrun hxy ?_
    -- the next coroutine of the cycle waits as well
    rcases hyx.cases_head with rfl | ⟨z, hyz, -⟩
    · exact hxy.2.1
    · exact hyz.2.1

end

/-! ### A handler that is waited for -/

namespace Sample

/-- The first node has sent its offer, and the second works on it. -/
def pendingRun : List (SystemAct Bool Empty) :=
  dialing ++
  [.inl (true, .node (.addContact (invited 1) true)),
   .inl (true, .node (.inbound (line 1 2 offerPayload 7 1000) 1001 1002 (random 8))),
   .inl (true, .node (.session (identity 1).peerId (.acquire 0 [])))]

/-- The coroutine has sent an offer and waits for the reply. -/
def requesting (task : Option (Task Empty)) : Bool :=
  match task with
  | some (.initiate .requesting) => true
  | _ => false

theorem requesting_spec {task : Option (Task Empty)} (h : requesting task = true) :
    task = some (.initiate .requesting) := by
  unfold requesting at h
  split at h
  · rfl
  · cases h

/-- What is checked of the run by evaluating it. -/
def pending (c : Config (Bool → Node Empty) (SystemEvent Bool Empty)) : Bool :=
  ((Dict.get? (c.state false).sessions (pair true).peerId).any fun w =>
    decide (w.lock = some 0) && requesting w.tasks[0]?) &&
  (Dict.get? (c.state true).sessions (pair false).peerId).any fun w => decide (w.lock = some 0)

theorem pending_spec {c : Config (Bool → Node Empty) (SystemEvent Bool Empty)}
    (h : pending c = true) : WaitsFor pair c.state
      { node := false, peer := (pair true).peerId, task := 0 }
      { node := true, peer := (pair false).peerId, task := 0 } := by
  rw [pending, Bool.and_eq_true] at h
  obtain ⟨w, hw, hfirst⟩ := (Option.any_eq_true _ _).mp h.1
  obtain ⟨v, hv, hsecond⟩ := (Option.any_eq_true _ _).mp h.2
  rw [Bool.and_eq_true, decide_eq_true_eq] at hfirst
  exact ⟨⟨w, hw, hfirst.1⟩, ⟨w, hw, requesting_spec hfirst.2⟩, rfl, rfl, v, hv,
    of_decide_eq_true hsecond⟩

end Sample

/-- A run in which one coroutine waits for another. -/
theorem no_glare_no_lock_cycle_sample : ∃ c x y,
    system.run ⟨Sample.started, []⟩ Sample.pendingRun = some c ∧
    WaitsFor Sample.pair c.state x y ∧
    ∀ z, ¬ Relation.TransGen (WaitsFor Sample.pair c.state) z z := by
  have hok : (system.run ⟨Sample.started, []⟩ Sample.pendingRun).any Sample.pending = true := by
    decide +kernel
  obtain ⟨c, hrun, hpending⟩ := (Option.any_eq_true _ _).mp hok
  exact ⟨c, _, _, hrun, Sample.pending_spec hpending,
    (no_glare_no_lock_cycle Sample.started_pair hrun).2⟩

end P4

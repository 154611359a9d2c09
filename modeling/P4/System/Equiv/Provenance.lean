/-
  Where session ids come from.

  A session in which the node does not dial changes its id only when an offer is taken up.  The
  offer was accepted as one of the peer, so an honest peer built it, for the node: no third
  party, no replay of somebody else's line and no choice of the network gives the session an id
  that the peer did not draw for it.
-/
import P4.System.Equiv.Glare

namespace P4

/-! ### Peer ids -/

/-- Where `b` comes before `a`, of the same length, no extension of `b` comes after `a`. -/
theorem Str.lt_append_asymm {a b : Str} (hlen : a.length = b.length) (h : b.lt a = true)
    (t : Str) : a.lt (b ++ t) = false := by
  induction a generalizing b with
  | nil =>
    rw [Str.lt.eq_1] at h
    exact absurd h Bool.false_ne_true
  | cons x a ih =>
    cases b with
    | nil => simp at hlen
    | cons y b =>
      simp only [List.cons_append, Str.lt, Bool.or_eq_true, decide_eq_true_eq, Bool.and_eq_true,
        beq_iff_eq, Bool.or_eq_false_iff, decide_eq_false_iff_not, Bool.and_eq_false_iff,
        beq_eq_false_iff_ne] at h ⊢
      rcases h with h | ⟨rfl, h⟩
      · exact ⟨h.asymm, Or.inl h.ne'⟩
      · exact ⟨fun h' => h'.ne rfl, Or.inr (ih (by simpa using hlen) h)⟩

/-- A string is what C reads of it and a rest. -/
theorem append_of_cStr {s t : Str} (h : cStr s = t) : ∃ u, s = t ++ u := by
  refine ⟨s.dropWhile (· ≠ 0), ?_⟩
  rw [← h, cStr, List.takeWhile_append_dropWhile]

/-! ### Offers that were taken up -/

section

variable {ι F : Type} [DecidableEq ι] [DecidableEq F] [Float64 F] [Crates F] [PyRepr F]
  {identities : ι → Identity F} {s : ι → Node F} {as : List (SystemAct ι F)}
  {c : Config (ι → Node F) (SystemEvent ι F)}

omit [DecidableEq F] [Float64 F] [Crates F] [PyRepr F] in
theorem took_of_lastTook {p : Str} {sid : Json F} {past : Past F}
    (h : lastTook p past = some sid) : ∃ msg, some (.took p msg sid) ∈ past := by
  induction past with
  | nil => simp [lastTook] at h
  | cons e past ih =>
    have hrest : lastTook p past = some sid → ∃ msg, some (.took p msg sid) ∈ e :: past := by
      intro h
      obtain ⟨msg, hm⟩ := ih h
      exact ⟨msg, List.mem_cons_of_mem _ hm⟩
    cases e with
    | none => simp [lastTook] at h
    | some e =>
      cases e with
      | took q msg sid' =>
        rw [lastTook] at h
        split_ifs at h with hq
        · rw [hq, Option.some.inj h]
          exact ⟨msg, List.mem_cons_self ..⟩
        · exact hrest h
      | _ => exact hrest h

omit [DecidableEq F] [Float64 F] [PyRepr F] in
/-- A text of the call is in the payload of the message that carries it. -/
theorem Carries.get?_of_textAt {msg payload : Members F} {identity : Identity F}
    {call : BuildCall F} (h : Carries msg identity call) (hpay : payloadOf msg = some payload)
    {k t : Str} (hk : (Json.obj call.payload).textAt k = some t) :
    Dict.get? payload k = some (.str t) := by
  obtain ⟨p, hp, htexts⟩ := h.payload
  rw [payloadOf, hp] at hpay
  rw [← htexts k] at hk
  cases p with
  | obj m =>
    rw [← Option.some.inj hpay]
    exact Json.textAt_obj.mp hk
  | _ => cases hpay

/-- Node `P` built an offer for node `R` with this session id. -/
def OfferedTo (identities : ι → Identity F) (P R : ι) (sid : Json F)
    (log : List (SystemEvent ι F)) : Prop :=
  ∃ call envelope p s desc, .inl (P, some (.built .offer call envelope)) ∈ log ∧
    call.toPeerId = .str p ∧ cStr p = (identities R).peerId ∧
    call.payload = descPayload Kind.offer (.str s) desc ∧ sid = .str s

/-- An offer that was taken up from an honest peer was built by it for the node, and the node
does not dial the peer. -/
theorem offered_of_took (hserde : SerdeReads F) (hjcs : JcsInjective F)
    (hstart : Started identities s) (hrun : system.run ⟨s, []⟩ as = some c)
    (hunf : Unforgeable identities c.log) {P R : ι} (hP : Honest identities P c.log)
    {msg : Members F} {sid : Json F}
    (he : .inl (R, some (.took (identities P).peerId msg sid)) ∈ c.log) :
    (identities R).peerId.lt (identities P).peerId = false ∧
      OfferedTo identities P R sid c.log := by
  obtain ⟨late, early, hlog⟩ := List.append_of_mem he
  obtain ⟨hsender, -, hown, ⟨payload, hpay, htype, hsid⟩, contact, now, mid, past, hsplit⟩ :=
    accepted_of_took hserde hstart hrun hlog
  have hlog' : c.log = (late ++ .inl (R, some (.took (identities P).peerId msg sid)) :: mid) ++
      .inl (R, some (.accepted msg contact now)) :: past := by
    rw [hlog, hsplit, List.append_assoc, List.cons_append]
  obtain ⟨why, call, envelope, mid', past', hsplit', hcarries, hwhy, -⟩ :=
    built_of_honest hserde hjcs hstart hrun hunf hP hlog' rfl hsender
  obtain rfl := hwhy.of_offer (hcarries.textAt hpay htype)
  have hbuilt : .inl (P, some (.built .offer call envelope)) ∈ c.log := by
    rw [hlog', hsplit']
    simp
  obtain ⟨p, text, desc, hto, hlt, hcall⟩ := offer_made hstart hrun hbuilt
  -- the recipient that was signed is the node, up to a tail that C does not read
  have hrecipient : cStr p = (identities R).peerId := by
    obtain ⟨p', hto', hrec⟩ := hcarries.recipient
    rw [hto] at hto'
    rw [Json.str.inj hto']
    exact Json.str.inj (Option.some.inj (hrec.symm.trans hown))
  have htext : sid = .str text := by
    have hget :=
      hcarries.get?_of_textAt hpay (k := Field.sessionId) (t := text) (by rw [hcall]; rfl)
    exact Option.some.inj (hsid.symm.trans hget)
  refine ⟨?_, call, envelope, p, text, desc, hbuilt, hto, hrecipient, hcall, htext⟩
  obtain ⟨u, hu⟩ := append_of_cStr hrecipient
  rw [Bool.eq_false_iff]
  intro hgt
  rw [hu, Str.lt_append_asymm ?_ hgt u] at hlt
  · exact absurd hlt Bool.false_ne_true
  · rw [Identity.length_peerId, Identity.length_peerId]

/-- In every run, a node takes up offers of an honest peer only where it does not dial the peer
itself, and then the id of the session is that of an offer which the peer built for the node.

The id of a session in which the node does not dial is that of the last offer that it took up, and
an offer of an honest peer that was taken up was built by that peer (`offered_of_took`). -/
theorem session_id_of_offer (hserde : SerdeReads F) (hjcs : JcsInjective F)
    (hstart : Started identities s) (hrun : system.run ⟨s, []⟩ as = some c)
    (hunf : Unforgeable identities c.log) {P R : ι} (hP : Honest identities P c.log) :
    ((identities R).peerId.lt (identities P).peerId = true →
      ∀ msg sid, .inl (R, some (.took (identities P).peerId msg sid)) ∉ c.log) ∧
    ((identities R).peerId.lt (identities P).peerId = false →
      ∀ w, Dict.get? (c.state R).sessions (identities P).peerId = some w →
        w.session.currentSessionId = .str [] ∨
          OfferedTo identities P R w.session.currentSessionId c.log) := by
  constructor
  · intro hdials msg sid he
    rw [(offered_of_took hserde hjcs hstart hrun hunf hP he).1] at hdials
    exact absurd hdials Bool.false_ne_true
  · intro hpassive w hw
    have hlatest := ((history_component hstart hrun R).sessions _ w hw).latest hpassive
    cases hlast : lastTook (identities P).peerId (Machine.component R c.log) with
    | none =>
      rw [hlast] at hlatest
      exact Or.inl hlatest
    | some sid =>
      rw [hlast, Option.getD_some] at hlatest
      obtain ⟨msg, hmsg⟩ := took_of_lastTook hlast
      rw [hlatest]
      exact Or.inr (offered_of_took hserde hjcs hstart hrun hunf hP
        (Machine.mem_component.mp hmsg)).2

end

/-! ### A session with an offer -/

namespace Sample

/-- The second node's session for the first has the session id `sid`. -/
def tookUp (sid : Json Empty) (c : Config (Bool → Node Empty) (SystemEvent Bool Empty)) : Bool :=
  (Dict.get? (c.state true).sessions (pair false).peerId).any fun w =>
    decide (w.session.currentSessionId = sid)

end Sample

theorem session_id_of_offer_sample : ∃ c w,
    system.run ⟨Sample.started, []⟩ Sample.answerRun = some c ∧
    Dict.get? (c.state true).sessions (Sample.pair false).peerId = some w ∧
    w.session.currentSessionId = .str (Str.ofText ['s']) ∧
    OfferedTo Sample.pair false true (.str (Str.ofText ['s'])) c.log := by
  have hok : (system.run ⟨Sample.started, []⟩ Sample.answerRun).any (fun c =>
      decide (Unforgeable Sample.pair c.log) && decide (Honest Sample.pair false c.log) &&
        Sample.tookUp (.str (Str.ofText ['s'])) c) = true := by
    decide +kernel
  obtain ⟨c, hrun, hchecks⟩ := (Option.any_eq_true _ _).mp hok
  simp only [Bool.and_eq_true, decide_eq_true_eq] at hchecks
  obtain ⟨⟨hunf, hhonest⟩, htook⟩ := hchecks
  obtain ⟨w, hw, hsid⟩ := (Option.any_eq_true _ _).mp htook
  rw [decide_eq_true_eq] at hsid
  have hpassive := (session_id_of_offer Sample.serdeReads Sample.jcsInjective
    Sample.started_pair hrun hunf (R := true) hhonest).2 (by decide +kernel) w hw
  refine ⟨c, w, hrun, hw, hsid, ?_⟩
  rw [hsid] at hpassive
  exact hpassive.resolve_left (by decide +kernel)

end P4

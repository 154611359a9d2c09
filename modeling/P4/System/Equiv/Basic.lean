/-
  Runs of a system of nodes.

  Each node has the history of a node on its own (`soundAt`), so an event of the system rests on
  earlier events of the same node.  An acceptance rests on a signature, and a signature that a
  node made belongs to a call of its `_build_message` (`signed_of_accepted`).
-/
import P4.Node.Equiv.History
import P4.Node.Equiv.Origin
import P4.System.Basic

namespace P4

variable {ι F : Type} [DecidableEq ι] [DecidableEq F] [Float64 F] [Crates F] [PyRepr F]

/-! ### Signatures and checks -/

omit [DecidableEq F] [PyRepr F] in
theorem Signing.signing?_eq {identity : Identity F} {call : BuildCall F} {sk : SigningKey}
    {env : Envelope F} {bytes : List UInt8} (hs : Signing identity call sk env bytes) :
    signing? identity call = some (sk, bytes) := by
  obtain ⟨s, hto, -, hrecipient⟩ := hs.recipient
  have hjcs := hs.jcs
  rw [Envelope.signable, hs.version, hs.sender, hrecipient, hs.timestamp, hs.nonce] at hjcs
  unfold signing?
  rw [hto, hs.key, hs.payload]
  dsimp only
  rw [hjcs]

omit [DecidableEq F] [PyRepr F] in
theorem Verified.verification?_eq {msg : Members F} {key : Json F} {now : UInt64}
    {env : Envelope F} {K : VerifyingKey} {bytes : List UInt8} {sig : FixedBytes 64}
    (hv : Verified msg key now env K bytes sig) : verification? msg key = some (K, bytes) := by
  obtain ⟨s, rfl, hK⟩ := hv.keyIs
  unfold verification?
  dsimp only
  rw [hK, hv.parsed]
  dsimp only
  rw [hv.jcs]

/-! ### Events of a node -/

variable {identities : ι → Identity F} {s : ι → Node F} {as : List (SystemAct ι F)}
  {c : Config (ι → Node F) (SystemEvent ι F)}

/-- In every run of the system each node has its history. -/
theorem history_component (hstart : Started identities s) (hrun : system.run ⟨s, []⟩ as = some c)
    (i : ι) : Node.History (identities i) (c.state i) (Machine.component i c.log) := by
  obtain ⟨file, hboot⟩ := hstart i
  obtain ⟨bs, hbs⟩ := Machine.run_component hrun i
  exact Node.history_run hboot hbs

/-- An event of a node rests on its earlier events. -/
theorem soundAt (hstart : Started identities s) (hrun : system.run ⟨s, []⟩ as = some c)
    {late early : List (SystemEvent ι F)} {i : ι} {e : Option (Event F)}
    (hlog : c.log = late ++ .inl (i, e) :: early) :
    EventSound (identities i) (Machine.component i early) e := by
  have hsound := (history_component hstart hrun i).log
  rw [hlog, Machine.component_append, Machine.component_cons_self] at hsound
  exact hsound.event

/-- A message that was built was signed. -/
theorem signing_of_built (hstart : Started identities s)
    (hrun : system.run ⟨s, []⟩ as = some c) {i : ι} {why : Purpose F} {call : BuildCall F}
    {envelope : Json F} (he : .inl (i, some (.built why call envelope)) ∈ c.log) :
    (Json.obj call.payload).wellFormed = true ∧
      buildMessage (identities i) call.toPeerId call.payload call.random call.nowMs =
        .ok envelope ∧
      ∃ sk env bytes, Signing (identities i) call sk env bytes := by
  obtain ⟨late, early, hlog⟩ := List.append_of_mem he
  obtain ⟨hbuild, hwf, -⟩ := soundAt hstart hrun hlog
  obtain ⟨-, sk, env, bytes, text, hs, -⟩ := buildMessage_ok.mp hbuild
  exact ⟨hwf, hbuild, sk, env, bytes, hs⟩

/-! ### Conditions on the steps -/

/-- What the steps of the nodes add to the log, in a run whose steps meet a condition. -/
theorem along_of_meets (hstart : Started identities s) (hrun : system.run ⟨s, []⟩ as = some c)
    {ok : Config (ι → Node F) (SystemEvent ι F) → SystemAct ι F → Prop}
    (hok : system.Meets ok ⟨s, []⟩ as) {P : List (SystemEvent ι F) → SystemEvent ι F → Prop}
    (hmono : ∀ past past' e, past ⊆ past' → P past e → P past' e)
    (hnode : ∀ (d : Config (ι → Node F) (SystemEvent ι F)) i b n' o e,
      Node.History (identities i) (d.state i) (Machine.component i d.log) →
      ok d (.inl (i, .node b)) → Node.Step (d.state i) b n' o → e ∈ o → P d.log (.inl (i, some e)))
    (hrestart : ∀ past i, P past (.inl (i, none))) (hforeign : ∀ past f, P past (.inr f)) :
    Along P c.log := by
  -- the run so far is kept, for the history of each node rests on it
  have key : (∃ bs, system.run ⟨s, []⟩ bs = some c) ∧ Along P c.log := by
    refine Machine.run_invariant_of_meets
      (P := fun d => (∃ bs, system.run ⟨s, []⟩ bs = some d) ∧ Along P d.log) ?_
      ⟨⟨[], rfl⟩, trivial⟩ hok hrun
    rintro d a d' ⟨⟨bs, hbs⟩, hlog⟩ hd hnext
    obtain ⟨out, hstep, hlog'⟩ := Machine.next_eq_some.mp hnext
    have hrun' : system.run ⟨s, []⟩ (bs ++ [a]) = some d' := by
      have hsnoc := Machine.run_snoc hbs hstep
      rwa [← hlog'] at hsnoc
    refine ⟨⟨_, hrun'⟩, ?_⟩
    rw [hlog']
    refine hlog.append hmono fun e he => ?_
    rw [List.mem_reverse] at he
    rcases Machine.beside_product_cases hstep with
      ⟨i, b, n', o, rfl, hhost, -, rfl⟩ | ⟨f, rfl, -, rfl⟩
    · -- a step of a node, which acts or restarts
      obtain ⟨⟨j, e'⟩, he', rfl⟩ := List.mem_map.mp he
      obtain ⟨e'', he'', heq⟩ := List.mem_map.mp he'
      cases heq
      rcases Node.host_cases hhost with ⟨b', o', rfl, hnodeStep, rfl⟩ | ⟨rfl, -, rfl⟩
      · obtain ⟨x, hx, rfl⟩ := List.mem_map.mp he''
        exact hnode d i b' _ _ x (history_component hstart hbs i) hd
          (Node.step_outcome hnodeStep) hx
      · cases List.mem_singleton.mp he''
        exact hrestart _ i
    · cases List.mem_singleton.mp he
      exact hforeign _ f
  exact key.2

/-! ### Origins -/

/-- A signature that node `i` made belongs to a call of `_build_message`. -/
theorem signing_of_signature (hstart : Started identities s)
    (hrun : system.run ⟨s, []⟩ as = some c) {e : SystemEvent ι F} (he : e ∈ c.log) {i : ι}
    (hnode : nodeOf e = some i) {K : VerifyingKey} {bytes : List UInt8}
    (hsig : signatureOf identities e = some (K, bytes)) :
    ∃ why call envelope sk env, e = .inl (i, some (.built why call envelope)) ∧
      (Json.obj call.payload).wellFormed = true ∧
      Signing (identities i) call sk env bytes := by
  unfold signatureOf at hsig
  split at hsig
  · rename_i j why call envelope
    cases hnode
    obtain ⟨r, hr, heq⟩ := Option.map_eq_some_iff.mp hsig
    obtain ⟨hwf, -, sk, env, bytes', hs⟩ := signing_of_built hstart hrun he
    rw [hs.signing?_eq] at hr
    cases hr
    cases heq
    exact ⟨why, call, envelope, sk, env, rfl, hwf, hs⟩
  · cases hnode
  · cases hsig

/-- An accepted message was verified under the key of the contact entry of its sender. -/
theorem verified_of_accepted (hstart : Started identities s)
    (hrun : system.run ⟨s, []⟩ as = some c) {late early : List (SystemEvent ι F)} {i : ι}
    {e : Event F} {x : Acceptance F} (hlog : c.log = late ++ .inl (i, some e) :: early)
    (hx : e.acceptance? = some x) :
    (Json.obj x.1).wellFormed = true ∧ ∃ contact env K bytes sig, x.2.1 = some contact ∧
      Verified x.1 contact.val.publicKeyB64 x.2.2 env K bytes sig ∧
      checkOf (.inl (i, some e) : SystemEvent ι F) = some (K, bytes) := by
  have hvouched : Node.Vouched x := by
    have hsound := soundAt hstart hrun hlog
    unfold Event.acceptance? at hx
    split at hx
    · cases hx
      exact hsound.1
    · cases hx
      exact hsound
    · cases hx
  obtain ⟨hwf, contact, hcontact, hver⟩ := hvouched
  obtain ⟨env, K, bytes, sig, hv⟩ := verifyMessage_ok hver
  refine ⟨hwf, contact, env, K, bytes, sig, hcontact, hv, ?_⟩
  obtain ⟨msg, contact', now⟩ := x
  cases hcontact
  unfold checkOf
  dsimp only
  rw [hx]
  exact hv.verification?_eq

omit [DecidableEq F] [PyRepr F] in
/-- The sender of an accepted message is the fingerprint of the key it verified under. -/
theorem senderOf_of_verified (hserde : SerdeReads F) {msg : Members F} {key : Json F}
    {now : UInt64} {env : Envelope F} {K : VerifyingKey} {bytes : List UInt8}
    {sig : FixedBytes 64} (hmsg : (Json.obj msg).wellFormed = true)
    (hv : Verified msg key now env K bytes sig) :
    Dict.get? msg Field.senderPeerId = some (.str (peerIdFromPublicKeyBytes F K.val)) ∧
      senderOf msg = peerIdFromPublicKeyBytes F K.val := by
  have henv := hserde.envelope msg env hmsg hv.parsed
  have hget := henv.senderPeerId
  rw [hv.sender] at hget
  refine ⟨hget, ?_⟩
  rw [senderOf, hget]

end P4

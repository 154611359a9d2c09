/-
  Authenticity of inbound messages.

  A message that gets past `_validate_message` was signed before, so by a call of
  `_build_message` of the node whose key it is; the canonical text under the signature
  determines the call.  The recipient crosses the C ABI as a C string, so it is the one of the
  call only up to the first NUL.
-/
import P4.System.Equiv.Basic

namespace P4

section

variable {ι F : Type} [DecidableEq ι] [DecidableEq F] [Float64 F] [Crates F] [PyRepr F]
  {identities : ι → Identity F} {s : ι → Node F} {as : List (SystemAct ι F)}
  {c : Config (ι → Node F) (SystemEvent ι F)}

/-- Node `i` passes no recipient with a NUL to `_build_message`. -/
def NoNul (i : ι) (log : List (SystemEvent ι F)) : Prop :=
  ∀ why call envelope p, .inl (i, some (.built why call envelope)) ∈ log →
    call.toPeerId = .str p → (0 : CodePoint) ∉ p

/-- A message was accepted under the key `K`: it carries a call of `_build_message` of the only
user of the key. -/
theorem signed_of_accepted (hstart : Started identities s)
    (hrun : system.run ⟨s, []⟩ as = some c) {K : VerifyingKey} {P : ι}
    (hunf : UnforgeableUnder identities K c.log) (honly : OnlyUsedBy identities K P c.log)
    {late early : List (SystemEvent ι F)} {i : ι} {e : Event F} {x : Acceptance F}
    {contact : Ref (Contact F)} (hlog : c.log = late ++ .inl (i, some e) :: early)
    (hx : e.acceptance? = some x) (hcontact : x.2.1 = some contact) {key : Str}
    (hkey : contact.val.publicKeyB64 = .str key) (hK : verifyingKeyFromB64 F (cStr key) = .ok K) :
    (Json.obj x.1).wellFormed = true ∧ ∃ env bytes sig why call envelope sk env',
      Verified x.1 contact.val.publicKeyB64 x.2.2 env K bytes sig ∧
      .inl (P, some (.built why call envelope)) ∈ early ∧
      (Json.obj call.payload).wellFormed = true ∧
      Signing (identities P) call sk env' bytes := by
  obtain ⟨hwf, contact', env, K', bytes, sig, hc, hv, hcheck⟩ :=
    verified_of_accepted hstart hrun hlog hx
  rw [hcontact] at hc
  cases hc
  have hKK : K' = K := by
    obtain ⟨key', hkey', hK'⟩ := hv.keyIs
    rw [hkey] at hkey'
    cases hkey'
    exact Except.ok.inj (hK'.symm.trans hK)
  subst hKK
  -- the signature was made under `K`, which only `P` uses
  have hunf' := hunf
  rw [hlog] at hunf'
  obtain ⟨e', he', hsig⟩ := List.mem_map.mp (hunf'.event (K', bytes) hcheck rfl)
  have hmem : e' ∈ c.log := by
    rw [hlog]
    exact List.mem_append_right _ (List.mem_cons_of_mem _ he')
  have hnode := honly e' hmem (K', bytes) hsig rfl
  obtain ⟨why, call, envelope, sk, env', rfl, hcall, hs⟩ :=
    signing_of_signature hstart hrun hmem hnode hsig
  exact ⟨hwf, env, bytes, sig, why, call, envelope, sk, env', hv, he', hcall, hs⟩

/-- A message that node `N` accepts under a key that only node `P` uses was built by `P`, for
`N`, with the same recipient, nonce, timestamp and payload, and the clock of `N` is near its
timestamp; as long as `P` passes no recipient with a NUL to `_build_message`.

What was verified under the key was signed before, so by a call of `P`, and the bytes under the
signature determine the members of the message (`JcsInjective`), so they are those of this call. -/
theorem accepted_message_was_built (hserde : SerdeReads F) (hwrites : SerdeWrites F)
    (hjcs : JcsInjective F) (hb : Base64Laws F) (hstart : Started identities s)
    (hrun : system.run ⟨s, []⟩ as = some c) {K : VerifyingKey} {P : ι}
    (hunf : UnforgeableUnder identities K c.log) (honly : OnlyUsedBy identities K P c.log)
    (hnul : NoNul P c.log) {late early : List (SystemEvent ι F)} {N : ι} {msg : Members F}
    {contact : Ref (Contact F)} {now : UInt64}
    (hlog : c.log = late ++ .inl (N, some (.accepted msg (some contact) now)) :: early)
    {key : Str} (hkey : contact.val.publicKeyB64 = .str key)
    (hK : verifyingKeyFromB64 F (cStr key) = .ok K) {p : Json F}
    (hp : Dict.get? msg Field.payload = some p) (hfree : p.numberFree = true) :
    senderOf msg = (identities P).peerId ∧
    (∃ why call m, .inl (P, some (.built why call (.obj m))) ∈ early ∧
      call.toPeerId = .str (identities N).peerId ∧ p.Same (.obj call.payload) ∧
      Dict.get? m Field.recipientPeerId = Dict.get? msg Field.recipientPeerId ∧
      Dict.get? m Field.nonce = Dict.get? msg Field.nonce ∧
      Dict.get? m Field.timestampMs = Dict.get? msg Field.timestampMs ∧
      ∃ q, Dict.get? m Field.payload = some q ∧ p.Same q) ∧
    Node.Near now msg := by
  obtain ⟨hwf, env, bytes, sig, why, call, envelope, sk, env', hv, hbuilt, hcall, hs⟩ :=
    signed_of_accepted hstart hrun hunf honly hlog rfl rfl hkey hK
  have hmem : .inl (P, some (.built why call envelope)) ∈ c.log := by
    rw [hlog]
    exact List.mem_append_right _ (List.mem_cons_of_mem _ hbuilt)
  have hbuild := (signing_of_built hstart hrun hmem).2.1
  obtain ⟨sk₂, env₂, bytes₂, hs₂, -, rfl⟩ := buildMessage_toDict hserde hwrites hb hcall hbuild
  -- the call determines what is signed
  have hbytes : bytes₂ = bytes := by
    have heq := hs₂.signing?_eq.symm.trans hs.signing?_eq
    exact congrArg Prod.snd (Option.some.inj heq)
  subst hbytes
  have hcarries := hv.carries hserde hjcs hwf hcall hs₂
  obtain ⟨hts, hsame, hsame'⟩ := hv.same hserde hjcs hwf hcall hs₂ hp hfree
  obtain ⟨to', hto, hrecipient⟩ := hcarries.recipient
  have hcstr : cStr to' = to' := by
    refine cStr_of_ne fun ch hch hz => hnul why call _ to' hmem hto ?_
    rw [← hz]
    exact hch
  have hown : Dict.get? msg Field.recipientPeerId = some (.str (identities N).peerId) :=
    (soundAt hstart hrun hlog).2
  refine ⟨?_, ⟨why, call, env₂.toDict, hbuilt, ?_, hsame, ?_, ?_, ?_, env₂.payload, rfl, hsame'⟩,
    ?_⟩
  · rw [senderOf, hcarries.sender]
  · have heq := hown.symm.trans hrecipient
    rw [hcstr] at heq
    rw [hto, ← Option.some.inj heq]
  · obtain ⟨to'', hto'', -, hrec⟩ := hs₂.recipient
    rw [hto] at hto''
    cases hto''
    rw [hrecipient, ← hrec]
    rfl
  · rw [hcarries.nonce, ← hs₂.nonce]
    rfl
  · rw [hts, ← hs₂.timestamp]
    rfl
  · exact (soundAt hstart hrun hlog).1.near hserde

end

/-! ### A contact with a NUL in its peer id -/

namespace Sample

/-- Two nodes. -/
def pair : Bool → Identity Empty
  | false => identity 1
  | true => identity 2

/-- A contact entry for the second node under the peer id `p`. -/
def entry (p : Str) : Contact Empty := { (contact 2).val with peerId := .str p }

/-- The peer id of the second node with a tail that a C string does not have. -/
def aliased : Str := (pair true).peerId ++ [0, 120]

/-- The description in an offer or an answer. -/
def desc : Text × Text := (['v'], ['o'])

/-- The line of an offer of the first node. -/
def offerLine (p : Str) (sid : Text) (nonce : UInt8) (now : UInt64) : List UInt8 :=
  match buildMessage (pair false) (.str p)
    (descPayload Kind.offer (.str (Str.ofText sid)) desc) (random nonce) now with
  | .ok envelope => envelopeLine envelope
  | .error _ => []

/-- The first node offers to its contact `p`, and the line reaches the second node. -/
def offerRun (p : Str) (invite : Loaded Empty) : List (SystemAct Bool Empty) :=
  [.inl (false, .node (.addContact invite true)),
   .inl (false, .node (.dial p)),
   .inl (false, .node (.session p (.acquire 0 ['s']))),
   .inl (false, .node (.request p 0 desc 1000 (random 7) true)),
   .inl (true, .node (.addContact (invited 1) true)),
   .inl (true, .node (.inbound (offerLine p ['s'] 7 1000) 1001 1002 (random 8)))]

/-- The two nodes without contacts. -/
def started : Bool → Node Empty
  | false => node 1 []
  | true => node 2 []

theorem started_pair : Started pair started := by
  intro i
  cases i with
  | false => exact ⟨none, rfl⟩
  | true => exact ⟨none, rfl⟩

/-- The public key of the first node. -/
def firstKey : VerifyingKey := Crates.verifyingKey Empty (key 1)

theorem firstKey_ok :
    verifyingKeyFromB64 Empty (cStr (pair false).publicKeyB64) = .ok firstKey := by
  have hplain := plain_b64Encode (F := Empty) base64Laws firstKey.val
  show verifyingKeyFromB64 Empty (cStr (Crates.b64Encode Empty firstKey.val)) = _
  rw [hplain.cStr_eq, verifyingKeyFromB64, decodeFixedLenB64_encode base64Laws]
  rfl

/-- The offer was built for `p` and accepted, and the assumptions about signatures hold. -/
def offered (p : Str) (log : List (SystemEvent Bool Empty)) : Bool :=
  match log with
  | [.inl (true, some (.accepted msg (some contact) _)), .inl (false, some (.wrote _)),
      .inl (false, some (.built .offer call _))] =>
    contact.val.publicKeyB64 = .str (pair false).publicKeyB64 && call.toPeerId = .str p &&
      (Dict.get? msg Field.payload).any Json.numberFree
  | _ => false

theorem offered_spec {p : Str} {log : List (SystemEvent Bool Empty)} (h : offered p log = true) :
    ∃ msg contact now line call envelope q,
      log = [.inl (true, some (.accepted msg (some contact) now)),
        .inl (false, some (.wrote line)), .inl (false, some (.built .offer call envelope))] ∧
      contact.val.publicKeyB64 = .str (pair false).publicKeyB64 ∧ call.toPeerId = .str p ∧
      Dict.get? msg Field.payload = some q ∧ q.numberFree = true := by
  unfold offered at h
  split at h
  · rename_i msg contact now line call envelope
    simp only [Bool.and_eq_true, decide_eq_true_eq, Option.any_eq_true] at h
    obtain ⟨⟨hkey, hto⟩, q, hq, hfree⟩ := h
    exact ⟨msg, contact, now, line, call, envelope, q, rfl, hkey, hto, hq, hfree⟩
  · cases h

/-- What is checked of the run by evaluating it. -/
def offerRunOk (p : Str) (invite : Loaded Empty) : Bool :=
  (system.run ⟨started, []⟩ (offerRun p invite)).any fun c => offered p c.log &&
    decide (UnforgeableUnder pair firstKey c.log) && decide (OnlyUsedBy pair firstKey false c.log)

theorem offerRunOk_spec {p : Str} {invite : Loaded Empty} (h : offerRunOk p invite = true) :
    ∃ c, system.run ⟨started, []⟩ (offerRun p invite) = some c ∧ offered p c.log = true ∧
      UnforgeableUnder pair firstKey c.log ∧ OnlyUsedBy pair firstKey false c.log := by
  obtain ⟨c, hc, hchecks⟩ := (Option.any_eq_true _ _).mp h
  rw [Bool.and_eq_true, Bool.and_eq_true, decide_eq_true_eq, decide_eq_true_eq] at hchecks
  exact ⟨c, hc, hchecks.1.1, hchecks.1.2, hchecks.2⟩

end Sample

/-- The second node accepts an offer that the first node built for somebody else. -/
theorem accepted_message_built_for_alias : ∃ invite c late early msg contact now q,
    Started Sample.pair Sample.started ∧
    system.run ⟨Sample.started, []⟩ (Sample.offerRun Sample.aliased invite) = some c ∧
    UnforgeableUnder Sample.pair Sample.firstKey c.log ∧
    OnlyUsedBy Sample.pair Sample.firstKey false c.log ∧
    c.log = late ++ .inl (true, some (.accepted msg (some contact) now)) :: early ∧
    contact.val.publicKeyB64 = .str (Sample.pair false).publicKeyB64 ∧
    verifyingKeyFromB64 Empty (cStr (Sample.pair false).publicKeyB64) = .ok Sample.firstKey ∧
    Dict.get? msg Field.payload = some q ∧ q.numberFree = true ∧
    ¬ ∃ why call envelope, .inl (false, some (.built why call envelope)) ∈ early ∧
      call.toPeerId = .str (Sample.pair true).peerId := by
  have hok : Sample.offerRunOk Sample.aliased
      ⟨(Sample.entry Sample.aliased).toDict, by decide +kernel⟩ = true := by
    decide +kernel
  obtain ⟨c, hrun, hoffered, hunf, honly⟩ := Sample.offerRunOk_spec hok
  obtain ⟨msg, contact, now, line, call, envelope, q, hlog, hkey, hto, hq, hfree⟩ :=
    Sample.offered_spec hoffered
  refine ⟨_, c, [], _, msg, contact, now, q, Sample.started_pair, hrun, hunf, honly, hlog, hkey,
    Sample.firstKey_ok, hq, hfree, ?_⟩
  rintro ⟨why, call', envelope', hmem, hto'⟩
  have hcall : call' = call := by
    simp only [List.mem_cons, List.not_mem_nil, or_false, reduceCtorEq, false_or, Sum.inl.injEq,
      Prod.mk.injEq, Option.some.injEq, Event.built.injEq, true_and] at hmem
    exact hmem.2.1
  rw [hcall, hto] at hto'
  exact absurd (Json.str.inj hto') (by decide +kernel)

theorem accepted_message_was_built_sample : ∃ c late early msg,
    system.run ⟨Sample.started, []⟩ (Sample.offerRun (Sample.pair true).peerId
      ⟨(Sample.contact 2).val.toDict, by decide +kernel⟩) = some c ∧
    c.log = late ++ early ∧ senderOf msg = (Sample.pair false).peerId ∧
    ∃ why call m, .inl (false, some (.built why call (.obj m))) ∈ early ∧
      call.toPeerId = .str (Sample.pair true).peerId ∧
      Dict.get? m Field.nonce = Dict.get? msg Field.nonce := by
  have hok : Sample.offerRunOk (Sample.pair true).peerId
      ⟨(Sample.contact 2).val.toDict, by decide +kernel⟩ = true := by
    decide +kernel
  obtain ⟨c, hrun, hoffered, hunf, honly⟩ := Sample.offerRunOk_spec hok
  obtain ⟨msg, contact, now, line, call, envelope, q, hlog, hkey, hto, hq, hfree⟩ :=
    Sample.offered_spec hoffered
  have hnul : NoNul false c.log := by
    intro why call' envelope' p hmem hp
    rw [hlog] at hmem
    simp only [List.mem_cons, List.not_mem_nil, or_false, reduceCtorEq, false_or, Sum.inl.injEq,
      Prod.mk.injEq, Option.some.injEq, Event.built.injEq, true_and, false_and] at hmem
    have hcall : call' = call := hmem.2.1
    rw [hcall, hto] at hp
    rw [← Json.str.inj hp]
    decide +kernel
  have hlog' : c.log = [] ++ .inl (true, some (.accepted msg (some contact) now)) :: _ := hlog
  have h := accepted_message_was_built Sample.serdeReads Sample.serdeWrites Sample.jcsInjective
    Sample.base64Laws Sample.started_pair hrun hunf honly hnul hlog' hkey Sample.firstKey_ok hq
    hfree
  obtain ⟨hsender, ⟨why, call', m, hmem, hto', -, -, hnonce, -⟩, -⟩ := h
  refine ⟨c, [.inl (true, some (.accepted msg (some contact) now))], _, msg, hrun, hlog, hsender,
    why, call', m, hmem, hto', hnonce⟩

end P4

/-
  A message between two nodes: built, written as a line, read and accepted.

  The payload goes through `json.dumps`, a C string, `serde_json`, JCS, `serde_json` again,
  `json.loads`, the line, `json.loads`, `json.dumps` and `serde_json` before the signature is
  checked.  Without numbers every reader gets the canonical form of the payload, so the bytes
  that are verified are the bytes that were signed (`Signing.checked`).
-/
import P4.Node.Equiv.Build
import P4.Node.Equiv.Line
import P4.Sample.Equiv.Laws

namespace P4

variable {F : Type} [Float64 F] [Crates F]

/-! ### Building -/

/-- An identity with a key pair builds every message whose payload the library can read. -/
theorem KeyPair.builds (hl : CrateLaws F) {S : Identity F} {sk : SigningKey} (hS : KeyPair S sk)
    (call : BuildCall F) {s : Str} {w : Json F} (hto : call.toPeerId = .str s)
    (hs : s.isScalar = true) (hwf : (Json.obj call.payload).wellFormed = true)
    (hread : (Json.obj call.payload).readBack = some w)
    (hdepth : (Json.obj call.payload).depth ≤ serdeDepth) :
    ∃ env bytes, Signing S call sk env bytes ∧ env.payload = w ∧ Readable env ∧
      buildMessage S call.toPeerId call.payload call.random call.nowMs
        = .ok (.obj env.toDict) := by
  have hsender := S.plain_peerId
  have hnonce := plain_tokenHex call.random
  have hrecipient : (cStr s).isScalar = true := isScalar_cStr hs
  -- each step of `sign_envelope` succeeds: the canonical bytes, the signature, the text
  let unsigned : Envelope F :=
    { protocolVersion := protocolVersion
      senderPeerId := S.peerId
      recipientPeerId := cStr s
      timestampMs := call.nowMs
      nonce := tokenHex call.random
      payload := w
      signatureB64 := [] }
  have hunsigned : Readable unsigned :=
    ⟨hsender.isScalar, hrecipient, hnonce.isScalar, rfl, _, hwf, hread⟩
  obtain ⟨bytes, hbytes⟩ := hl.jcs unsigned hunsigned
  have hsig := plain_b64Encode hl.base64 (Crates.sign F sk bytes).val
  let env : Envelope F :=
    { unsigned with signatureB64 := Crates.b64Encode F (Crates.sign F sk bytes).val }
  have hreadable : Readable env :=
    ⟨hsender.isScalar, hrecipient, hnonce.isScalar, hsig.isScalar, _, hwf, hread⟩
  have hsigning : Signing S call sk env bytes :=
    { key := hS.signing
      version := rfl
      sender := rfl
      recipient := ⟨s, hto, hs, rfl⟩
      timestamp := rfl
      nonce := rfl
      payload := hl.accepts.value _ _ hwf hread hdepth
      jcs := hbytes
      signature := rfl }
  obtain ⟨text, htext⟩ := hl.writes.total env hreadable
  obtain ⟨hnul, hload⟩ := hl.writes.loads env text hreadable htext
  exact ⟨env, bytes, hsigning, rfl, hreadable, buildMessage_ok.mpr
    ⟨hS.privateScalar, sk, env, bytes, text, hsigning, htext, hnul, hload⟩⟩

/-! ### Reading -/

/-- The members of a dictionary as they are read from its line. -/
def asRead (m : Members F) : Members F := Json.sortMembers (m.map fun kv => (kv.1, kv.2.canon))

omit [Crates F] [Float64 F] in
theorem canon_obj_asRead (m : Members F) : (Json.obj m).canon = .obj (asRead m) :=
  Json.canon_obj m

omit [Crates F] in
/-- The line of an envelope still has its members. -/
theorem envelopeOf_asRead {env : Envelope F} (h : env.payload.readBack = some env.payload) :
    EnvelopeOf (asRead env.toDict) env := by
  have hget : ∀ k, Dict.get? (asRead env.toDict) k = (Dict.get? env.toDict k).map Json.canon :=
    fun k => Json.get?_canon (nodup_keys_toDict env) k
  have hcanon : env.payload.canon = env.payload := by
    have hw := Json.readBack_eq_some h
    rw [hw, Json.canon_canon]
  constructor
  · rw [hget]
    rfl
  · rw [hget]
    rfl
  · rw [hget]
    rfl
  · rw [hget]
    rfl
  · rw [hget]
    rfl
  · refine ⟨env.payload, ?_, h⟩
    have hpay : Dict.get? env.toDict Field.payload = some env.payload := rfl
    rw [hget, hpay, Option.map_some, hcanon]
  · rw [hget]
    rfl

omit [Crates F] [Float64 F] in
/-- The members of an envelope in key order. -/
theorem asRead_toDict (env : Envelope F) : asRead env.toDict =
    [(Field.nonce, .str env.nonce), (Field.payload, env.payload.canon),
      (Field.protocolVersion, .int env.protocolVersion.toNat),
      (Field.recipientPeerId, .str env.recipientPeerId),
      (Field.senderPeerId, .str env.senderPeerId),
      (Field.signatureB64, .str env.signatureB64),
      (Field.timestampMs, .int env.timestampMs.toNat)] := rfl

omit [Crates F] in
/-- The line of an envelope is about as long as its texts. -/
theorem length_dumpsSorted_toDict (env : Envelope F) :
    (Json.dumpsSorted (.obj env.toDict)).length ≤
      12 * (env.senderPeerId.length + env.recipientPeerId.length + env.nonce.length +
        env.signatureB64.length) + (Json.printInt env.protocolVersion.toNat).length +
      (Json.printInt env.timestampMs.toNat).length +
      (Json.print Json.spaced 1 env.payload.canon).length + 300 := by
  have h₁ := Json.length_printStr_le env.senderPeerId
  have h₂ := Json.length_printStr_le env.recipientPeerId
  have h₃ := Json.length_printStr_le env.nonce
  have h₄ := Json.length_printStr_le env.signatureB64
  have hkeys : (Json.printStr Field.nonce).length + (Json.printStr Field.payload).length +
    (Json.printStr Field.protocolVersion).length + (Json.printStr Field.recipientPeerId).length +
    (Json.printStr Field.senderPeerId).length + (Json.printStr Field.signatureB64).length +
    (Json.printStr Field.timestampMs).length ≤ 200 := by decide
  rw [Json.dumpsSorted, canon_obj_asRead, asRead_toDict]
  have hcomma : ∀ n, Json.spaced.comma n = [' '] := fun _ => rfl
  have hcolon : Json.spaced.colon = [' '] := rfl
  have hmargin : ∀ n, Json.spaced.margin n = [] := fun _ => rfl
  simp only [Json.print, Json.printMembers, hcomma, hcolon, hmargin, List.length_cons,
    List.length_append, List.length_nil, Nat.zero_add]
  omega
variable [DecidableEq F] [PyRepr F]

omit [DecidableEq F] [PyRepr F] in
/-- A dictionary with the members of a signed envelope is accepted under the public key of the
signer. -/
theorem Signing.accepts (hl : CrateLaws F) {S : Identity F} {sk : SigningKey}
    (hS : KeyPair S sk) {call : BuildCall F} {env : Envelope F} {bytes : List UInt8}
    (hs : Signing S call sk env bytes) (hreadable : Readable env) {msg : Members F}
    (hwf : (Json.obj msg).wellFormed = true) (hdepth : (Json.obj msg).depth ≤ serdeDepth)
    (hkeys : ∀ k ∈ Dict.keys msg, k ∈ Dict.keys env.toDict) (hmsg : EnvelopeOf msg env)
    {skew : Int} {now : UInt64} (hclock : now.toNat ≤ call.nowMs.toNat + (cUint64 skew).toNat ∧
      call.nowMs.toNat ≤ now.toNat + (cUint64 skew).toNat) :
    P4Core.verifyEnvelope msg S.publicKeyB64 skew now.toNat = .ok () := by
  have hparsed := hl.accepts.envelope _ env hwf hdepth hkeys hmsg hreadable
  refine P4Core.verifyEnvelope_ok.mpr
    ⟨hS.publicScalar, env, _, hparsed, hS.verifying, verifyEnvelope_ok.mpr ?_⟩
  refine ⟨hs.version, ?_, ?_, bytes, hs.jcs, Crates.sign F sk bytes, ?_, ?_⟩
  · rw [hs.sender, hS.peerId]
  · rw [outsideSkew_eq_false, cUint64_toNat, hs.timestamp]
    exact hclock
  · rw [hs.signature, hl.base64.decode_encode]
  · exact hl.signature.verify_sign sk bytes

omit [DecidableEq F] [PyRepr F] in
/-- The signature of an envelope verifies under the public key of the signer. -/
theorem Signing.verifies (hl : CrateLaws F) {S : Identity F} {sk : SigningKey}
    (hS : KeyPair S sk) {call : BuildCall F} {env : Envelope F} {bytes : List UInt8}
    (hs : Signing S call sk env bytes) (hreadable : Readable env)
    (hstable : env.payload.readBack = some env.payload)
    (hdepth : env.payload.depth + 1 ≤ serdeDepth) {now : UInt64}
    (hclock : now.toNat ≤ call.nowMs.toNat + maxEnvelopeSkewMs ∧
      call.nowMs.toNat ≤ now.toNat + maxEnvelopeSkewMs) :
    verifyMessage (asRead env.toDict) (.str S.publicKeyB64) now = .ok () := by
  have hcanon := canon_obj_asRead env.toDict
  have hwf : (Json.obj (asRead env.toDict)).wellFormed = true := by
    rw [← hcanon]
    exact Json.wellFormed_canon (wellFormed_toDict hreadable)
  have hdepth' : (Json.obj (asRead env.toDict)).depth ≤ serdeDepth := by
    rw [← hcanon]
    exact Json.depth_canon_le (env.depth_toDict.trans_le hdepth)
  have hkeys : ∀ k ∈ Dict.keys (asRead env.toDict), k ∈ Dict.keys env.toDict := by
    intro k hk
    have hperm := Json.keys_sortMembers_perm (env.toDict.map fun kv => (kv.1, kv.2.canon))
    rw [Json.keys_map_canon] at hperm
    exact hperm.mem_iff.mp hk
  have hmax : (cUint64 (maxEnvelopeSkewMs : Int)).toNat = maxEnvelopeSkewMs := by decide
  have hverify : P4Core.verifyEnvelope (asRead env.toDict) S.publicKeyB64 maxEnvelopeSkewMs
      now.toNat = .ok () :=
    hs.accepts hl hS hreadable hwf hdepth' hkeys (envelopeOf_asRead hstable) (by rwa [hmax])
  unfold verifyMessage
  dsimp only
  rw [hverify]

/-- A message that was built passes every check of a node that has the sender's key. -/
theorem Signing.checked (hl : CrateLaws F) {S : Identity F} {sk : SigningKey}
    (hS : KeyPair S sk) {call : BuildCall F} {env : Envelope F} {bytes : List UInt8}
    (hs : Signing S call sk env bytes) (hreadable : Readable env)
    (hstable : env.payload.readBack = some env.payload)
    (hdepth : env.payload.depth + 1 ≤ serdeDepth) {now : UInt64}
    (hclock : now.toNat ≤ call.nowMs.toNat + maxEnvelopeSkewMs ∧
      call.nowMs.toNat ≤ now.toNat + maxEnvelopeSkewMs)
    {contacts : Dict (Key F) (Ref (Contact F))} {contact : Ref (Contact F)}
    (hcontact : Dict.get? contacts (.str S.peerId) = some contact)
    (hkey : contact.val.publicKeyB64 = .str S.publicKeyB64) {et : Option (Json F)}
    (het : unexpected et env.recipientPeerId = false) :
    Checked contacts (asRead env.toDict) none et now S.peerId env.recipientPeerId
      (tokenHex call.random) contact := by
  have henv := envelopeOf_asRead hstable
  constructor
  · rw [henv.protocolVersion, hs.version]
    rfl
  · rw [henv.senderPeerId, hs.sender]
  · exact henv.recipientPeerId
  · rfl
  · exact het
  · exact hcontact
  · rw [henv.nonce, hs.nonce]
    rfl
  · exact tokenHex_ne_nil call.random
  · rw [hkey]
    exact hs.verifies hl hS hreadable hstable hdepth hclock

/-! ### Payloads of strings -/

/-- A payload whose members are strings. -/
def textMembers (payload : List (Str × Str)) : Members F :=
  payload.map fun kv => (kv.1, .str kv.2)

omit [Float64 F] [Crates F] [DecidableEq F] [PyRepr F] in
theorem keys_textMembers (payload : List (Str × Str)) :
    Dict.keys (textMembers (F := F) payload) = payload.map Prod.fst := by
  rw [textMembers, Dict.keys, List.map_map]
  rfl

omit [Float64 F] [Crates F] [DecidableEq F] [PyRepr F] in
theorem wellFormed_textMembers {payload : List (Str × Str)}
    (hscalar : ∀ kv ∈ payload, kv.1.isScalar = true ∧ kv.2.isScalar = true)
    (hnodup : (payload.map Prod.fst).Nodup) :
    (Json.obj (textMembers (F := F) payload)).wellFormed = true := by
  rw [Json.wellFormed_obj, keys_textMembers]
  refine ⟨hnodup, ?_, ?_⟩
  · intro k hk
    obtain ⟨kv, hkv, rfl⟩ := List.mem_map.mp hk
    exact Json.normal_of_isScalar (hscalar kv hkv).1
  · intro kw hkw
    obtain ⟨kv, hkv, rfl⟩ := List.mem_map.mp hkw
    exact Json.normal_of_isScalar (hscalar kv hkv).2

omit [Float64 F] [Crates F] [DecidableEq F] [PyRepr F] in
theorem numberFree_textMembers (payload : List (Str × Str)) :
    (Json.obj (textMembers (F := F) payload)).numberFree = true := by
  rw [Json.numberFree_obj]
  intro kw hkw
  obtain ⟨kv, -, rfl⟩ := List.mem_map.mp hkw
  rfl

omit [Crates F] [DecidableEq F] [PyRepr F] in
/-- A reader of a payload of texts gets its canonical form. -/
theorem readBack_textMembers {payload : List (Str × Str)}
    (hscalar : ∀ kv ∈ payload, kv.1.isScalar = true ∧ kv.2.isScalar = true) :
    (Json.obj (textMembers (F := F) payload)).readBack
      = some (Json.obj (textMembers payload)).canon := by
  have hnodes : (Json.obj (textMembers (F := F) payload)).allNodes Json.serdeNode = true := by
    rw [Json.allNodes_obj]
    constructor
    · show (Dict.keys (textMembers payload)).all Str.isScalar = true
      rw [keys_textMembers, List.all_eq_true]
      intro k hk
      obtain ⟨kv, hkv, rfl⟩ := List.mem_map.mp hk
      exact (hscalar kv hkv).1
    · intro kw hkw
      obtain ⟨kv, hkv, rfl⟩ := List.mem_map.mp hkw
      exact (hscalar kv hkv).2
  rw [Json.readBack, if_pos hnodes,
    Json.mapLeaves_of_numberFree Json.numberMap_serdeLeaf (numberFree_textMembers payload)]

omit [Float64 F] [Crates F] [DecidableEq F] [PyRepr F] in
theorem depth_textMembers (payload : List (Str × Str)) :
    (Json.obj (textMembers (F := F) payload)).depth ≤ 1 := by
  rw [Json.depth_obj_le]
  intro kw hkw
  obtain ⟨kv, -, rfl⟩ := List.mem_map.mp hkw
  exact Nat.le_refl 0

/-! ### Delivery -/

/-- A message with a payload of strings is built, and passes the checks of the recipient
wherever its contact entry for the sender has the sender's key. -/
theorem exists_delivery (hl : CrateLaws F) {S : Identity F} {sk : SigningKey} (hS : Genuine S sk)
    (R : Identity F) (payload : List (Str × Str))
    (hscalar : ∀ kv ∈ payload, kv.1.isScalar = true ∧ kv.2.isScalar = true)
    (hnodup : (payload.map Prod.fst).Nodup) (random : FixedBytes 16) (sent : UInt64) :
    ∃ env bytes, Signing S ⟨.str R.peerId, textMembers payload, random, sent⟩ sk env bytes ∧
      buildMessage S (.str R.peerId) (textMembers payload) random sent = .ok (.obj env.toDict) ∧
      Readable env ∧ env.payload = (Json.obj (textMembers payload)).canon ∧
      ∀ (contacts : Dict (Key F) (Ref (Contact F))) (contact : Ref (Contact F))
        (received : UInt64), Dict.get? contacts (.str S.peerId) = some contact →
        contact.val.publicKeyB64 = .str S.publicKeyB64 →
        (received.toNat ≤ sent.toNat + maxEnvelopeSkewMs ∧
          sent.toNat ≤ received.toNat + maxEnvelopeSkewMs) →
        Checked contacts (asRead env.toDict) none (some (.str R.peerId)) received S.peerId
          R.peerId (tokenHex random) contact := by
  have hR := R.plain_peerId
  have hdepth := depth_textMembers (F := F) payload
  have hread := readBack_textMembers (F := F) hscalar
  have hfree := numberFree_textMembers (F := F) payload
  have hpair := hS.keyPair hl.base64 hl.signature
  obtain ⟨env, bytes, hs, hpayload, hreadable, hbuild⟩ := hpair.builds hl
    ⟨.str R.peerId, textMembers payload, random, sent⟩ rfl hR.isScalar
    (wellFormed_textMembers hscalar hnodup) hread (Nat.le_trans hdepth (by decide))
  refine ⟨env, bytes, hs, hbuild, hreadable, hpayload, ?_⟩
  intro contacts contact received hcontact hkey hclock
  -- the recipient's library reads the payload of strings once more, without a change
  have hstable : env.payload.readBack = some env.payload := by
    rw [hpayload]
    exact Json.readBack_readBack hfree hread
  have hdepth' : env.payload.depth + 1 ≤ serdeDepth := by
    have hle : env.payload.depth ≤ 1 := by
      rw [hpayload]
      exact Json.depth_canon_le hdepth
    have h127 : serdeDepth = 127 := rfl
    omega
  have hrecipient : env.recipientPeerId = R.peerId := by
    obtain ⟨s, hs', -, heq⟩ := hs.recipient
    cases hs'
    rw [heq, hR.cStr_eq]
  have het : unexpected (some (.str R.peerId : Json F)) env.recipientPeerId = false := by
    rw [hrecipient, unexpected, Json.eqStr]
    simp
  have hchecked := hs.checked hl hpair hreadable hstable hdepth' hclock hcontact hkey het
  rwa [hrecipient] at hchecked

/-- A message with a payload of strings is built, and its line is read by the recipient as one
message, which is accepted and has the payload that was given.

The bytes that are verified are those that were signed, because without numbers every reader on the
way has the canonical form of the payload; the other checks hold by the hypotheses. -/
theorem delivered (hl : CrateLaws F) {S : Identity F} {sk : SigningKey} (hS : Genuine S sk)
    (R : Node F) {contact : Ref (Contact F)}
    (hcontact : Dict.get? R.contacts (.str S.peerId) = some contact)
    (hkey : contact.val.publicKeyB64 = .str S.publicKeyB64) (payload : List (Str × Str))
    (hscalar : ∀ kv ∈ payload, kv.1.isScalar = true ∧ kv.2.isScalar = true)
    (hnodup : (payload.map Prod.fst).Nodup) (random : FixedBytes 16)
    (hnonce : tokenHex random ∉ R.replay.known S.peerId) (sent received : UInt64)
    (hclock : received.toNat ≤ sent.toNat + maxEnvelopeSkewMs ∧
      sent.toNat ≤ received.toNat + maxEnvelopeSkewMs) :
    ∃ m, buildMessage S (.str R.identity.peerId) (textMembers payload) random sent
        = .ok (.obj m) ∧
      ((Json.dumpsSorted (.obj m)).length ≤ streamLimit → ∀ rest, ∃ msg replay,
        readJsonLine (writeJsonLine m ++ rest) = .ok (msg, rest) ∧
        validateMessage R.contacts R.replay msg none (some (.str R.identity.peerId)) received
          = (.ok (), replay) ∧
        ∃ p, Dict.get? msg Field.payload = some p ∧ p.Same (.obj (textMembers payload))) := by
  obtain ⟨env, bytes, -, hbuild, hreadable, hpayload, hchecks⟩ :=
    exists_delivery hl hS R.identity payload hscalar hnodup random sent
  have hchecked := hchecks R.contacts contact received hcontact hkey hclock
  have hfresh := (ReplayWindow.seen_fresh hnonce S.peerId).1
  refine ⟨env.toDict, hbuild, fun hlen rest => ⟨asRead env.toDict,
    (R.replay.seen S.peerId (tokenHex random)).2,
    readJsonLine_writeJsonLine (wellFormed_toDict hreadable) hlen rest, ?_, env.payload, ?_, ?_⟩⟩
  · -- the checks hold, so the replay window decides
    rw [hchecked.validateMessage R.replay]
    show (if (R.replay.seen S.peerId (tokenHex random)).1 then _ else _, _) = _
    rw [hfresh]
    rfl
  · have hget : Dict.get? (asRead env.toDict) Field.payload = some env.payload.canon :=
      Json.get?_canon (nodup_keys_toDict env) Field.payload
    rw [hget, hpayload, Json.canon_canon]
  · show env.payload.canon = _
    rw [hpayload, Json.canon_canon]

/-- The payload of a message with a quote, a newline, a NUL and a character outside the basic
plane, from its build to its acceptance. -/
theorem delivered_sample : ∃ m msg replay p,
    buildMessage (Sample.identity 1) (.str (Sample.identity 2).peerId)
      (textMembers [(Field.type, Sample.awkward)]) (Sample.random 3) 1000 = .ok (.obj m) ∧
    readJsonLine (writeJsonLine m) = .ok (msg, []) ∧
    validateMessage [(.str (Sample.identity 1).peerId, Sample.contact 1)] {} msg none
      (some (.str (Sample.identity 2).peerId)) 2000 = (.ok (), replay) ∧
    Dict.get? msg Field.payload = some p ∧
    p.Same (.obj [(Field.type, .str Sample.awkward)]) := by
  let R : Node Empty :=
    { identity := Sample.identity 2
      contacts := [(.str (Sample.identity 1).peerId, Sample.contact 1)]
      contactsFile := none }
  obtain ⟨m, hbuild, hline⟩ := delivered Sample.crateLaws
    (genuine_ofKey Sample.base64Laws (Sample.key 1)) R
    (show _ = some (Sample.contact 1) by decide +kernel) rfl
    [(Field.type, Sample.awkward)] (by decide +kernel) (by decide +kernel)
    (Sample.random 3) (by decide +kernel) 1000 2000 (by decide)
  have hbuild' : buildMessage (Sample.identity 1) (.str (Sample.identity 2).peerId)
      (textMembers [(Field.type, Sample.awkward)]) (Sample.random 3) 1000 = .ok (.obj m) := hbuild
  have hlen : ((buildMessage (Sample.identity 1) (.str (Sample.identity 2).peerId)
      (textMembers [(Field.type, Sample.awkward)]) (Sample.random 3) 1000).toOption.elim 0
        fun v => (Json.dumpsSorted v).length) ≤ streamLimit := by
    decide +kernel
  rw [hbuild'] at hlen
  obtain ⟨msg, replay, hread, hok, p, hp, hsame⟩ := hline hlen []
  rw [List.append_nil] at hread
  exact ⟨m, msg, replay, p, hbuild, hread, hok, hp, hsame⟩

end P4

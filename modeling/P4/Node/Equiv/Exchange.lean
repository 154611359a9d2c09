/-
  A description that one node sends and another reads.

  `Sent` is what `exists_delivery` says of an offer or an answer: the envelope that is built for
  the recipient, the message that is read from its line, and the checks that it passes.  What
  `_handle_offer` and `_initiate_with_contact` read of the payload is what was put into it
  (`Sent.complete`, `Sent.checkAnswer`).
-/
import P4.Node.Equiv.Delivery
import P4.Session.Equiv.Lock

namespace P4

variable {F : Type} [DecidableEq F] [Float64 F] [Crates F] [PyRepr F]

/-- The members of `descPayload`, which are all strings. -/
def descTexts (type sid : Str) (desc : Text × Text) : List (Str × Str) :=
  [(Field.type, type), (Field.sessionId, sid), (Field.sdp, Str.ofText desc.1),
    (Field.sdpType, Str.ofText desc.2)]

theorem nodup_descTexts (type sid : Str) (desc : Text × Text) :
    ((descTexts type sid desc).map Prod.fst).Nodup := by
  show [Field.type, Field.sessionId, Field.sdp, Field.sdpType].Nodup
  decide

theorem scalar_descTexts {type : Str} (htype : type.isScalar = true) (sid : Text)
    (desc : Text × Text) :
    ∀ kv ∈ descTexts type (Str.ofText sid) desc, kv.1.isScalar = true ∧ kv.2.isScalar = true := by
  intro kv hkv
  simp only [descTexts, List.mem_cons, List.not_mem_nil, or_false] at hkv
  rcases hkv with rfl | rfl | rfl | rfl
  · exact ⟨Str.isScalar_ofText _, htype⟩
  · exact ⟨Str.isScalar_ofText _, Str.isScalar_ofText _⟩
  · exact ⟨Str.isScalar_ofText _, Str.isScalar_ofText _⟩
  · exact ⟨Str.isScalar_ofText _, Str.isScalar_ofText _⟩

omit [DecidableEq F] [Float64 F] [Crates F] [PyRepr F] in
/-- Reading a member of a payload of strings that was sent. -/
theorem get?_asRead_textMembers {payload : List (Str × Str)}
    (hnodup : (payload.map Prod.fst).Nodup) (k : Str) :
    Dict.get? (asRead (textMembers (F := F) payload)) k =
      (Dict.get? payload k).map Json.str := by
  have hkeys : (Dict.keys (textMembers (F := F) payload)).Nodup := by
    rwa [keys_textMembers]
  have hget : Dict.get? (textMembers (F := F) payload) k = (Dict.get? payload k).map Json.str :=
    Dict.get?_map Json.str payload k
  show Dict.get? (Json.sortMembers _) k = _
  rw [Json.get?_canon hkeys, hget, Option.map_map]
  rfl

/-- The envelope `m` is built by `S` for the peer `R`, and `msg` is read from its line. -/
structure Sent (S : Identity F) (R : Str) (type sid : Str) (desc : Text × Text)
    (random : FixedBytes 16) (sent : UInt64) (m msg : Members F) : Prop where
  built : buildMessage S (.str R) (descPayload type (.str sid) desc) random sent = .ok (.obj m)
  read : (Json.dumpsSorted (.obj m)).length ≤ streamLimit →
    readJsonLine (writeJsonLine m) = .ok (msg, [])
  payload : payloadOf msg = some (asRead (descPayload type (.str sid) desc))
  notError : Dict.get? msg Field.ok = none
  checked : ∀ (contacts : Dict (Key F) (Ref (Contact F))) (contact : Ref (Contact F))
    (received : UInt64), Dict.get? contacts (.str S.peerId) = some contact →
    contact.val.publicKeyB64 = .str S.publicKeyB64 →
    (received.toNat ≤ sent.toNat + maxEnvelopeSkewMs ∧
      sent.toNat ≤ received.toNat + maxEnvelopeSkewMs) →
    Checked contacts msg none (some (.str R)) received S.peerId R (tokenHex random) contact

/-- A description can be sent. -/
theorem exists_sent (hl : CrateLaws F) {S : Identity F} {sk : SigningKey} (hS : Genuine S sk)
    (R : Identity F) {type : Str} (htype : type.isScalar = true) (sid : Text)
    (desc : Text × Text) (random : FixedBytes 16) (sent : UInt64) :
    ∃ m msg, Sent S R.peerId type (Str.ofText sid) desc random sent m msg := by
  obtain ⟨env, bytes, -, hbuild, hreadable, hpayload, hchecks⟩ :=
    exists_delivery hl hS R (descTexts type (Str.ofText sid) desc)
      (scalar_descTexts htype sid desc) (nodup_descTexts type _ desc) random sent
  refine ⟨env.toDict, asRead env.toDict, hbuild, ?_, ?_, ?_, hchecks⟩
  · intro hlen
    have hread := readJsonLine_writeJsonLine (wellFormed_toDict hreadable) hlen []
    rwa [List.append_nil] at hread
  · have hget : Dict.get? (asRead env.toDict) Field.payload = some env.payload.canon :=
      Json.get?_canon (nodup_keys_toDict env) Field.payload
    rw [hpayload, Json.canon_canon, canon_obj_asRead] at hget
    rw [payloadOf, hget]
    rfl
  · have hget : Dict.get? (asRead env.toDict) Field.ok =
        (Dict.get? env.toDict Field.ok).map Json.canon :=
      Json.get?_canon (nodup_keys_toDict env) Field.ok
    have hnone : Dict.get? env.toDict Field.ok = none := rfl
    rw [hget, hnone]
    rfl

namespace Sent

variable {S : Identity F} {R type sid : Str} {desc : Text × Text} {random : FixedBytes 16}
  {sent : UInt64} {m msg : Members F}

/-- Reading a member of the payload. -/
theorem get?_payload (h : Sent S R type sid desc random sent m msg) (k : Str) :
    Dict.get? ((payloadOf msg).getD []) k =
      (Dict.get? (descTexts type sid desc) k).map Json.str := by
  rw [h.payload, Option.getD_some]
  exact get?_asRead_textMembers (nodup_descTexts type sid desc) k

/-- `_handle_offer` finds the members that it reads. -/
theorem complete (h : Sent S R type sid desc random sent m msg) :
    SessionWorld.Complete msg (.str sid) := by
  refine ⟨?_, ?_, ?_⟩ <;> rw [h.get?_payload] <;> rfl

/-- `_initiate_with_contact` accepts the answer to its own offer. -/
theorem checkAnswer (h : Sent S R Kind.answer sid desc random sent m msg) :
    Node.checkAnswer (.str sid) msg = true := by
  have hget : ∀ k, Dict.get? (asRead (descPayload (F := F) Kind.answer (.str sid) desc)) k =
      (Dict.get? (descTexts Kind.answer sid desc) k).map Json.str :=
    get?_asRead_textMembers (nodup_descTexts Kind.answer sid desc)
  have htype : Dict.get? (descTexts Kind.answer sid desc) Field.type = some Kind.answer := rfl
  have hsid : Dict.get? (descTexts Kind.answer sid desc) Field.sessionId = some sid := rfl
  have hsdp : Dict.get? (descTexts Kind.answer sid desc) Field.sdp =
      some (Str.ofText desc.1) := rfl
  have hsdpType : Dict.get? (descTexts Kind.answer sid desc) Field.sdpType =
      some (Str.ofText desc.2) := rfl
  rw [Node.checkAnswer, h.payload]
  simp [hget, htype, hsid, hsdp, hsdpType, Json.eqStr]

/-- The message is accepted when its nonce is new. -/
theorem accepts (h : Sent S R type sid desc random sent m msg) {n : Node F}
    {contact : Ref (Contact F)} (hcontact : Dict.get? n.contacts (.str S.peerId) = some contact)
    (hkey : contact.val.publicKeyB64 = .str S.publicKeyB64)
    (hfresh : tokenHex random ∉ n.replay.known S.peerId) {received : UInt64}
    (hclock : received.toNat ≤ sent.toNat + maxEnvelopeSkewMs ∧
      sent.toNat ≤ received.toNat + maxEnvelopeSkewMs)
    {ef et : Option (Json F)} (hef : unexpected ef S.peerId = false)
    (het : unexpected et R = false) :
    validateMessage n.contacts n.replay msg ef et received =
      (.ok (), (n.replay.seen S.peerId (tokenHex random)).2) := by
  have hch := h.checked n.contacts contact received hcontact hkey hclock
  have hchecked : Checked n.contacts msg ef et received S.peerId R (tokenHex random) contact :=
    { hch with expectedFrom := hef, expectedTo := het }
  rw [hchecked.validateMessage n.replay, (ReplayWindow.seen_fresh hfresh S.peerId).1]
  rfl

end Sent

end P4

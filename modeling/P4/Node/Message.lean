/-
  Building and checking signed messages: `_build_message` and `_validate_message`.
-/
import P4.Node.Contact
import P4.Node.Replay

namespace P4

/-! ### Identities -/

/-- `class Identity`.  `load_or_create` returns one only when its peer id is that of its public
key. -/
structure Identity (F : Type) [Crates F] where
  privateKeyB64 : Str
  publicKeyB64 : Str
  peerId : Str
  valid : P4Core.peerIdFromPublicKeyB64 F publicKeyB64 = .ok peerId

/-- `MAX_ENVELOPE_SKEW_MS` -/
def maxEnvelopeSkewMs : Nat := 24 * 3600 * 1000

/-- `secrets.token_hex(16)`, from the bytes it draws. -/
def tokenHex (bytes : FixedBytes 16) : Str := hexLower bytes.val

/-! ### Python operations on values -/

/-- `repr` on values that are not strings; its text is never empty. -/
class PyRepr (F : Type) where
  repr : Json F → Str
  repr_ne_nil : ∀ v, repr v ≠ []

namespace Json

variable {F : Type}

/-- `str(v)` -/
def pyStr [PyRepr F] : Json F → Str
  | .str s => s
  | v => PyRepr.repr v

/-- `bool(v)` -/
def truthy [Float64 F] : Json F → Bool
  | .null => false
  | .bool b => b
  | .int i => decide (i ≠ 0)
  | .float f => decide (Float64.toInt? f ≠ some 0)
  | .str s => !s.isEmpty
  | .arr l => !l.isEmpty
  | .obj m => !m.isEmpty

end Json

section

variable {F : Type} [DecidableEq F] [Float64 F] [Crates F] [PyRepr F]

/-! ### Messages -/

/-- `P4Node._build_message`, with the random bytes of the nonce and the clock. -/
def buildMessage (identity : Identity F) (toPeerId : Json F) (payload : Members F)
    (random : FixedBytes 16) (nowMs : UInt64) : Except Exc (Json F) :=
  match toPeerId with
  | .str toPeerId =>
    match P4Core.signEnvelope identity.privateKeyB64 identity.peerId toPeerId payload
        (tokenHex random) nowMs.toNat with
    | .error (.core msg) => .error (.runtime (Str.lit "Envelope signing failed: " ++ msg))
    | r => r
  | _ => .error (.builtin (Str.lit "AttributeError"))

/-- The call of `verify_envelope` in `_validate_message`. -/
def verifyMessage (msg : Members F) (publicKeyB64 : Json F) (nowMs : UInt64) : Except Exc Unit :=
  match publicKeyB64 with
  | .str key =>
    match P4Core.verifyEnvelope msg key maxEnvelopeSkewMs nowMs.toNat with
    | .error (.core e) => .error (.runtime (Str.lit "Signature verification failed: " ++ e))
    | r => r
  | _ => .error (.builtin (Str.lit "AttributeError"))

/-- `expected and actual != expected` -/
def unexpected (expected : Option (Json F)) (actual : Str) : Bool :=
  match expected with
  | none => false
  | some v => v.truthy && !v.eqStr actual

/-- `P4Node._validate_message`: how it ends, and the replay window afterwards. -/
def validateMessage (contacts : Dict (Key F) (Ref (Contact F))) (replay : ReplayWindow)
    (msg : Members F) (expectedFrom expectedTo : Option (Json F)) (nowMs : UInt64) :
    Except Exc Unit × ReplayWindow :=
  if !((Dict.get? msg Field.protocolVersion).any (·.eqInt 1)) then
    (.error (.runtime (Str.lit "Unsupported protocol version")), replay)
  else match Dict.get? msg Field.senderPeerId, Dict.get? msg Field.recipientPeerId with
  | some (.str fromPeerId), some (.str toPeerId) =>
    if unexpected expectedFrom fromPeerId then
      (.error (.runtime (Str.lit "Unexpected message sender")), replay)
    else if unexpected expectedTo toPeerId then
      (.error (.runtime (Str.lit "Unexpected message recipient")), replay)
    else match Dict.get? contacts (.str fromPeerId) with
    | none => (.error (.runtime (Str.lit "Unknown peer identity: " ++ fromPeerId)), replay)
    | some contact =>
      let nonce := ((Dict.get? msg Field.nonce).map Json.pyStr).getD []
      if nonce.isEmpty then (.error (.runtime (Str.lit "Missing nonce")), replay)
      else match verifyMessage msg contact.val.publicKeyB64 nowMs with
      | .error e => (.error e, replay)
      | .ok () =>
        let (seen, replay) := replay.seen fromPeerId nonce
        if seen then (.error (.runtime (Str.lit "Replay detected")), replay)
        else (.ok (), replay)
  | _, _ => (.error (.runtime (Str.lit "Invalid envelope peer IDs")), replay)

end

end P4

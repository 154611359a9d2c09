/-
  The C ABI of `rust/p4-ffi` and its Python binding `bindings/python/p4_core`.

  A C string is the text up to its first NUL; a string-returning function gives back null when
  its body failed or when its result contains a NUL, and leaves the error text behind
  (`captured`).  UTF-8 encoding and decoding at the boundary are inverse on text, so strings
  cross it as text.
-/
import P4.Core.Envelope

namespace P4

/-! ### Exceptions -/

/-- A Python exception: `RuntimeError`, `P4CoreError`, `KeyError` with the missing key, or
another one raised by the interpreter or the standard library, by its name. -/
inductive Exc where
  | runtime (msg : Str)
  | core (msg : Str)
  | key (name : Str)
  | builtin (name : Str)
deriving DecidableEq

/-- `str(exc)`; the wording of the other built-in exceptions is left at their names. -/
def Exc.text : Exc → Str
  | runtime msg => msg
  | core msg => msg
  | key name => Str.lit "'" ++ name ++ Str.lit "'"
  | builtin name => name

/-! ### The C ABI -/

section

variable {F : Type} [Crates F]

/-- `read_cstr`: the pointer is null or points to a NUL-terminated string. -/
def readCStr (ptr : Option Text) (field : Str) : Except CoreError Text :=
  match ptr with
  | none => .error (.json (field ++ Str.lit " pointer is null"))
  | some t => .ok (t.takeWhile (· ≠ '\x00'))

/-- The body of `p4_sign_envelope_json`. -/
def signEnvelopeJson (F : Type) [Crates F] (privateKeyB64 senderPeerId recipientPeerId
    payloadJson : Option Text) (timestampMs : UInt64) (nonce : Option Text) :
    Except CoreError Text := do
  let privateKey ← readCStr privateKeyB64 (Str.lit "private_key_b64")
  let sender ← readCStr senderPeerId (Str.lit "sender_peer_id")
  let recipient ← readCStr recipientPeerId (Str.lit "recipient_peer_id")
  let payloadRaw ← readCStr payloadJson (Str.lit "payload_json")
  let nonce ← readCStr nonce (Str.lit "nonce")
  let signingKey ← signingKeyFromB64 F (Str.ofText privateKey)
  let payload : Json F ← (Crates.valueFromStr payloadRaw).mapError .json
  let envelope ← signEnvelope signingKey (Str.ofText sender) (Str.ofText recipient) timestampMs
    (Str.ofText nonce) payload
  (Crates.envelopeToString envelope).mapError .json

/-- The body of `p4_verify_envelope_json`. -/
def verifyEnvelopeJson (F : Type) [Crates F] (envelopeJson signerPublicKeyB64 : Option Text)
    (nowMs maxSkewMs : UInt64) : Except CoreError Unit := do
  let envelopeRaw ← readCStr envelopeJson (Str.lit "envelope_json")
  let signerKeyRaw ← readCStr signerPublicKeyB64 (Str.lit "signer_public_key_b64")
  let envelope : Envelope F ← (Crates.envelopeFromStr envelopeRaw).mapError .json
  let verifyingKey ← verifyingKeyFromB64 F (Str.ofText signerKeyRaw)
  verifyEnvelope envelope verifyingKey nowMs maxSkewMs

/-- `with_error_capture` followed by `into_c_string_ptr`: the string, or null and the text of
the error left behind. -/
def captured (r : Except CoreError Text) : Except Str Text :=
  match r with
  | .error e => .error e.display
  | .ok t =>
    if '\x00' ∈ t then
      .error (Str.lit "failed to create C string: nul byte found in provided data at position: "
        ++ decimal ((t.takeWhile (· ≠ '\x00')).map Char.utf8Size).sum)
    else .ok t

/-- `P4Core.last_error` after the error text `msg` was left behind: `p4_last_error_message`
returns null when the text contains a NUL. -/
def lastError (msg : Str) : Str :=
  if (0 : CodePoint) ∈ msg then Str.lit "unknown error" else msg

end

/-! ### The binding -/

/-- `str.encode("utf-8")` -/
def encodeUtf8 (s : Str) : Except Exc Text :=
  match s.toText? with
  | some t => .ok t
  | none => .error (.builtin (Str.lit "UnicodeEncodeError"))

/-- `ctypes.c_uint64` -/
def cUint64 (n : Int) : UInt64 := UInt64.ofInt n

namespace P4Core

variable {F : Type} [JsonFloat F] [Crates F]

/-- `P4Core._take_string` -/
def takeString (r : Except Str Text) : Except Exc Text :=
  match r with
  | .error msg => .error (.core (lastError msg))
  | .ok t => .ok t

/-- `P4Core.peer_id_from_public_key_b64`; a peer id contains no NUL. -/
def peerIdFromPublicKeyB64 (F : Type) [Crates F] (publicKeyB64 : Str) : Except Exc Str := do
  let key ← encodeUtf8 publicKeyB64
  match (do
    let raw ← readCStr (some key) (Str.lit "public_key_b64")
    P4.peerIdFromPublicKeyB64 F (Str.ofText raw)) with
  | .ok peerId => .ok peerId
  | .error e => .error (.core (lastError e.display))

/-- `P4Core.sign_envelope`, of any value: that it is a `dict` is not checked. -/
def signEnvelopeOf (privateKeyB64 senderPeerId recipientPeerId : Str) (payload : Json F)
    (nonce : Str) (timestampMs : Int) : Except Exc (Json F) := do
  let privateKey ← encodeUtf8 privateKeyB64
  let sender ← encodeUtf8 senderPeerId
  let recipient ← encodeUtf8 recipientPeerId
  let nonce ← encodeUtf8 nonce
  let text ← takeString (captured (signEnvelopeJson F (some privateKey) (some sender)
    (some recipient) (some (Json.dumpsCompact payload)) (cUint64 timestampMs) (some nonce)))
  match Json.loads text with
  | some v => .ok v
  | none => .error (.builtin (Str.lit "JSONDecodeError"))

/-- `P4Core.sign_envelope` -/
def signEnvelope (privateKeyB64 senderPeerId recipientPeerId : Str) (payload : Members F)
    (nonce : Str) (timestampMs : Int) : Except Exc (Json F) :=
  signEnvelopeOf privateKeyB64 senderPeerId recipientPeerId (.obj payload) nonce timestampMs

/-- `P4Core.verify_envelope` -/
def verifyEnvelope (envelope : Members F) (signerPublicKeyB64 : Str) (maxSkewMs nowMs : Int) :
    Except Exc Unit := do
  let key ← encodeUtf8 signerPublicKeyB64
  match verifyEnvelopeJson F (some (Json.dumpsCompact (.obj envelope))) (some key)
    (cUint64 nowMs) (cUint64 maxSkewMs) with
  | .ok () => .ok ()
  | .error e => .error (.core (lastError e.display))

end P4Core

end P4

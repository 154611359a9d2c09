/-
  The functions of the C ABI with their global error text, as `rust/p4-ffi` has them.

  A call clears `LAST_ERROR` or leaves the text of its error there, and
  `p4_last_error_message` turns the text back into a C string.
-/
import P4.Json.Print
import P4.Node.Contact
import P4.Run.Basic

namespace P4

/-- The bytes of a code point in UTF-8. -/
def utf8Len (c : CodePoint) : Nat :=
  if c.val < 0x80 then 1 else if c.val < 0x800 then 2 else if c.val < 0x10000 then 3 else 4

/-- `into_c_string_ptr`: the pointer, and `LAST_ERROR` afterwards. -/
def intoCStringPtr (value : Str) (last : Option Str) : Option Str × Option Str :=
  if 0 ∈ value then
    (none, some (Str.lit "failed to create C string: nul byte found in provided data at position: "
      ++ decimal ((value.takeWhile (· ≠ 0)).map utf8Len).sum))
  else (some value, last)

/-- `with_error_capture`: the result of the body, and `LAST_ERROR` afterwards. -/
def withErrorCapture {α : Type} (body : Except CoreError α) : Option α × Option Str :=
  match body with
  | .ok v => (some v, none)
  | .error e => (none, some e.display)

/-- A function that returns a string. -/
def stringCall (body : Except CoreError Str) : Option Str × Option Str :=
  match withErrorCapture body with
  | (some value, last) => intoCStringPtr value last
  | (none, last) => (none, last)

namespace Field

/-- `"private_key_b64"` -/
def privateKeyB64 : Str := Str.ofText
  ['p', 'r', 'i', 'v', 'a', 't', 'e', '_', 'k', 'e', 'y', '_', 'b', '6', '4']

end Field

section

variable (F : Type) [JsonFloat F] [Crates F]

/-- `serde_json::to_string` of the identity that `generate_identity` makes of a key; its texts
are printable, so nothing in them is escaped. -/
def generateIdentityJson (key : SigningKey) : Text :=
  Json.dumpsCompact (F := F) (.obj
    [(Field.privateKeyB64, .str (Crates.b64Encode F key.val)),
     (Field.publicKeyB64, .str (Crates.b64Encode F (Crates.verifyingKey F key).val)),
     (Field.peerId, .str (peerIdFromPublicKeyBytes F (Crates.verifyingKey F key).val))])

end

/-- A call of a function of the C ABI; a pointer is null or points to a NUL-terminated
string. -/
inductive AbiCall where
  /-- `p4_generate_identity_json`, with the key that the generator returns -/
  | generateIdentityJson (key : SigningKey)
  | peerIdFromPublicKeyB64 (publicKeyB64 : Option Text)
  | signEnvelopeJson (privateKeyB64 senderPeerId recipientPeerId payloadJson : Option Text)
    (timestampMs : UInt64) (nonce : Option Text)
  | verifyEnvelopeJson (envelopeJson signerPublicKeyB64 : Option Text) (nowMs maxSkewMs : UInt64)
  | lastErrorMessage
  | freeString

/-- What a call returns. -/
inductive AbiResult where
  | string (ptr : Option Str)
  | flag (b : Bool)
  | void

/-- The call returned a string that is not null, or 1. -/
def AbiResult.succeeded : AbiResult → Bool
  | string ptr => ptr.isSome
  | flag b => b
  | void => true

/-- A function that clears or sets the error text: one of those that return a string, other than
`p4_last_error_message`, or `p4_verify_envelope_json`. -/
def AbiCall.captures : AbiCall → Bool
  | lastErrorMessage => false
  | freeString => false
  | _ => true

section

variable (F : Type) [JsonFloat F] [Crates F]

/-- What a call returns and leaves in `LAST_ERROR`. -/
def AbiCall.run (last : Option Str) : AbiCall → AbiResult × Option Str
  | generateIdentityJson key =>
    let r := stringCall (.ok (Str.ofText (P4.generateIdentityJson F key)))
    (.string r.1, r.2)
  | peerIdFromPublicKeyB64 publicKeyB64 =>
    let r := stringCall (do
      let key ← readCStr publicKeyB64 (Str.lit "public_key_b64")
      P4.peerIdFromPublicKeyB64 F (Str.ofText key))
    (.string r.1, r.2)
  | signEnvelopeJson privateKeyB64 senderPeerId recipientPeerId payloadJson timestampMs nonce =>
    let r := stringCall ((P4.signEnvelopeJson F privateKeyB64 senderPeerId recipientPeerId
      payloadJson timestampMs nonce).map Str.ofText)
    (.string r.1, r.2)
  | verifyEnvelopeJson envelopeJson signerPublicKeyB64 nowMs maxSkewMs =>
    let r := withErrorCapture (P4.verifyEnvelopeJson F envelopeJson signerPublicKeyB64 nowMs
      maxSkewMs)
    (.flag r.1.isSome, r.2)
  | lastErrorMessage =>
    let r := intoCStringPtr (last.getD []) last
    (.string r.1, r.2)
  | freeString => (.void, last)

/-- The library as a machine: its state is `LAST_ERROR`, and the log has the calls with their
results. -/
def abi : Machine (Option Str) AbiCall (AbiCall × AbiResult) := fun last call =>
  let r := call.run F last
  some (r.2, [(call, r.1)])

end

/-- What `p4_last_error_message` returns. -/
def lastErrorMessage (last : Option Str) : Option Str := (intoCStringPtr (last.getD []) last).1

end P4

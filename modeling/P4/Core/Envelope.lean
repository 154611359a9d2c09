/-
  Signed envelopes: the functions of `rust/p4-core`.

  The crates the library is built on (`serde_json`, `serde_jcs`, `base64`, `sha2`,
  `ed25519_dalek`) are the class `Crates`; what a proof needs to know of them is stated there
  as a named hypothesis.  `signEnvelope` and `verifyEnvelope` follow the Rust functions check
  by check, and `CoreError.display` is the text of each error.

  The last section says how the crates treat JSON: `readBack` is the value that `serde_json`
  holds after reading what Python's `json.dumps` wrote, and `jcsForm` is what the JCS text of a
  value still determines, since JCS writes every number as an IEEE double.
-/
import P4.Json.Parse

namespace P4

/-! ### Bytes and keys of the wire format -/

/-- A byte array of fixed size, `[u8; n]`. -/
def FixedBytes (n : Nat) := { b : List UInt8 // b.length = n }

instance (n : Nat) : DecidableEq (FixedBytes n) :=
  inferInstanceAs (DecidableEq { b : List UInt8 // b.length = n })

/-- A `VerifyingKey`, by its bytes. -/
abbrev VerifyingKey := FixedBytes 32

/-- A `SigningKey`, by its bytes. -/
abbrev SigningKey := FixedBytes 32

namespace Field

/-- `"protocol_version"` -/
def protocolVersion : Str := Str.ofText
  ['p', 'r', 'o', 't', 'o', 'c', 'o', 'l', '_', 'v', 'e', 'r', 's', 'i', 'o', 'n']
/-- `"sender_peer_id"` -/
def senderPeerId : Str := Str.ofText
  ['s', 'e', 'n', 'd', 'e', 'r', '_', 'p', 'e', 'e', 'r', '_', 'i', 'd']
/-- `"recipient_peer_id"` -/
def recipientPeerId : Str := Str.ofText
  ['r', 'e', 'c', 'i', 'p', 'i', 'e', 'n', 't', '_', 'p', 'e', 'e', 'r', '_', 'i', 'd']
/-- `"timestamp_ms"` -/
def timestampMs : Str := Str.ofText
  ['t', 'i', 'm', 'e', 's', 't', 'a', 'm', 'p', '_', 'm', 's']
/-- `"nonce"` -/
def nonce : Str := Str.ofText ['n', 'o', 'n', 'c', 'e']
/-- `"payload"` -/
def payload : Str := Str.ofText ['p', 'a', 'y', 'l', 'o', 'a', 'd']
/-- `"signature_b64"` -/
def signatureB64 : Str := Str.ofText
  ['s', 'i', 'g', 'n', 'a', 't', 'u', 'r', 'e', '_', 'b', '6', '4']

end Field

/-! ### Data types -/

/-- `PROTOCOL_VERSION` -/
def protocolVersion : UInt32 := 1

/-- `PEER_ID_HEX_LEN` -/
def peerIdHexLen : Nat := 24

/-- `struct Envelope` -/
structure Envelope (F : Type) where
  protocolVersion : UInt32
  senderPeerId : Str
  recipientPeerId : Str
  timestampMs : UInt64
  nonce : Str
  payload : Json F
  signatureB64 : Str

/-- `struct SignableEnvelope` -/
structure SignableEnvelope (F : Type) where
  protocolVersion : UInt32
  senderPeerId : Str
  recipientPeerId : Str
  timestampMs : UInt64
  nonce : Str
  payload : Json F

/-- `enum CoreError` -/
inductive CoreError where
  | invalidBase64 (e : Str)
  | invalidKeyLength (label : Str) (expected actual : Nat)
  | invalidSignatureLength (actual : Nat)
  | json (e : Str)
  | canonicalization (e : Str)
  | protocolVersionMismatch (expected actual : UInt32)
  | peerIdMismatch (expected actual : Str)
  | signatureVerificationFailed
  | timestampSkewExceeded

/-- A number in an error text. -/
def decimal (n : Nat) : Str := Str.ofText (Nat.toDigits 10 n)

/-- The `#[error(...)]` texts. -/
def CoreError.display : CoreError → Str
  | invalidBase64 e => Str.lit "invalid base64: " ++ e
  | invalidKeyLength label expected actual =>
    Str.lit "invalid key length for " ++ label ++ Str.lit ": expected " ++ decimal expected ++
      Str.lit ", got " ++ decimal actual
  | invalidSignatureLength actual =>
    Str.lit "invalid signature length: expected 64, got " ++ decimal actual
  | json e => Str.lit "json error: " ++ e
  | canonicalization e => Str.lit "canonicalization error: " ++ e
  | protocolVersionMismatch expected actual =>
    Str.lit "protocol version mismatch: expected " ++ decimal expected.toNat ++
      Str.lit ", got " ++ decimal actual.toNat
  | peerIdMismatch expected actual =>
    Str.lit "peer id mismatch: expected " ++ expected ++ Str.lit ", got " ++ actual
  | signatureVerificationFailed => Str.lit "signature verification failed"
  | timestampSkewExceeded => Str.lit "timestamp outside allowed skew window"

/-! ### The crates -/

/-- The third-party functions that `p4-core` and `p4-ffi` call. -/
class Crates (F : Type) where
  /-- `serde_json::from_str::<Value>` -/
  valueFromStr : Text → Except Str (Json F)
  /-- `serde_json::from_str::<Envelope>` -/
  envelopeFromStr : Text → Except Str (Envelope F)
  /-- `serde_json::to_string(&Envelope)` -/
  envelopeToString : Envelope F → Except Str Text
  /-- `serde_jcs::to_vec(&SignableEnvelope)` -/
  jcsToVec : SignableEnvelope F → Except Str (List UInt8)
  /-- `B64.encode` -/
  b64Encode : List UInt8 → Str
  /-- `B64.decode` -/
  b64Decode : Str → Except Str (List UInt8)
  /-- `Sha256::digest` -/
  sha256 : List UInt8 → FixedBytes 32
  /-- `VerifyingKey::from_bytes`: which byte arrays are keys. -/
  verifyingKeyFromBytes : FixedBytes 32 → Except Str VerifyingKey
  /-- `SigningKey::verifying_key` -/
  verifyingKey : SigningKey → VerifyingKey
  /-- `SigningKey::sign` -/
  sign : SigningKey → List UInt8 → FixedBytes 64
  /-- `VerifyingKey::verify` -/
  verify : VerifyingKey → List UInt8 → FixedBytes 64 → Bool

/-! ### Peer ids -/

/-- `LUT` -/
def hexLut (n : Nat) : CodePoint := Str.ofChar (Nat.digitChar n)

/-- `hex_lower` -/
def hexLower (b : List UInt8) : Str :=
  b.flatMap fun x => [hexLut (x.toNat / 16), hexLut (x.toNat % 16)]

section

variable {F : Type} [Crates F]

/-- `peer_id_from_public_key_bytes` -/
def peerIdFromPublicKeyBytes (F : Type) [Crates F] (publicKey : List UInt8) : Str :=
  (hexLower (Crates.sha256 F publicKey).val).take peerIdHexLen

/-- `decode_fixed_len_b64` -/
def decodeFixedLenB64 (F : Type) [Crates F] (text : Str) (expectedLen : Nat) (label : Str) :
    Except CoreError (FixedBytes expectedLen) :=
  match Crates.b64Decode F text with
  | .error e => .error (.invalidBase64 e)
  | .ok bytes =>
    if h : bytes.length = expectedLen then .ok ⟨bytes, h⟩
    else .error (.invalidKeyLength label expectedLen bytes.length)

/-- `peer_id_from_public_key_b64` -/
def peerIdFromPublicKeyB64 (F : Type) [Crates F] (publicKeyB64 : Str) : Except CoreError Str :=
  match decodeFixedLenB64 F publicKeyB64 32 (Str.lit "public key") with
  | .error e => .error e
  | .ok bytes => .ok (peerIdFromPublicKeyBytes F bytes.val)

/-- `signing_key_from_b64` -/
def signingKeyFromB64 (F : Type) [Crates F] (privateKeyB64 : Str) : Except CoreError SigningKey :=
  decodeFixedLenB64 F privateKeyB64 32 (Str.lit "private key")

/-- `verifying_key_from_b64` -/
def verifyingKeyFromB64 (F : Type) [Crates F] (publicKeyB64 : Str) :
    Except CoreError VerifyingKey :=
  match decodeFixedLenB64 F publicKeyB64 32 (Str.lit "public key") with
  | .error e => .error e
  | .ok bytes =>
    match Crates.verifyingKeyFromBytes F bytes with
    | .error e => .error (.invalidBase64 e)
    | .ok key => .ok key

/-! ### Signing and verifying -/

/-- The `SignableEnvelope` that `verify_envelope` rebuilds. -/
def Envelope.signable (e : Envelope F) : SignableEnvelope F where
  protocolVersion := e.protocolVersion
  senderPeerId := e.senderPeerId
  recipientPeerId := e.recipientPeerId
  timestampMs := e.timestampMs
  nonce := e.nonce
  payload := e.payload

/-- `sign_envelope` -/
def signEnvelope (key : SigningKey) (senderPeerId recipientPeerId : Str) (timestampMs : UInt64)
    (nonce : Str) (payload : Json F) : Except CoreError (Envelope F) :=
  let signable : SignableEnvelope F :=
    { protocolVersion := protocolVersion
      senderPeerId := senderPeerId
      recipientPeerId := recipientPeerId
      timestampMs := timestampMs
      nonce := nonce
      payload := payload }
  match Crates.jcsToVec signable with
  | .error e => .error (.canonicalization e)
  | .ok canonical =>
    .ok { protocolVersion := protocolVersion
          senderPeerId := senderPeerId
          recipientPeerId := recipientPeerId
          timestampMs := timestampMs
          nonce := nonce
          payload := payload
          signatureB64 := Crates.b64Encode F (Crates.sign F key canonical).val }

/-- The freshness test of `verify_envelope`, with its saturating arithmetic on `u64`. -/
def outsideSkew (timestampMs nowMs maxSkewMs : UInt64) : Bool :=
  let lower := nowMs.toNat - maxSkewMs.toNat
  let upper := min (nowMs.toNat + maxSkewMs.toNat) (2 ^ 64 - 1)
  decide (timestampMs.toNat < lower) || decide (upper < timestampMs.toNat)

/-- `verify_envelope` -/
def verifyEnvelope (envelope : Envelope F) (key : VerifyingKey) (nowMs maxSkewMs : UInt64) :
    Except CoreError Unit :=
  if envelope.protocolVersion ≠ protocolVersion then
    .error (.protocolVersionMismatch protocolVersion envelope.protocolVersion)
  else
  let expectedPeerId := peerIdFromPublicKeyBytes F key.val
  if envelope.senderPeerId ≠ expectedPeerId then
    .error (.peerIdMismatch expectedPeerId envelope.senderPeerId)
  else
  if outsideSkew envelope.timestampMs nowMs maxSkewMs then .error .timestampSkewExceeded
  else
  match Crates.jcsToVec envelope.signable with
  | .error e => .error (.canonicalization e)
  | .ok canonical =>
    match Crates.b64Decode F envelope.signatureB64 with
    | .error e => .error (.invalidBase64 e)
    | .ok sig =>
      if h : sig.length = 64 then
        if Crates.verify F key canonical ⟨sig, h⟩ then .ok ()
        else .error .signatureVerificationFailed
      else .error (.invalidSignatureLength sig.length)

/-- The members that `serde_json` writes for an envelope, in the order of the struct. -/
def Envelope.toDict (e : Envelope F) : Members F :=
  [(Field.protocolVersion, .int e.protocolVersion.toNat),
   (Field.senderPeerId, .str e.senderPeerId),
   (Field.recipientPeerId, .str e.recipientPeerId),
   (Field.timestampMs, .int e.timestampMs.toNat),
   (Field.nonce, .str e.nonce),
   (Field.payload, e.payload),
   (Field.signatureB64, .str e.signatureB64)]

end

/-! ### What the crates make of JSON -/

/-- The IEEE doubles, as far as reading and comparing numbers needs them. -/
class Float64 (F : Type) extends JsonFloat F where
  /-- Neither infinite nor NaN. -/
  isFinite : F → Bool
  /-- The double nearest to an integer; `none` beyond the largest double. -/
  ofInt? : Int → Option F
  /-- The integer a double is equal to. -/
  toInt? : F → Option Int
  /-- `<` between doubles. -/
  lt : F → F → Bool
  /-- `<` between an integer and a double, by exact value. -/
  intLt : Int → F → Bool
  /-- `<` between a double and an integer, by exact value. -/
  ltInt : F → Int → Bool

namespace Json

variable {F : Type} [Float64 F]

/-- The integers that `serde_json` keeps: those of `i64` and `u64`. -/
def fits64 (i : Int) : Bool := decide (-2 ^ 63 ≤ i) && decide (i < 2 ^ 64)

/-- A node that `serde_json` reads without an error. -/
def serdeNode : Json F → Bool
  | .int i => fits64 i || (Float64.ofInt? (F := F) i).isSome
  | .float f => Float64.isFinite f
  | .str s => s.isScalar
  | .obj m => (Dict.keys m).all Str.isScalar
  | _ => true

/-- What `serde_json` makes of a number. -/
def serdeLeaf : Json F → Json F
  | .int i => if fits64 i then .int i else
    match Float64.ofInt? (F := F) i with
    | some f => .float f
    | none => .int i
  | v => v

/-- The value `serde_json` holds after reading the text of `v`: its objects are sorted maps.
The limit on nesting is not part of it. -/
def readBack (v : Json F) : Option (Json F) :=
  if v.allNodes serdeNode then some (v.mapLeaves serdeLeaf).canon else none

/-- The integer nearest to `i` that a double represents, ties to even. -/
def roundInt (i : Int) : Int :=
  let n := i.natAbs
  if n < 2 ^ 53 then i
  else
    let s := n.log2 - 52
    let q := n / 2 ^ s
    let r := n % 2 ^ s
    let q' := if 2 ^ s < 2 * r ∨ (2 * r = 2 ^ s ∧ q % 2 = 1) then q + 1 else q
    i.sign * Int.ofNat (q' * 2 ^ s)

/-- A number as a double. -/
def doubleLeaf : Json F → Json F
  | .int i => .int (roundInt i)
  | .float f =>
    match Float64.toInt? f with
    | some i => .int i
    | none => .float f
  | v => v

/-- A value up to the rounding of its numbers and the order of its members. -/
def doubleForm (v : Json F) : Json F := (v.mapLeaves doubleLeaf).canon

end Json

/-- What the JCS text of an envelope determines. -/
def SignableEnvelope.jcsForm {F : Type} [Float64 F] (e : SignableEnvelope F) :
    UInt32 × Str × Str × Int × Str × Json F :=
  (e.protocolVersion, e.senderPeerId, e.recipientPeerId, Json.roundInt e.timestampMs.toNat,
    e.nonce, e.payload.doubleForm)

end P4

/-
  What the results rely on of the crates: their documented behaviour, as named hypotheses.

  `Readable` is the condition under which an envelope can be in the hands of the library: its
  payload was read by `serde_json`, and its texts are Rust strings.
-/
import P4.Core.Envelope

namespace P4

variable {F : Type} [Float64 F]

/-- `serde_json` reads at most this many nested arrays and objects. -/
def serdeDepth : Nat := 127

/-- The dictionary has the members of the envelope: the numbers and texts as they are, the
payload as `serde_json` reads it. -/
structure EnvelopeOf (msg : Members F) (env : Envelope F) : Prop where
  protocolVersion : Dict.get? msg Field.protocolVersion = some (.int env.protocolVersion.toNat)
  senderPeerId : Dict.get? msg Field.senderPeerId = some (.str env.senderPeerId)
  recipientPeerId : Dict.get? msg Field.recipientPeerId = some (.str env.recipientPeerId)
  timestampMs : Dict.get? msg Field.timestampMs = some (.int env.timestampMs.toNat)
  nonce : Dict.get? msg Field.nonce = some (.str env.nonce)
  payload : ∃ p, Dict.get? msg Field.payload = some p ∧ p.readBack = some env.payload
  signatureB64 : Dict.get? msg Field.signatureB64 = some (.str env.signatureB64)

/-- An envelope whose payload was read from text. -/
structure Readable (env : Envelope F) : Prop where
  sender : env.senderPeerId.isScalar = true
  recipient : env.recipientPeerId.isScalar = true
  nonce : env.nonce.isScalar = true
  signature : env.signatureB64.isScalar = true
  payload : ∃ v : Json F, v.wellFormed = true ∧ v.readBack = some env.payload

/-- The numbers in the value are integers of `i64` or `u64`. -/
def Json.integral : Json F → Bool := Json.allNodes fun
  | .int i => Json.fits64 i
  | .float _ => false
  | _ => true

/-- The texts of the envelope are Rust strings. -/
def Envelope.scalars (env : Envelope F) : Bool :=
  env.senderPeerId.isScalar && env.recipientPeerId.isScalar && env.nonce.isScalar &&
    env.signatureB64.isScalar

variable (F) [Crates F]

/-- `serde_json::from_str` returns nothing but what Python's `json.dumps` wrote. -/
structure SerdeReads : Prop where
  value : ∀ (v w : Json F), v.wellFormed = true →
    Crates.valueFromStr (Json.dumpsCompact v) = .ok w → v.readBack = some w
  envelope : ∀ (msg : Members F) (env : Envelope F), (Json.obj msg).wellFormed = true →
    Crates.envelopeFromStr (Json.dumpsCompact (.obj msg)) = .ok env → EnvelopeOf msg env

/-- `serde_json::from_str` reads what Python's `json.dumps` wrote, within its limit on nesting;
for the struct, a dictionary with its members and no others. -/
structure SerdeAccepts : Prop where
  value : ∀ (v w : Json F), v.wellFormed = true → v.readBack = some w → v.depth ≤ serdeDepth →
    Crates.valueFromStr (Json.dumpsCompact v) = .ok w
  envelope : ∀ (msg : Members F) (env : Envelope F), (Json.obj msg).wellFormed = true →
    (Json.obj msg).depth ≤ serdeDepth → (∀ k ∈ Dict.keys msg, k ∈ Dict.keys env.toDict) →
    EnvelopeOf msg env → Readable env →
    Crates.envelopeFromStr (Json.dumpsCompact (.obj msg)) = .ok env

/-- `serde_json::to_string` writes every envelope, without a NUL, and Python's `json.loads`
reads its members back in the order of the struct. -/
structure SerdeWrites : Prop where
  total : ∀ env : Envelope F, Readable env → ∃ text, Crates.envelopeToString env = .ok text
  loads : ∀ (env : Envelope F) (text : Text), Readable env →
    Crates.envelopeToString env = .ok text →
    '\x00' ∉ text ∧ Json.loads text = some (.obj env.toDict)

/-- `serde_json::from_str` undoes `serde_json::to_string` on an envelope that holds a payload
from `serde_json::from_str` without fractions, within its limit on nesting, and rejects what is
nested deeper. -/
structure SerdeRoundTrip : Prop where
  undoes : ∀ (env : Envelope F) (raw text : Text), Crates.valueFromStr raw = .ok env.payload →
    env.payload.integral = true → env.scalars = true →
    Crates.envelopeToString env = .ok text → (Json.obj env.toDict).depth ≤ serdeDepth →
    Crates.envelopeFromStr text = .ok env
  rejects : ∀ (env : Envelope F) (raw text : Text), Crates.valueFromStr raw = .ok env.payload →
    env.payload.integral = true → env.scalars = true →
    Crates.envelopeToString env = .ok text → serdeDepth < (Json.obj env.toDict).depth →
    ∃ e, Crates.envelopeFromStr (F := F) text = .error e

/-- The JCS text determines the envelope up to the rounding of its numbers, and determines an
envelope completely when its payload has no numbers. -/
structure JcsInjective : Prop where
  form : ∀ (a b : SignableEnvelope F) (bytes : List UInt8), Crates.jcsToVec a = .ok bytes →
    Crates.jcsToVec b = .ok bytes → a.jcsForm = b.jcsForm
  numberFree : ∀ (a b : SignableEnvelope F) (bytes : List UInt8),
    a.payload.numberFree = true → b.payload.numberFree = true →
    Crates.jcsToVec a = .ok bytes → Crates.jcsToVec b = .ok bytes →
    a.protocolVersion = b.protocolVersion ∧ a.senderPeerId = b.senderPeerId ∧
      a.recipientPeerId = b.recipientPeerId ∧ a.timestampMs = b.timestampMs ∧
      a.nonce = b.nonce ∧ a.payload.Same b.payload

/-- Every envelope that can be read has a JCS text. -/
def JcsTotal : Prop :=
  ∀ env : Envelope F, Readable env → ∃ bytes, Crates.jcsToVec env.signable = .ok bytes

/-- Decoding undoes encoding, and the encoded text is printable ASCII. -/
structure Base64Laws : Prop where
  decode_encode : ∀ b : List UInt8, Crates.b64Decode F (Crates.b64Encode F b) = .ok b
  encode_ascii : ∀ (b : List UInt8), ∀ c ∈ Crates.b64Encode F b, 0x20 < c.val ∧ c.val < 0x7F

/-- Verification accepts what was signed with the matching key. -/
structure SignatureLaws : Prop where
  fromBytes : ∀ key : SigningKey,
    Crates.verifyingKeyFromBytes F (Crates.verifyingKey F key) = .ok (Crates.verifyingKey F key)
  verify_sign : ∀ (key : SigningKey) (bytes : List UInt8),
    Crates.verify F (Crates.verifyingKey F key) bytes (Crates.sign F key bytes) = true

/-- The error texts of the crates contain no NUL: where they quote their input they escape it. -/
structure ErrorTexts : Prop where
  value : ∀ (t : Text) (e : Str), Crates.valueFromStr (F := F) t = .error e → 0 ∉ e
  envelope : ∀ (t : Text) (e : Str), Crates.envelopeFromStr (F := F) t = .error e → 0 ∉ e
  write : ∀ (env : Envelope F) (e : Str), Crates.envelopeToString env = .error e → 0 ∉ e
  jcs : ∀ (env : SignableEnvelope F) (e : Str), Crates.jcsToVec env = .error e → 0 ∉ e
  base64 : ∀ s e : Str, Crates.b64Decode F s = .error e → 0 ∉ e
  key : ∀ (bytes : FixedBytes 32) (e : Str), Crates.verifyingKeyFromBytes F bytes = .error e → 0 ∉ e

/-- What an exchange between two nodes relies on. -/
structure CrateLaws : Prop where
  accepts : SerdeAccepts F
  writes : SerdeWrites F
  jcs : JcsTotal F
  base64 : Base64Laws F
  signature : SignatureLaws F

end P4

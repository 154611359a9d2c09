/-
  What `_build_message` signs.

  `Signing` is the work behind a message that was built: the private key, the payload as the
  library read it, and the canonical bytes under the signature.  The strings cross the C ABI as
  C strings, so the recipient that is signed is the given one up to its first NUL; peer ids,
  nonces and keys in base64 are plain ASCII and cross it unchanged.
-/
import P4.Core.Equiv.ReadBack
import P4.Node.Basic
import P4.Node.Equiv.Message

namespace P4

/-! ### Plain strings -/

/-- Visible ASCII characters only. -/
def Str.Plain (s : Str) : Prop := ∀ c ∈ s, 0x20 < c.val ∧ c.val < 0x7F

theorem Str.Plain.isScalar {s : Str} (h : s.Plain) : s.isScalar = true := by
  rw [Str.isScalar, List.all_eq_true]
  intro c hc
  have hlt := (h c hc).2
  rw [Str.isSurrogate, Bool.not_eq_true', Bool.and_eq_false_iff]
  exact Or.inl (decide_eq_false (by omega))

theorem Str.Plain.cStr_eq {s : Str} (h : s.Plain) : cStr s = s := by
  refine cStr_of_ne fun c hc hz => ?_
  have hpos := (h c hc).1
  rw [hz] at hpos
  exact absurd hpos (by decide)

theorem plain_hexLower (b : List UInt8) : (hexLower b).Plain := by
  have hdigit : ∀ n < 16, 0x20 < (hexLut n).val ∧ (hexLut n).val < 0x7F := by decide
  intro c hc
  obtain ⟨x, -, hx⟩ := List.mem_flatMap.mp hc
  have hlt : x.toNat < 256 := x.toNat_lt
  simp only [List.mem_cons, List.not_mem_nil, or_false] at hx
  rcases hx with rfl | rfl
  · exact hdigit _ (by omega)
  · exact hdigit _ (by omega)

theorem plain_tokenHex (random : FixedBytes 16) : (tokenHex random).Plain :=
  plain_hexLower _

theorem tokenHex_ne_nil (random : FixedBytes 16) : tokenHex random ≠ [] := by
  intro h
  have hlen : (tokenHex random).length = 2 * random.val.length := by
    rw [tokenHex, hexLower, List.length_flatMap]
    simp [Nat.mul_comm]
  rw [h, random.property] at hlen
  exact absurd hlen (by decide)

section

variable {F : Type} [Crates F]

/-- A peer id is hexadecimal digits. -/
theorem plain_peerIdFromPublicKeyBytes (key : List UInt8) :
    (peerIdFromPublicKeyBytes F key).Plain :=
  fun c hc => plain_hexLower _ c (List.mem_of_mem_take hc)

/-- The peer id of an identity is the fingerprint of the bytes of its public key. -/
theorem Identity.peerId_eq (identity : Identity F) : ∃ bytes : FixedBytes 32,
    decodeFixedLenB64 F (cStr identity.publicKeyB64) 32 (Str.lit "public key") = .ok bytes ∧
      identity.peerId = peerIdFromPublicKeyBytes F bytes.val := by
  obtain ⟨t, ht, h⟩ := except_bind_ok.mp identity.valid
  obtain hkey := encodeUtf8_ok.mp ht
  split at h
  · rename_i peerId hid
    cases h
    obtain ⟨raw, hraw, hid⟩ := except_bind_ok.mp hid
    cases hraw
    rw [Str.ofText_takeWhile, ← hkey] at hid
    rw [P4.peerIdFromPublicKeyB64] at hid
    split at hid
    · cases hid
    · rename_i bytes hbytes
      exact ⟨bytes, hbytes, (Except.ok.inj hid).symm⟩
  · cases h

theorem Identity.plain_peerId (identity : Identity F) : identity.peerId.Plain := by
  obtain ⟨bytes, -, h⟩ := identity.peerId_eq
  rw [h]
  exact plain_peerIdFromPublicKeyBytes _

theorem length_hexLower (b : List UInt8) : (hexLower b).length = 2 * b.length := by
  rw [hexLower, List.length_flatMap]
  simp [Nat.mul_comm]

theorem Identity.length_peerId (identity : Identity F) : identity.peerId.length = 24 := by
  obtain ⟨bytes, -, h⟩ := identity.peerId_eq
  have h32 := (Crates.sha256 F bytes.val).property
  rw [h, peerIdFromPublicKeyBytes, List.length_take, length_hexLower, peerIdHexLen]
  omega

/-! ### Key pairs -/

/-- A key that was encoded is decoded. -/
theorem decodeFixedLenB64_encode (hb : Base64Laws F) {n : Nat} (b : FixedBytes n) (label : Str) :
    decodeFixedLenB64 F (Crates.b64Encode F b.val) n label = .ok b := by
  rw [decodeFixedLenB64, hb.decode_encode]
  dsimp only
  rw [dif_pos b.property]
  rfl

/-- The identity has the two halves of one key pair, in base64. -/
structure Genuine (identity : Identity F) (sk : SigningKey) : Prop where
  privateIs : identity.privateKeyB64 = Crates.b64Encode F sk.val
  publicIs : identity.publicKeyB64 = Crates.b64Encode F (Crates.verifyingKey F sk).val

theorem plain_b64Encode (hb : Base64Laws F) (b : List UInt8) : (Crates.b64Encode F b).Plain :=
  hb.encode_ascii b

/-- The peer id is the fingerprint of the key. -/
theorem Genuine.peerId_eq (hb : Base64Laws F) {identity : Identity F} {sk : SigningKey}
    (h : Genuine identity sk) :
    identity.peerId = peerIdFromPublicKeyBytes F (Crates.verifyingKey F sk).val := by
  obtain ⟨bytes, hbytes, hid⟩ := identity.peerId_eq
  rw [h.publicIs, (plain_b64Encode hb _).cStr_eq, decodeFixedLenB64_encode hb] at hbytes
  rw [hid, ← Except.ok.inj hbytes]

/-- The library reads the two halves of one key pair from the identity. -/
structure KeyPair (identity : Identity F) (sk : SigningKey) : Prop where
  privateScalar : identity.privateKeyB64.isScalar = true
  signing : signingKeyFromB64 F (cStr identity.privateKeyB64) = .ok sk
  publicScalar : identity.publicKeyB64.isScalar = true
  verifying : verifyingKeyFromB64 F (cStr identity.publicKeyB64) = .ok (Crates.verifyingKey F sk)
  peerId : identity.peerId = peerIdFromPublicKeyBytes F (Crates.verifyingKey F sk).val

theorem Genuine.keyPair (hb : Base64Laws F) (hs : SignatureLaws F) {identity : Identity F}
    {sk : SigningKey} (h : Genuine identity sk) : KeyPair identity sk := by
  have hpriv := plain_b64Encode hb sk.val
  have hpub := plain_b64Encode hb (Crates.verifyingKey F sk).val
  refine ⟨?_, ?_, ?_, ?_, h.peerId_eq hb⟩
  · rw [h.privateIs]
    exact hpriv.isScalar
  · rw [h.privateIs, hpriv.cStr_eq]
    exact decodeFixedLenB64_encode hb sk _
  · rw [h.publicIs]
    exact hpub.isScalar
  · rw [h.publicIs, hpub.cStr_eq, verifyingKeyFromB64, decodeFixedLenB64_encode hb]
    dsimp only
    rw [hs.fromBytes]

/-- `generate_identity`, from the key it drew. -/
def Identity.ofKey (hb : Base64Laws F) (sk : SigningKey) : Identity F where
  privateKeyB64 := Crates.b64Encode F sk.val
  publicKeyB64 := Crates.b64Encode F (Crates.verifyingKey F sk).val
  peerId := peerIdFromPublicKeyBytes F (Crates.verifyingKey F sk).val
  valid := by
    have hplain := plain_b64Encode hb (Crates.verifyingKey F sk).val
    obtain ⟨t, ht⟩ := Str.isScalar_iff.mp hplain.isScalar
    refine except_bind_ok.mpr ⟨t, encodeUtf8_ok.mpr ht, ?_⟩
    have hraw : Str.ofText (t.takeWhile (· ≠ '\x00')) =
        Crates.b64Encode F (Crates.verifyingKey F sk).val := by
      rw [Str.ofText_takeWhile, ← ht, hplain.cStr_eq]
    rw [readCStr_ok]
    simp only [bind, Except.bind, hraw, P4.peerIdFromPublicKeyB64,
      decodeFixedLenB64_encode hb]

theorem genuine_ofKey (hb : Base64Laws F) (sk : SigningKey) :
    Genuine (Identity.ofKey hb sk) sk :=
  ⟨rfl, rfl⟩

end

/-! ### Building -/

section

variable {F : Type} [Float64 F] [Crates F]

/-- The call of `_build_message` signed the envelope `env` with the key `sk`; `bytes` is the
canonical text under the signature. -/
structure Signing (identity : Identity F) (call : BuildCall F) (sk : SigningKey)
    (env : Envelope F) (bytes : List UInt8) : Prop where
  key : signingKeyFromB64 F (cStr identity.privateKeyB64) = .ok sk
  version : env.protocolVersion = protocolVersion
  sender : env.senderPeerId = identity.peerId
  recipient : ∃ s, call.toPeerId = .str s ∧ s.isScalar = true ∧ env.recipientPeerId = cStr s
  timestamp : env.timestampMs = call.nowMs
  nonce : env.nonce = tokenHex call.random
  payload : Crates.valueFromStr (Json.dumpsCompact (.obj call.payload)) = .ok env.payload
  jcs : Crates.jcsToVec env.signable = .ok bytes
  signature : env.signatureB64 = Crates.b64Encode F (Crates.sign F sk bytes).val

/-- A message that was built is the dictionary that Python reads of a signed envelope. -/
theorem buildMessage_ok {identity : Identity F} {call : BuildCall F} {v : Json F} :
    buildMessage identity call.toPeerId call.payload call.random call.nowMs = .ok v ↔
      identity.privateKeyB64.isScalar = true ∧ ∃ sk env bytes text,
        Signing identity call sk env bytes ∧ Crates.envelopeToString env = .ok text ∧
        '\x00' ∉ text ∧ Json.loads text = some v := by
  -- the peer id and the nonce are plain text, which crosses the boundary as it is
  have hsender := identity.plain_peerId
  have hnonce := plain_tokenHex call.random
  constructor
  · intro h
    unfold buildMessage at h
    split at h
    · rename_i toPeerId hto
      split at h
      · cases h
      · obtain ⟨⟨hpriv, -, hrec, -⟩, sk, w, env, text, hsk, hw, henv, htext, hnul, hload⟩ :=
          P4Core.signEnvelope_ok.mp h
        rw [hsender.cStr_eq, hnonce.cStr_eq, cUint64_toNat] at henv
        obtain ⟨bytes, hjcs, rfl⟩ := signEnvelope_ok.mp henv
        exact ⟨hpriv, sk, _, bytes, text,
          ⟨hsk, rfl, rfl, ⟨toPeerId, hto, hrec, rfl⟩, rfl, rfl, hw, hjcs, rfl⟩, htext, hnul, hload⟩
    · cases h
  · rintro ⟨hpriv, sk, env, bytes, text, hs, htext, hnul, hload⟩
    obtain ⟨toPeerId, hto, hrec, hrecipient⟩ := hs.recipient
    have henv : P4.signEnvelope sk (cStr identity.peerId) (cStr toPeerId)
        (cUint64 (call.nowMs.toNat : Int)) (cStr (tokenHex call.random)) env.payload
          = .ok env := by
      rw [hsender.cStr_eq, hnonce.cStr_eq, cUint64_toNat]
      refine signEnvelope_ok.mpr ⟨bytes, hs.jcs, ?_⟩
      rw [← hs.version, ← hs.sender, ← hrecipient, ← hs.timestamp, ← hs.nonce, ← hs.signature]
    have hsign := P4Core.signEnvelope_ok.mpr ⟨⟨hpriv, hsender.isScalar, hrec, hnonce.isScalar⟩,
      sk, env.payload, env, text, hs.key, hs.payload, henv, htext, hnul, hload⟩
    unfold buildMessage
    rw [hto]
    dsimp only
    rw [hsign]

end

end P4

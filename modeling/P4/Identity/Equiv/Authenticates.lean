/-
  Whether a loaded identity can authenticate itself.

  `load_or_create` compares the peer id of the file with its public key and looks no further:
  the private key may belong to another pair, or be no key at all.  The node then starts, and
  its peers reject every message.  `loaded_authenticates_iff` says for each message when it is
  built and accepted.
-/
import P4.Core.Equiv.Payload
import P4.Identity.Equiv.Continuity
import P4.Node.Equiv.Delivery
import P4.Node.Equiv.Origin

namespace P4

variable {F : Type} [Float64 F] [Crates F]

/-! ### Keys -/

variable (F) in
/-- `VerifyingKey::from_bytes` keeps the bytes it is given. -/
def KeepsKeyBytes : Prop :=
  ∀ (b : FixedBytes 32) (K : VerifyingKey), Crates.verifyingKeyFromBytes F b = .ok K → K = b

omit [Float64 F] in
/-- A key that was read is the bytes that were decoded. -/
theorem decodeFixedLenB64_of_verifyingKeyFromB64 (hkeeps : KeepsKeyBytes F) {text : Str}
    {K : VerifyingKey} (h : verifyingKeyFromB64 F text = .ok K) :
    decodeFixedLenB64 F text 32 (Str.lit "public key") = .ok K := by
  unfold verifyingKeyFromB64 at h
  split at h
  · cases h
  · rename_i bytes hbytes
    split at h
    · cases h
    · rename_i key hkey
      rw [← Except.ok.inj h, hkeeps bytes key hkey]
      exact hbytes

omit [Float64 F] in
/-- An identity with the two halves of a key pair has the peer id of the public one. -/
theorem KeyPair.of_keys (hkeeps : KeepsKeyBytes F) {S : Identity F} {sk : SigningKey}
    (hscalar : S.privateKeyB64.isScalar = true)
    (hsigning : signingKeyFromB64 F (cStr S.privateKeyB64) = .ok sk)
    (hverifying : verifyingKeyFromB64 F (cStr S.publicKeyB64) = .ok (Crates.verifyingKey F sk)) :
    KeyPair S sk := by
  obtain ⟨t, ht, -⟩ := except_bind_ok.mp S.valid
  have hpublic : S.publicKeyB64.isScalar = true := by
    rw [encodeUtf8_ok.mp ht]
    exact Str.isScalar_ofText t
  obtain ⟨bytes, hbytes, hid⟩ := S.peerId_eq
  rw [decodeFixedLenB64_of_verifyingKeyFromB64 hkeeps hverifying] at hbytes
  refine ⟨hscalar, hsigning, hpublic, hverifying, ?_⟩
  rw [hid, ← Except.ok.inj hbytes]

/-! ### Envelopes -/

omit [Crates F] in
/-- A dictionary is that of one envelope, when its payload is read as it is. -/
theorem EnvelopeOf.eq_of_toDict {env env' : Envelope F} (h : EnvelopeOf env.toDict env')
    (hstable : env.payload.readBack = some env.payload) : env' = env := by
  have hversion := Int.ofNat.inj (Json.int.inj (Option.some.inj h.protocolVersion))
  have hsender := Json.str.inj (Option.some.inj h.senderPeerId)
  have hrecipient := Json.str.inj (Option.some.inj h.recipientPeerId)
  have hts := Int.ofNat.inj (Json.int.inj (Option.some.inj h.timestampMs))
  have hnonce := Json.str.inj (Option.some.inj h.nonce)
  have hsignature := Json.str.inj (Option.some.inj h.signatureB64)
  obtain ⟨p, hp, hread⟩ := h.payload
  rw [← Option.some.inj hp, hstable] at hread
  have hpayload := Option.some.inj hread
  cases env
  cases env'
  rw [Envelope.mk.injEq]
  exact ⟨(UInt32.toNat_inj.mp hversion).symm, hsender.symm, hrecipient.symm,
    (UInt64.toNat_inj.mp hts).symm, hnonce.symm, hpayload.symm, hsignature.symm⟩

omit [Crates F] in
theorem envelopeOf_toDict {env : Envelope F} (h : env.payload.readBack = some env.payload) :
    EnvelopeOf env.toDict env :=
  ⟨rfl, rfl, rfl, rfl, rfl, ⟨env.payload, rfl, h⟩, rfl⟩

/-! ### Messages of a node -/

/-- What a call signs, by its arguments. -/
theorem Signing.signs? {S : Identity F} {call : BuildCall F} {sk : SigningKey} {env : Envelope F}
    {bytes : List UInt8} (hs : Signing S call sk env bytes) {recipient : Str}
    (hto : call.toPeerId = .str recipient) :
    P4Core.signs? S.privateKeyB64 S.peerId recipient (.obj call.payload) (tokenHex call.random)
      call.nowMs.toNat = some (Crates.verifyingKey F sk, bytes) := by
  obtain ⟨s, hto', -, hrecipient⟩ := hs.recipient
  rw [hto] at hto'
  cases hto'
  have hjcs : Crates.jcsToVec (SignableEnvelope.mk protocolVersion S.peerId (cStr recipient)
      call.nowMs (tokenHex call.random) env.payload) = .ok bytes := by
    rw [← hs.version, ← hs.sender, ← hrecipient, ← hs.timestamp, ← hs.nonce]
    exact hs.jcs
  simp only [P4Core.signs?, hs.key, hs.payload, S.plain_peerId.cStr_eq,
    (plain_tokenHex call.random).cStr_eq, cUint64_toNat, hjcs]

omit [Crates F] in
/-- A payload of strings is read only when all of them are Rust strings. -/
theorem scalar_of_readBack_textMembers {payload : List (Str × Str)} {w : Json F}
    (h : (Json.obj (textMembers (F := F) payload)).readBack = some w) :
    ∀ kv ∈ payload, kv.1.isScalar = true ∧ kv.2.isScalar = true := by
  have hnodes : (Json.obj (textMembers (F := F) payload)).allNodes Json.serdeNode = true := by
    rw [Json.readBack] at h
    split_ifs at h with hn
    exact hn
  rw [Json.allNodes_obj] at hnodes
  obtain ⟨hkeys, hvalues⟩ := hnodes
  have hkeys' : (Dict.keys (textMembers (F := F) payload)).all Str.isScalar = true := hkeys
  rw [keys_textMembers, List.all_eq_true] at hkeys'
  exact fun kv hkv => ⟨hkeys' _ (List.mem_map_of_mem hkv), hvalues _ (List.mem_map_of_mem hkv)⟩

/-- The message is built by the node, and accepted under its public key at the time of its
timestamp. -/
def Identity.Authenticates (S : Identity F) (recipient : Str) (payload : Members F)
    (random : FixedBytes 16) (nowMs : UInt64) (maxSkewMs : Int) : Prop :=
  ∃ m, buildMessage S (.str recipient) payload random nowMs = .ok (.obj m) ∧
    P4Core.verifyEnvelope m S.publicKeyB64 maxSkewMs nowMs.toNat = .ok ()

/-- A node with a key pair authenticates itself. -/
theorem KeyPair.authenticates (hl : CrateLaws F) {S : Identity F} {sk : SigningKey}
    (hS : KeyPair S sk) {recipient : Str} (hrecipient : recipient.isScalar = true)
    {payload : List (Str × Str)}
    (hwf : (Json.obj (textMembers (F := F) payload)).wellFormed = true)
    (hscalar : ∀ kv ∈ payload, kv.1.isScalar = true ∧ kv.2.isScalar = true)
    (random : FixedBytes 16) (nowMs : UInt64) (maxSkewMs : Int) :
    S.Authenticates recipient (textMembers payload) random nowMs maxSkewMs := by
  have hread := readBack_textMembers (F := F) hscalar
  have hdepth := depth_textMembers (F := F) payload
  obtain ⟨env, bytes, hs, hpayload, hreadable, hbuild⟩ := hS.builds hl
    ⟨.str recipient, textMembers payload, random, nowMs⟩ rfl hrecipient hwf hread
    (Nat.le_trans hdepth (by decide))
  have hstable : env.payload.readBack = some env.payload := by
    rw [hpayload]
    exact Json.readBack_readBack (numberFree_textMembers payload) hread
  have hdepth' : env.payload.depth + 1 ≤ serdeDepth := by
    rw [hpayload]
    exact Nat.le_trans (Nat.succ_le_succ (Json.depth_canon_le hdepth)) (by decide)
  exact ⟨env.toDict, hbuild, hs.accepts hl hS hreadable (wellFormed_toDict hreadable)
    (env.depth_toDict.trans_le hdepth') (fun k hk => hk) (envelopeOf_toDict hstable)
    ⟨Nat.le_add_right _ _, Nat.le_add_right _ _⟩⟩

/-- The signature of the message is accepted under no key but its own. -/
def SignatureBound (privateKeyB64 peerId recipient : Str) (payload : Members F)
    (random : FixedBytes 16) (nowMs : UInt64) : Prop :=
  ∀ (sk : SigningKey) (bytes : List UInt8) (K : VerifyingKey),
    P4Core.signs? privateKeyB64 peerId recipient (.obj payload) (tokenHex random) nowMs.toNat =
      some (Crates.verifyingKey F sk, bytes) →
    Crates.verify F K bytes (Crates.sign F sk bytes) = true → K = Crates.verifyingKey F sk

/-- Only a node with a key pair authenticates itself. -/
theorem Identity.Authenticates.keyPair (hl : CrateLaws F) (hserde : SerdeReads F)
    (hkeeps : KeepsKeyBytes F) {S : Identity F} {recipient : Str} {payload : List (Str × Str)}
    (hwf : (Json.obj (textMembers (F := F) payload)).wellFormed = true)
    {random : FixedBytes 16} {nowMs : UInt64} {maxSkewMs : Int}
    (hbound : SignatureBound (F := F) S.privateKeyB64 S.peerId recipient (textMembers payload)
      random nowMs)
    (h : S.Authenticates recipient (textMembers payload) random nowMs maxSkewMs) :
    (∃ sk, KeyPair S sk) ∧ recipient.isScalar = true ∧
      ∀ kv ∈ payload, kv.1.isScalar = true ∧ kv.2.isScalar = true := by
  obtain ⟨m, hbuild, hverify⟩ := h
  let call : BuildCall F := ⟨.str recipient, textMembers payload, random, nowMs⟩
  have hbuild' : buildMessage S call.toPeerId call.payload call.random call.nowMs =
      .ok (.obj m) := hbuild
  obtain ⟨hprivate, -⟩ := buildMessage_ok.mp hbuild'
  obtain ⟨sk, env, bytes, hs, hreadable, hm⟩ :=
    buildMessage_toDict hserde hl.writes hl.base64 hwf hbuild'
  cases hm
  have hread := hserde.value _ _ hwf hs.payload
  have hstable : env.payload.readBack = some env.payload :=
    Json.readBack_readBack (numberFree_textMembers payload) hread
  -- the envelope that is verified is the one that was signed
  obtain ⟨-, env', K, henv, hK, hver⟩ := P4Core.verifyEnvelope_ok.mp hverify
  have hsame := (hserde.envelope _ env' (wellFormed_toDict hreadable) henv).eq_of_toDict hstable
  rw [hsame] at hver
  obtain ⟨-, -, -, canonical, hcan, sig, hsig, haccepts⟩ := P4.verifyEnvelope_ok.mp hver
  have hbytes : canonical = bytes := by
    rw [hs.jcs] at hcan
    exact (Except.ok.inj hcan).symm
  have hsignature : sig = Crates.sign F sk bytes := by
    rw [hs.signature, hl.base64.decode_encode] at hsig
    exact Subtype.ext (Except.ok.inj hsig).symm
  rw [hbytes, hsignature] at haccepts
  rw [hbound sk bytes K (hs.signs? rfl) haccepts] at hK
  obtain ⟨s, hto, hscalar, -⟩ := hs.recipient
  cases hto
  exact ⟨⟨sk, KeyPair.of_keys hkeeps hprivate hs.key hK⟩, hscalar,
    scalar_of_readBack_textMembers hread⟩

/-! ### Loaded identities -/

/-- The message is built, and accepted under the public key of the identity at the time of its
timestamp. -/
def IdentityData.Authenticates (identity : IdentityData F) (recipient : Str)
    (payload : Members F) (random : FixedBytes 16) (nowMs : UInt64) (maxSkewMs : Int) : Prop :=
  ∃ m key, identity.buildMessage (.str recipient) payload random nowMs = .ok (.obj m) ∧
    identity.publicKeyB64 = .str key ∧
    P4Core.verifyEnvelope m key maxSkewMs nowMs.toNat = .ok ()

/-- The private key is a string that is the other half of the public key. -/
def IdentityData.Matching (identity : IdentityData F) : Prop :=
  ∃ privateKey publicKey sk, identity.privateKeyB64 = .str privateKey ∧
    identity.publicKeyB64 = .str publicKey ∧ privateKey.isScalar = true ∧
    signingKeyFromB64 F (cStr privateKey) = .ok sk ∧
    verifyingKeyFromB64 F (cStr publicKey) = .ok (Crates.verifyingKey F sk)

/-- What was loaded has a string for its public key and the peer id of that key. -/
theorem loadIdentity_ok {text : Text} {identity : IdentityData F}
    (h : loadIdentity text = .ok identity) :
    ∃ publicKey peerId, identity.publicKeyB64 = .str publicKey ∧ identity.peerId = .str peerId ∧
      P4Core.peerIdFromPublicKeyB64 F publicKey = .ok peerId := by
  unfold loadIdentity at h
  split at h
  · cases h
  · obtain ⟨i, -, h⟩ := except_bind_ok.mp h
    obtain ⟨expected, hexpected, h⟩ := except_bind_ok.mp h
    split at h
    · rename_i p hp
      split_ifs at h with heq
      cases h
      rw [← heq] at hexpected
      unfold peerIdOf at hexpected
      split at hexpected
      · rename_i key hkey
        exact ⟨key, p, hkey, hp, hexpected⟩
      · cases hexpected
    · cases h

/-- With a string for its private key it is the identity of a node. -/
theorem exists_identity_of_loadIdentity {text : Text} {identity : IdentityData F}
    (h : loadIdentity text = .ok identity) {privateKey : Str}
    (hprivate : identity.privateKeyB64 = .str privateKey) :
    ∃ S : Identity F, S.privateKeyB64 = privateKey ∧
      identity = .ofStrings S.privateKeyB64 S.publicKeyB64 S.peerId := by
  obtain ⟨publicKey, peerId, hpublic, hpeerId, hvalid⟩ := loadIdentity_ok h
  refine ⟨⟨privateKey, publicKey, peerId, hvalid⟩, rfl, ?_⟩
  cases identity
  cases hprivate
  cases hpublic
  cases hpeerId
  rfl

/-- A message that was built has a string for the private key. -/
theorem IdentityData.privateKeyB64_of_buildMessage {identity : IdentityData F}
    {toPeerId v : Json F} {payload : Members F} {random : FixedBytes 16} {nowMs : UInt64}
    (h : identity.buildMessage toPeerId payload random nowMs = .ok v) :
    ∃ privateKey, identity.privateKeyB64 = .str privateKey := by
  unfold buildMessage at h
  split at h
  · rename_i privateKey _ _ hprivate _
    exact ⟨privateKey, hprivate⟩
  · cases h

/-- An identity file with strings in it behaves as the identity. -/
theorem IdentityData.authenticates_ofStrings {S : Identity F} {recipient : Str}
    {payload : Members F} {random : FixedBytes 16} {nowMs : UInt64} {maxSkewMs : Int} :
    (IdentityData.ofStrings S.privateKeyB64 S.publicKeyB64 S.peerId).Authenticates recipient
      payload random nowMs maxSkewMs ↔
      S.Authenticates recipient payload random nowMs maxSkewMs := by
  constructor
  · rintro ⟨m, key, hbuild, hkey, hverify⟩
    cases hkey
    exact ⟨m, hbuild, hverify⟩
  · rintro ⟨m, hbuild, hverify⟩
    exact ⟨m, S.publicKeyB64, hbuild, rfl, hverify⟩

/-- A message of strings under a loaded identity is built and accepted exactly when the private
key of the file belongs to its public key, and the texts of the message are Rust strings.

With a matching key the message goes through as one of a generated identity.  Conversely a message
that verified was signed with the key that belongs to the public one. -/
theorem loaded_authenticates_iff (hl : CrateLaws F) (hserde : SerdeReads F)
    (hkeeps : KeepsKeyBytes F) {text : Text} {identity : IdentityData F}
    (hload : loadIdentity text = .ok identity) (recipient : Str) {payload : List (Str × Str)}
    (hwf : (Json.obj (textMembers (F := F) payload)).wellFormed = true)
    (random : FixedBytes 16) (nowMs : UInt64) (maxSkewMs : Int)
    (hbound : ∀ privateKey peerId, identity.privateKeyB64 = .str privateKey →
      identity.peerId = .str peerId →
      SignatureBound (F := F) privateKey peerId recipient (textMembers payload) random nowMs) :
    identity.Authenticates recipient (textMembers payload) random nowMs maxSkewMs ↔
      identity.Matching ∧ recipient.isScalar = true ∧
        ∀ kv ∈ payload, kv.1.isScalar = true ∧ kv.2.isScalar = true := by
  constructor
  · intro h
    have hbuilt := h
    obtain ⟨m, key, hbuild, -⟩ := hbuilt
    obtain ⟨privateKey, hprivate⟩ := IdentityData.privateKeyB64_of_buildMessage hbuild
    obtain ⟨S, rfl, rfl⟩ := exists_identity_of_loadIdentity hload hprivate
    obtain ⟨⟨sk, hpair⟩, htexts⟩ := Identity.Authenticates.keyPair hl hserde hkeeps hwf
      (hbound _ _ rfl rfl) (IdentityData.authenticates_ofStrings.mp h)
    exact ⟨⟨_, _, sk, rfl, rfl, hpair.privateScalar, hpair.signing, hpair.verifying⟩, htexts⟩
  · rintro ⟨⟨privateKey, publicKey, sk, hprivate, hpublic, hscalar, hsigning, hverifying⟩,
      hrecipient, htexts⟩
    obtain ⟨S, rfl, rfl⟩ := exists_identity_of_loadIdentity hload hprivate
    cases hpublic
    have hpair : KeyPair S sk := KeyPair.of_keys hkeeps hscalar hsigning hverifying
    exact IdentityData.authenticates_ofStrings.mpr
      (hpair.authenticates hl hrecipient hwf htexts random nowMs maxSkewMs)

/-! ### Samples -/

namespace Sample

theorem keepsKeyBytes : KeepsKeyBytes Empty :=
  fun _ _ h => (Except.ok.inj h).symm

/-- A signature names the key that made it. -/
theorem signatureBound (privateKeyB64 peerId recipient : Str) (payload : Members Empty)
    (random : FixedBytes 16) (nowMs : UInt64) :
    SignatureBound privateKeyB64 peerId recipient payload random nowMs := by
  intro sk bytes K _ hverify
  have heq : signature (verifyingKey sk) bytes = signature K bytes := of_decide_eq_true hverify
  have hval : (verifyingKey sk).val ++ (fit 32 bytes).val = K.val ++ (fit 32 bytes).val :=
    congrArg Subtype.val heq
  exact Subtype.ext (List.append_cancel_right hval).symm

theorem keyPair (n : UInt8) : KeyPair (identity n) (key n) :=
  (genuine_ofKey base64Laws (key n)).keyPair base64Laws crateLaws.signature

/-- The file of an identity with the private key of `k` and the public key of `n`. -/
def mixedFile (k n : UInt8) : Text :=
  identityText (F := Empty) (.ofStrings (identity k).privateKeyB64 (identity n).publicKeyB64
    (identity n).peerId)

theorem loadIdentity_mixedFile (k n : UInt8) : loadIdentity (F := Empty) (mixedFile k n) =
    .ok (.ofStrings (identity k).privateKeyB64 (identity n).publicKeyB64 (identity n).peerId) :=
  settled_ofStrings (plain_b64Encode base64Laws _) (plain_b64Encode base64Laws _)
    (identity n).plain_peerId (identity n).valid

end Sample

/-- A file with the private key of another pair is loaded, and no message of the identity is
accepted under its public key. -/
theorem foreign_private_key_loads : ∃ (text : Text) (identity : IdentityData Empty),
    loadIdentity text = .ok identity ∧
    ∀ (recipient : Str) (random : FixedBytes 16) (nowMs : UInt64) (maxSkewMs : Int),
      ¬ identity.Authenticates recipient (textMembers []) random nowMs maxSkewMs := by
  refine ⟨_, _, Sample.loadIdentity_mixedFile 3 1, ?_⟩
  intro recipient random nowMs maxSkewMs h
  let S : Identity Empty := { Sample.identity 1 with
    privateKeyB64 := (Sample.identity 3).privateKeyB64 }
  have hS : S.Authenticates recipient (textMembers []) random nowMs maxSkewMs :=
    IdentityData.authenticates_ofStrings.mp h
  have hwf : (Json.obj (textMembers (F := Empty) [])).wellFormed = true := rfl
  obtain ⟨⟨sk, hpair⟩, -⟩ := Identity.Authenticates.keyPair Sample.crateLaws Sample.serdeReads
    Sample.keepsKeyBytes hwf (Sample.signatureBound _ _ _ _ _ _) hS
  -- the peer id is that of the first key, and the private key is the third
  have hsk : signingKeyFromB64 Empty (cStr (Sample.identity 3).privateKeyB64) = .ok sk :=
    hpair.signing
  rw [(Sample.keyPair 3).signing] at hsk
  cases hsk
  exact absurd hpair.peerId (by decide +kernel)

theorem loaded_authenticates_iff_sample : ∃ identity : IdentityData Empty,
    loadIdentity (Sample.mixedFile 1 1) = .ok identity ∧
    identity.Authenticates (Sample.identity 2).peerId
      (textMembers [(Field.type, Sample.awkward)]) (Sample.random 3) 1000 0 := by
  have hpair := Sample.keyPair 1
  refine ⟨_, Sample.loadIdentity_mixedFile 1 1, ?_⟩
  exact (loaded_authenticates_iff Sample.crateLaws Sample.serdeReads Sample.keepsKeyBytes
    (Sample.loadIdentity_mixedFile 1 1) _ (by decide +kernel) _ _ _
    fun _ _ _ _ => Sample.signatureBound _ _ _ _ _ _).mpr
      ⟨⟨_, _, Sample.key 1, rfl, rfl, hpair.privateScalar, hpair.signing, hpair.verifying⟩,
        by decide +kernel, by decide +kernel⟩

end P4

/-
  An envelope that the C ABI signed, given back to it.

  `p4_sign_envelope_json` reads the payload on its own and `p4_verify_envelope_json` reads it
  inside the envelope, one level deeper, so a payload that is nested as deep as `serde_json`
  allows is signed and cannot be verified.  Every other one can (`verify_signed_iff`).
-/
import P4.Core.Equiv.Binding
import P4.Core.Equiv.ReadBack
import P4.Core.Laws
import P4.Node.Equiv.Build
import P4.Sample.Equiv.Laws

namespace P4

section

variable {F : Type} [Crates F]

/-- The texts that come from C, and base64, are Rust strings. -/
theorem scalars_signed (hb : Base64Laws F) {sk : SigningKey} {sender recipient nonce : Text}
    {ts : UInt64} {w : Json F} {env : Envelope F}
    (h : signEnvelope sk (cStr (Str.ofText sender)) (cStr (Str.ofText recipient)) ts
      (cStr (Str.ofText nonce)) w = .ok env) : env.scalars = true := by
  obtain ⟨canonical, -, rfl⟩ := signEnvelope_ok.mp h
  have hsig := (plain_b64Encode hb (Crates.sign F sk canonical).val).isScalar
  have hscalar : ∀ t : Text, (cStr (Str.ofText t)).isScalar = true := by
    intro t
    rw [← Str.ofText_takeWhile]
    exact Str.isScalar_ofText _
  rw [Envelope.scalars, hscalar, hscalar, hscalar, hsig]
  rfl

/-- What the library signed it verifies, when it is given the envelope itself. -/
theorem verifyEnvelope_signed (hb : Base64Laws F) (hlaws : SignatureLaws F) {sk : SigningKey}
    {recipient nonce : Str} {ts now skew : UInt64} {w : Json F} {env : Envelope F}
    (h : signEnvelope sk (peerIdFromPublicKeyBytes F (Crates.verifyingKey F sk).val) recipient ts
      nonce w = .ok env)
    (hskew : now.toNat ≤ ts.toNat + skew.toNat ∧ ts.toNat ≤ now.toNat + skew.toNat) :
    verifyEnvelope env (Crates.verifyingKey F sk) now skew = .ok () := by
  obtain ⟨canonical, hcan, rfl⟩ := signEnvelope_ok.mp h
  refine verifyEnvelope_ok.mpr ⟨rfl, rfl, outsideSkew_eq_false.mpr hskew, canonical, hcan,
    Crates.sign F sk canonical, hb.decode_encode _, hlaws.verify_sign sk canonical⟩

/-- The freshness test, as a distance of integers. -/
theorem outsideSkew_eq_true {ts now skew : UInt64} : outsideSkew ts now skew = true ↔
    (skew.toNat : Int) < |(ts.toNat : Int) - now.toNat| := by
  rw [← Bool.not_eq_false, outsideSkew_eq_false, lt_abs]
  constructor
  · intro h
    by_contra hno
    apply h
    omega
  · intro h hle
    omega

/-- What `verify_envelope` says of the result of `sign_envelope`, under the matching key: it
accepts exactly the own peer id within the skew, and names what is wrong otherwise.

The version and the signature are right by construction, so only the comparison of the peer ids and
then that of the clocks are left, in this order. -/
theorem verifyEnvelope_signed_exact (hb : Base64Laws F) (hlaws : SignatureLaws F)
    (sk : SigningKey) (sender recipient nonce : Str) (payload : Json F) (ts now skew : UInt64)
    (hcanonical : ∃ bytes, Crates.jcsToVec (F := F)
      { protocolVersion := protocolVersion
        senderPeerId := sender
        recipientPeerId := recipient
        timestampMs := ts
        nonce := nonce
        payload := payload } = .ok bytes) :
    ∃ env, signEnvelope sk sender recipient ts nonce payload = .ok env ∧
      (verifyEnvelope env (Crates.verifyingKey F sk) now skew = .ok () ↔
        sender = peerIdFromPublicKeyBytes F (Crates.verifyingKey F sk).val ∧
          |(ts.toNat : Int) - now.toNat| ≤ skew.toNat) ∧
      (sender ≠ peerIdFromPublicKeyBytes F (Crates.verifyingKey F sk).val →
        verifyEnvelope env (Crates.verifyingKey F sk) now skew = .error (.peerIdMismatch
          (peerIdFromPublicKeyBytes F (Crates.verifyingKey F sk).val) sender)) ∧
      (sender = peerIdFromPublicKeyBytes F (Crates.verifyingKey F sk).val →
        (skew.toNat : Int) < |(ts.toNat : Int) - now.toNat| →
        verifyEnvelope env (Crates.verifyingKey F sk) now skew =
          .error .timestampSkewExceeded) := by
  obtain ⟨bytes, hbytes⟩ := hcanonical
  obtain ⟨env, henv⟩ : ∃ env, signEnvelope sk sender recipient ts nonce payload = .ok env := by
    rw [signEnvelope, hbytes]
    exact ⟨_, rfl⟩
  obtain ⟨hversion, hsender, hts⟩ : env.protocolVersion = protocolVersion ∧
      env.senderPeerId = sender ∧ env.timestampMs = ts := by
    obtain ⟨canonical, -, rfl⟩ := signEnvelope_ok.mp henv
    exact ⟨rfl, rfl, rfl⟩
  -- the peer id is compared before the timestamp
  have hmismatch : sender ≠ peerIdFromPublicKeyBytes F (Crates.verifyingKey F sk).val →
      verifyEnvelope env (Crates.verifyingKey F sk) now skew = .error (.peerIdMismatch
        (peerIdFromPublicKeyBytes F (Crates.verifyingKey F sk).val) sender) := by
    intro hne
    rw [verifyEnvelope, if_neg (not_not.mpr hversion), hsender]
    exact if_pos hne
  have hlate : sender = peerIdFromPublicKeyBytes F (Crates.verifyingKey F sk).val →
      (skew.toNat : Int) < |(ts.toNat : Int) - now.toNat| →
      verifyEnvelope env (Crates.verifyingKey F sk) now skew = .error .timestampSkewExceeded := by
    intro heq hfar
    rw [verifyEnvelope, if_neg (not_not.mpr hversion), hsender, hts]
    dsimp only
    rw [if_neg (not_not.mpr heq), if_pos (outsideSkew_eq_true.mpr hfar)]
  refine ⟨env, henv, ⟨fun hok => ?_, ?_⟩, hmismatch, hlate⟩
  · -- accepted, so neither of the two errors
    have heq : sender = peerIdFromPublicKeyBytes F (Crates.verifyingKey F sk).val := by
      by_contra hne
      rw [hmismatch hne] at hok
      cases hok
    refine ⟨heq, ?_⟩
    by_contra hfar
    rw [hlate heq (not_le.mp hfar)] at hok
    cases hok
  · rintro ⟨rfl, hnear⟩
    refine verifyEnvelope_signed hb hlaws henv ?_
    rw [abs_le] at hnear
    omega

/-- What `p4_sign_envelope_json` returns for the sender's own key, `p4_verify_envelope_json`
accepts within the skew exactly when the payload leaves one level of nesting for the
envelope.

The text crosses the boundary whole, so the depth of the envelope, one more than that of the
payload, decides whether it is read; what is read is what was signed. -/
theorem verify_signed_iff (hround : SerdeRoundTrip F) (hb : Base64Laws F)
    (hlaws : SignatureLaws F) {priv sender recipient payload nonce text key : Text}
    {ts now skew : UInt64} {sk : SigningKey} {w : Json F}
    (hsign : captured (signEnvelopeJson F (some priv) (some sender) (some recipient)
      (some payload) ts (some nonce)) = .ok text)
    (hsk : signingKeyFromB64 F (cStr (Str.ofText priv)) = .ok sk)
    (hsender : cStr (Str.ofText sender) =
      peerIdFromPublicKeyBytes F (Crates.verifyingKey F sk).val)
    (hkey : verifyingKeyFromB64 F (cStr (Str.ofText key)) = .ok (Crates.verifyingKey F sk))
    (hw : Crates.valueFromStr (payload.takeWhile (· ≠ '\x00')) = .ok w)
    (hint : w.integral = true)
    (hskew : now.toNat ≤ ts.toNat + skew.toNat ∧ ts.toNat ≤ now.toNat + skew.toNat) :
    verifyEnvelopeJson F (some text) (some key) now skew = .ok () ↔ w.depth < serdeDepth := by
  obtain ⟨hbody, hnul⟩ := captured_ok.mp hsign
  obtain ⟨sk', w', env, hsk', hw', henv, htext⟩ := signEnvelopeJson_ok.mp hbody
  rw [hsk] at hsk'
  cases hsk'
  rw [hw] at hw'
  cases hw'
  have hscalars := scalars_signed hb henv
  have hpayload : env.payload = w := by
    obtain ⟨canonical, -, heq⟩ := signEnvelope_ok.mp henv
    rw [heq]
  rw [hsender] at henv
  have hread : Crates.valueFromStr (payload.takeWhile (· ≠ '\x00')) = .ok env.payload := by
    rw [hpayload]
    exact hw
  have hint' : env.payload.integral = true := by
    rw [hpayload]
    exact hint
  -- the text has no NUL, so it crosses the boundary whole
  have hwhole : text.takeWhile (· ≠ '\x00') = text := by
    rw [List.takeWhile_eq_self_iff]
    intro c hc
    refine decide_eq_true ?_
    rintro rfl
    exact hnul hc
  rw [verifyEnvelopeJson_ok, hwhole]
  -- the envelope's dictionary is one level deeper than its payload
  constructor
  · rintro ⟨env', K, hparse, -⟩
    by_contra hdeep
    have hdepth : serdeDepth < (Json.obj env.toDict).depth := by
      rw [Envelope.depth_toDict, hpayload]
      omega
    obtain ⟨e, he⟩ := hround.rejects env _ text hread hint' hscalars htext hdepth
    rw [he] at hparse
    cases hparse
  · intro hshallow
    have hdepth : (Json.obj env.toDict).depth ≤ serdeDepth := by
      rw [Envelope.depth_toDict, hpayload]
      exact hshallow
    exact ⟨env, _, hround.undoes env _ text hread hint' hscalars htext hdepth, hkey,
      verifyEnvelope_signed hb hlaws henv hskew⟩

end

/-! ### The deepest payload -/

namespace Sample

/-- Arrays nested `n` deep. -/
def nestedText (n : Nat) : Text := List.replicate n '[' ++ List.replicate n ']'

/-- The text of a string that a node passes to the library. -/
def passed (s : Str) : Text := s.toText?.getD []

/-- `p4_sign_envelope_json` for the first identity, with this payload. -/
def signedText (payload : Text) : Except Str Text :=
  captured (signEnvelopeJson Empty (some (passed (identity 1).privateKeyB64))
    (some (passed (identity 1).peerId)) (some (passed (identity 2).peerId)) (some payload) 1000
    (some ['n']))

/-- What is checked of a payload by evaluating the calls: it has no fractions and is signed, and
`accepted` says whether the result is verified. -/
def verifiedIs (accepted : Bool) (payload : Text) : Bool :=
  match signedText payload, valueFromStr (F := Empty) (payload.takeWhile (· ≠ '\x00')) with
  | .ok text, .ok w => w.integral && accepted == (verifyEnvelopeJson Empty (some text)
      (some (passed (identity 1).publicKeyB64)) 1000 0).isOk
  | _, _ => false

theorem verifiedIs_spec {accepted : Bool} {payload : Text}
    (h : verifiedIs accepted payload = true) :
    ∃ text w, signedText payload = .ok text ∧
      Crates.valueFromStr (F := Empty) (payload.takeWhile (· ≠ '\x00')) = .ok w ∧
      w.integral = true ∧ (verifyEnvelopeJson Empty (some text)
        (some (passed (identity 1).publicKeyB64)) 1000 0).isOk = accepted := by
  unfold verifiedIs at h
  split at h
  · rename_i text w htext hw
    rw [Bool.and_eq_true, beq_iff_eq] at h
    exact ⟨text, w, htext, hw, h.1, h.2.symm⟩
  · cases h

theorem cStr_passed {s : Str} (h : s.Plain) : cStr (Str.ofText (passed s)) = s := by
  obtain ⟨t, rfl⟩ := Str.isScalar_iff.mp h.isScalar
  rw [passed, Str.toText?_ofText, Option.getD_some, h.cStr_eq]

theorem signingKey_passed :
    signingKeyFromB64 Empty (cStr (Str.ofText (passed (identity 1).privateKeyB64))) =
      .ok (key 1) := by
  have hplain := plain_b64Encode (F := Empty) base64Laws (key 1).val
  show signingKeyFromB64 Empty (cStr (Str.ofText (passed (Crates.b64Encode Empty (key 1).val)))) = _
  rw [cStr_passed hplain]
  exact decodeFixedLenB64_encode base64Laws (key 1) _

theorem sender_passed : cStr (Str.ofText (passed (identity 1).peerId)) =
    peerIdFromPublicKeyBytes Empty (Crates.verifyingKey Empty (key 1)).val := by
  rw [cStr_passed (Identity.plain_peerId _)]
  rfl

theorem verifyingKey_passed :
    verifyingKeyFromB64 Empty (cStr (Str.ofText (passed (identity 1).publicKeyB64))) =
      .ok (Crates.verifyingKey Empty (key 1)) := by
  have hplain := plain_b64Encode (F := Empty) base64Laws (Crates.verifyingKey Empty (key 1)).val
  show verifyingKeyFromB64 Empty (cStr (Str.ofText (passed
    (Crates.b64Encode Empty (Crates.verifyingKey Empty (key 1)).val)))) = _
  rw [cStr_passed hplain, verifyingKeyFromB64, decodeFixedLenB64_encode base64Laws]
  rfl

end Sample

/-- A payload that is nested as deep as `serde_json` allows is signed and not verified. -/
theorem deepest_payload_not_verified :
    ∃ (priv sender recipient payload nonce key text : Text) (ts now skew : UInt64)
      (sk : SigningKey) (w : Json Empty),
    SerdeRoundTrip Empty ∧ Base64Laws Empty ∧ SignatureLaws Empty ∧
    captured (signEnvelopeJson Empty (some priv) (some sender) (some recipient) (some payload) ts
      (some nonce)) = .ok text ∧
    signingKeyFromB64 Empty (cStr (Str.ofText priv)) = .ok sk ∧
    cStr (Str.ofText sender) =
      peerIdFromPublicKeyBytes Empty (Crates.verifyingKey Empty sk).val ∧
    verifyingKeyFromB64 Empty (cStr (Str.ofText key)) = .ok (Crates.verifyingKey Empty sk) ∧
    Crates.valueFromStr (payload.takeWhile (· ≠ '\x00')) = .ok w ∧ w.integral = true ∧
    now.toNat ≤ ts.toNat + skew.toNat ∧ ts.toNat ≤ now.toNat + skew.toNat ∧
    verifyEnvelopeJson Empty (some text) (some key) now skew ≠ .ok () := by
  have hok : Sample.verifiedIs false (Sample.nestedText 127) = true := by decide +kernel
  obtain ⟨text, w, hsign, hw, hint, hverify⟩ := Sample.verifiedIs_spec hok
  refine ⟨_, _, _, _, _, _, text, 1000, 1000, 0, Sample.key 1, w, Sample.serdeRoundTrip,
    Sample.base64Laws, Sample.signatureLaws, hsign, Sample.signingKey_passed,
    Sample.sender_passed, Sample.verifyingKey_passed, hw, hint, Nat.le_refl _, Nat.le_refl _, ?_⟩
  intro haccepted
  rw [haccepted] at hverify
  cases hverify

/-- The two ends of the clock, with the widest skew. -/
theorem verifyEnvelope_signed_exact_sample : ∃ env : Envelope Empty,
    signEnvelope (Sample.key 1)
      (peerIdFromPublicKeyBytes Empty (Crates.verifyingKey Empty (Sample.key 1)).val) [] 0 []
      (.null : Json Empty) = .ok env ∧
    verifyEnvelope env (Crates.verifyingKey Empty (Sample.key 1)) 0xFFFFFFFFFFFFFFFF
      0xFFFFFFFFFFFFFFFF = .ok () := by
  have hcanonical : ∃ bytes, Crates.jcsToVec (F := Empty)
      { protocolVersion := protocolVersion
        senderPeerId := peerIdFromPublicKeyBytes Empty
          (Crates.verifyingKey Empty (Sample.key 1)).val
        recipientPeerId := []
        timestampMs := 0
        nonce := []
        payload := .null } = .ok bytes :=
    Sample.exists_ok (by decide +kernel)
  obtain ⟨env, henv, haccepted, -⟩ := verifyEnvelope_signed_exact Sample.base64Laws
    Sample.signatureLaws (Sample.key 1) _ [] [] .null 0 0xFFFFFFFFFFFFFFFF 0xFFFFFFFFFFFFFFFF
    hcanonical
  exact ⟨env, henv, haccepted.mpr ⟨rfl, by decide⟩⟩

theorem verify_signed_iff_sample : ∃ (text : Text) (w : Json Empty),
    Sample.signedText (Sample.nestedText 126) = .ok text ∧
    (verifyEnvelopeJson Empty (some text) (some (Sample.passed (Sample.identity 1).publicKeyB64))
      1000 0 = .ok () ↔ w.depth < serdeDepth) := by
  have hok : Sample.verifiedIs true (Sample.nestedText 126) = true := by decide +kernel
  obtain ⟨text, w, hsign, hw, hint, -⟩ := Sample.verifiedIs_spec hok
  exact ⟨text, w, hsign, verify_signed_iff Sample.serdeRoundTrip Sample.base64Laws
    Sample.signatureLaws hsign Sample.signingKey_passed Sample.sender_passed
    Sample.verifyingKey_passed hw hint ⟨Nat.le_refl _, Nat.le_refl _⟩⟩

end P4

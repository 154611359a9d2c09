/-
  What `_validate_message` has checked when it returns, and what it leaves alone when it does
  not.

  A rejection changes nothing, at whichever of the checks it happens (`validateMessage_error`).
  An accepted message verified under the key of the contact entry of its sender
  (`validateMessage_ok`, `verifyMessage_ok`), and its nonce is new for that sender.
-/
import P4.Core.Equiv.Binding
import P4.Core.Laws
import P4.Node.Message
import P4.Node.Equiv.Replay

namespace P4

theorem cUint64_toNat (n : UInt64) : cUint64 (n.toNat : Int) = n := by
  have hlt : n.toNat < 2 ^ 64 := n.toNat_lt
  have hmod : ((n.toNat : Int) % 2 ^ 64).toNat = n.toNat := by omega
  rw [cUint64, UInt64.ofInt, hmod]
  exact UInt64.ofNat_toNat

variable {F : Type} [DecidableEq F] [Float64 F] [Crates F] [PyRepr F]

/-- The signature check of a message: its text is the envelope `env`, which verified under the
key `K` at time `now`. -/
structure Verified (msg : Members F) (publicKeyB64 : Json F) (now : UInt64) (env : Envelope F)
    (K : VerifyingKey) (canonical : List UInt8) (sig : FixedBytes 64) : Prop where
  keyIs : ∃ s, publicKeyB64 = .str s ∧ verifyingKeyFromB64 F (cStr s) = .ok K
  parsed : Crates.envelopeFromStr (Json.dumpsCompact (.obj msg)) = .ok env
  version : env.protocolVersion = protocolVersion
  sender : env.senderPeerId = peerIdFromPublicKeyBytes F K.val
  fresh : now.toNat ≤ env.timestampMs.toNat + maxEnvelopeSkewMs ∧
    env.timestampMs.toNat ≤ now.toNat + maxEnvelopeSkewMs
  jcs : Crates.jcsToVec env.signable = .ok canonical
  signature : Crates.b64Decode F env.signatureB64 = .ok sig.val
  verify : Crates.verify F K canonical sig = true

omit [DecidableEq F] [PyRepr F] in
/-- What the library has checked of a message that it verified. -/
theorem verifyMessage_ok {msg : Members F} {key : Json F} {now : UInt64}
    (h : verifyMessage msg key now = .ok ()) :
    ∃ env K canonical sig, Verified msg key now env K canonical sig := by
  unfold verifyMessage at h
  split at h
  · rename_i s
    split at h
    · cases h
    · obtain ⟨-, env, K, henv, hK, hver⟩ := P4Core.verifyEnvelope_ok.mp h
      obtain ⟨hv, hs, hskew, canonical, hcan, sig, hsig, hok⟩ := verifyEnvelope_ok.mp hver
      have hskew' := outsideSkew_eq_false.mp hskew
      have hmax : (cUint64 (maxEnvelopeSkewMs : Int)).toNat = maxEnvelopeSkewMs := by decide
      rw [cUint64_toNat, hmax] at hskew'
      exact ⟨env, K, canonical, sig, ⟨⟨s, rfl, hK⟩, henv, hv, hs, hskew', hcan, hsig, hok⟩⟩
  · cases h

/-- The checks of `_validate_message` before the replay window is asked. -/
structure Checked (contacts : Dict (Key F) (Ref (Contact F))) (msg : Members F)
    (ef et : Option (Json F)) (now : UInt64) (sender recipient nonce : Str)
    (contact : Ref (Contact F)) : Prop where
  version : (Dict.get? msg Field.protocolVersion).any (·.eqInt 1) = true
  senderIs : Dict.get? msg Field.senderPeerId = some (.str sender)
  recipientIs : Dict.get? msg Field.recipientPeerId = some (.str recipient)
  expectedFrom : unexpected ef sender = false
  expectedTo : unexpected et recipient = false
  contactIs : Dict.get? contacts (.str sender) = some contact
  nonceIs : ((Dict.get? msg Field.nonce).map Json.pyStr).getD [] = nonce
  nonce_ne : nonce ≠ []
  verified : verifyMessage msg contact.val.publicKeyB64 now = .ok ()

/-- A message that passes the checks is accepted when its nonce is new. -/
theorem Checked.validateMessage {contacts : Dict (Key F) (Ref (Contact F))}
    {msg : Members F} {ef et : Option (Json F)} {now : UInt64} {sender recipient nonce : Str}
    {contact : Ref (Contact F)}
    (h : Checked contacts msg ef et now sender recipient nonce contact) (replay : ReplayWindow) :
    P4.validateMessage contacts replay msg ef et now =
      (if (replay.seen sender nonce).1 then .error (.runtime (Str.lit "Replay detected"))
        else .ok (), (replay.seen sender nonce).2) := by
  unfold P4.validateMessage
  rw [h.senderIs, h.recipientIs]
  simp only [h.version, Bool.not_true, Bool.false_eq_true, if_false, h.expectedFrom,
    h.expectedTo, h.contactIs, h.nonceIs, List.isEmpty_eq_false_iff.mpr h.nonce_ne, h.verified]
  split <;> rfl

/-- A message is rejected by one of the checks, or passes all of them. -/
theorem validateMessage_cases (contacts : Dict (Key F) (Ref (Contact F)))
    (replay : ReplayWindow) (msg : Members F) (ef et : Option (Json F)) (now : UInt64) :
    (∃ e, validateMessage contacts replay msg ef et now = (.error e, replay)) ∨
      ∃ sender recipient nonce contact,
        Checked contacts msg ef et now sender recipient nonce contact := by
  unfold validateMessage
  -- one case for each check, in the order of the source
  split
  · exact Or.inl ⟨_, rfl⟩
  · rename_i hversion
    split
    · rename_i sender recipient hs hr
      split
      · exact Or.inl ⟨_, rfl⟩
      · rename_i hef
        split
        · exact Or.inl ⟨_, rfl⟩
        · rename_i het
          split
          · exact Or.inl ⟨_, rfl⟩
          · rename_i contact hc
            dsimp only
            split
            · exact Or.inl ⟨_, rfl⟩
            · rename_i hn
              split
              · exact Or.inl ⟨_, rfl⟩
              · rename_i hver
                exact Or.inr ⟨sender, recipient, _, contact,
                  { version := by simpa using hversion
                    senderIs := hs
                    recipientIs := hr
                    expectedFrom := by simpa using hef
                    expectedTo := by simpa using het
                    contactIs := hc
                    nonceIs := rfl
                    nonce_ne := by simpa using hn
                    verified := hver }⟩
    · exact Or.inl ⟨_, rfl⟩

/-- A message that is rejected leaves the replay window as it was. -/
theorem validateMessage_error {contacts : Dict (Key F) (Ref (Contact F))}
    {replay replay' : ReplayWindow} {msg : Members F} {ef et : Option (Json F)} {now : UInt64}
    {e : Exc} (h : validateMessage contacts replay msg ef et now = (.error e, replay')) :
    replay' = replay := by
  rcases validateMessage_cases contacts replay msg ef et now with ⟨e', he⟩ | ⟨_, _, _, _, hok⟩
  · rw [he] at h
    exact (congrArg Prod.snd h).symm
  · rw [hok.validateMessage] at h
    obtain ⟨h₁, h₂⟩ := Prod.mk.inj h
    split_ifs at h₁ with hseen
    -- the window is asked last, and a nonce it knows does not change it
    rw [← h₂]
    exact ReplayWindow.seen_true hseen

/-- What an accepted message passed, and the replay window after it. -/
theorem validateMessage_ok {contacts : Dict (Key F) (Ref (Contact F))}
    {replay replay' : ReplayWindow} {msg : Members F} {ef et : Option (Json F)} {now : UInt64}
    (h : validateMessage contacts replay msg ef et now = (.ok (), replay')) :
    ∃ sender recipient nonce contact,
      Checked contacts msg ef et now sender recipient nonce contact ∧
      (replay.seen sender nonce).1 = false ∧ replay' = (replay.seen sender nonce).2 := by
  rcases validateMessage_cases contacts replay msg ef et now with
    ⟨e', he⟩ | ⟨sender, recipient, nonce, contact, hok⟩
  · rw [he] at h
    cases congrArg Prod.fst h
  · rw [hok.validateMessage] at h
    obtain ⟨h₁, h₂⟩ := Prod.mk.inj h
    split_ifs at h₁ with hseen
    exact ⟨sender, recipient, nonce, contact, hok, by simpa using hseen, h₂.symm⟩

end P4

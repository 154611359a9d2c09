/-
  What `sign_envelope` and `verify_envelope` establish.
-/
import P4.Core.Envelope

namespace P4

variable {F : Type} [Crates F]

/-! ### Results -/

theorem except_bind_ok {ε α β : Type} {x : Except ε α} {f : α → Except ε β} {b : β} :
    (x >>= f) = .ok b ↔ ∃ a, x = .ok a ∧ f a = .ok b := by
  cases x with
  | error e =>
    constructor
    · intro h
      cases h
    · rintro ⟨a, h, -⟩
      cases h
  | ok a =>
    constructor
    · intro h
      exact ⟨a, rfl, h⟩
    · rintro ⟨a', ha, h⟩
      cases ha
      exact h

/-- A loop that collects results succeeds when each of them does. -/
theorem except_mapM_ok {ε α β : Type} {f : α → Except ε β} {l : List α} {r : List β} :
    l.mapM f = .ok r ↔ List.Forall₂ (fun a b => f a = .ok b) l r := by
  induction l generalizing r with
  | nil =>
    rw [List.mapM_nil, List.forall₂_nil_left_iff]
    constructor
    · intro h
      exact (Except.ok.inj h).symm
    · rintro rfl
      rfl
  | cons a l ih =>
    rw [List.mapM_cons, except_bind_ok, List.forall₂_cons_left_iff]
    constructor
    · rintro ⟨b, hb, h⟩
      obtain ⟨bs, hbs, h⟩ := except_bind_ok.mp h
      exact ⟨b, bs, hb, ih.mp hbs, (Except.ok.inj h).symm⟩
    · rintro ⟨b, bs, hb, hbs, rfl⟩
      exact ⟨b, hb, except_bind_ok.mpr ⟨bs, ih.mpr hbs, rfl⟩⟩

theorem except_mapM_mem {ε α β : Type} {f : α → Except ε β} {l : List α} {r : List β}
    (h : l.mapM f = .ok r) :
    (∀ a ∈ l, ∃ b, f a = .ok b) ∧ ∀ b ∈ r, ∃ a ∈ l, f a = .ok b := by
  have hr := except_mapM_ok.mp h
  clear h
  induction hr with
  | nil => simp
  | cons hab _ ih =>
    constructor
    · rw [List.forall_mem_cons]
      exact ⟨⟨_, hab⟩, ih.1⟩
    · rw [List.forall_mem_cons]
      refine ⟨⟨_, List.mem_cons_self .., hab⟩, fun b hb => ?_⟩
      obtain ⟨a, ha, hf⟩ := ih.2 b hb
      exact ⟨a, List.mem_cons_of_mem _ ha, hf⟩

theorem except_mapM_eq {ε α β : Type} {f : α → Except ε β} {g : α → β} {l : List α}
    (h : ∀ a ∈ l, f a = .ok (g a)) : l.mapM f = .ok (l.map g) := by
  rw [except_mapM_ok, List.forall₂_map_right_iff, List.forall₂_same]
  exact h

theorem mapError_ok {ε ε' α : Type} {x : Except ε α} {f : ε → ε'} {a : α} :
    x.mapError f = .ok a ↔ x = .ok a := by
  cases x with
  | error e =>
    constructor
    · intro h
      cases h
    · intro h
      cases h
  | ok b =>
    constructor
    · intro h
      cases h
      rfl
    · intro h
      cases h
      rfl

/-! ### The freshness test -/

/-- The saturating bounds of the freshness test are the exact distance. -/
theorem outsideSkew_eq_false {ts now skew : UInt64} :
    outsideSkew ts now skew = false ↔
      now.toNat ≤ ts.toNat + skew.toNat ∧ ts.toNat ≤ now.toNat + skew.toNat := by
  have hts : ts.toNat < 2 ^ 64 := ts.toNat_lt
  rw [outsideSkew, Bool.or_eq_false_iff, decide_eq_false_iff_not, decide_eq_false_iff_not]
  constructor
  · rintro ⟨h₁, h₂⟩
    omega
  · rintro ⟨h₁, h₂⟩
    omega

/-! ### Verifying -/

/-- The checks that an accepted envelope passed. -/
theorem verifyEnvelope_ok {env : Envelope F} {key : VerifyingKey} {now skew : UInt64} :
    verifyEnvelope env key now skew = .ok () ↔
      env.protocolVersion = protocolVersion ∧
      env.senderPeerId = peerIdFromPublicKeyBytes F key.val ∧
      outsideSkew env.timestampMs now skew = false ∧
      ∃ canonical, Crates.jcsToVec env.signable = .ok canonical ∧
        ∃ sig : FixedBytes 64, Crates.b64Decode F env.signatureB64 = .ok sig.val ∧
          Crates.verify F key canonical sig = true := by
  unfold verifyEnvelope
  dsimp only
  constructor
  · intro h
    -- the checks in the order of the source
    split_ifs at h with h₁ h₂ h₃
    refine ⟨not_not.mp h₁, not_not.mp h₂, by simpa using h₃, ?_⟩
    split at h
    · cases h
    · rename_i canonical hcan
      refine ⟨canonical, hcan, ?_⟩
      split at h
      · cases h
      · rename_i sig hsig
        split_ifs at h with hlen hver
        exact ⟨⟨sig, hlen⟩, hsig, hver⟩
  · rintro ⟨h₁, h₂, h₃, canonical, hcan, sig, hsig, hver⟩
    rw [if_neg (not_not.mpr h₁), if_neg (not_not.mpr h₂), if_neg (by rw [h₃]; decide), hcan]
    simp only [hsig]
    rw [dif_pos sig.property]
    exact if_pos hver

/-- The envelope that `sign_envelope` returns. -/
theorem signEnvelope_ok {key : SigningKey} {sender recipient nonce : Str} {ts : UInt64}
    {payload : Json F} {env : Envelope F} :
    signEnvelope key sender recipient ts nonce payload = .ok env ↔
      ∃ canonical, Crates.jcsToVec env.signable = .ok canonical ∧
        env = { protocolVersion := protocolVersion
                senderPeerId := sender
                recipientPeerId := recipient
                timestampMs := ts
                nonce := nonce
                payload := payload
                signatureB64 := Crates.b64Encode F (Crates.sign F key canonical).val } := by
  unfold signEnvelope
  dsimp only
  constructor
  · intro h
    split at h
    · cases h
    · rename_i canonical hcan
      cases h
      exact ⟨canonical, hcan, rfl⟩
  · rintro ⟨canonical, hcan, rfl⟩
    have hcan' : Crates.jcsToVec (SignableEnvelope.mk protocolVersion sender recipient ts nonce
        payload) = .ok canonical := hcan
    rw [hcan']

/-! ### Dictionaries -/

omit [Crates F] in
theorem keys_toDict (env : Envelope F) : Dict.keys env.toDict =
    [Field.protocolVersion, Field.senderPeerId, Field.recipientPeerId, Field.timestampMs,
      Field.nonce, Field.payload, Field.signatureB64] := rfl

omit [Crates F] in
theorem nodup_keys_toDict (env : Envelope F) : (Dict.keys env.toDict).Nodup := by
  rw [keys_toDict]
  decide

omit [Crates F] in
theorem isScalar_keys_toDict (env : Envelope F) : ∀ k ∈ Dict.keys env.toDict,
    k.isScalar = true := by
  rw [keys_toDict]
  decide

omit [Crates F] in
/-- The dictionary of an envelope is one level deeper than its payload. -/
theorem Envelope.depth_toDict (env : Envelope F) :
    (Json.obj env.toDict).depth = env.payload.depth + 1 := by
  simp [Envelope.toDict, Json.depth, Json.depthMembers]

end P4

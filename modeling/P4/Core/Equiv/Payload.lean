/-
  What a signature says about the payload.

  The application acts on the payload as Python reads it, the signature is checked on what
  `serde_json` reads of it, and JCS writes doubles.  Two payloads that pass under one signature
  are equal once their numbers are rounded to doubles (`verified_payload_rounded`), and no more
  than that: two integers beyond 64 bits that round to the same double are the same to the
  library (`verified_payload_differs`).
-/
import P4.Core.Equiv.Binding
import P4.Core.Equiv.ReadBack
import P4.Node.Equiv.Build
import P4.Sample.Equiv.Laws

namespace P4

/-! ### Numbers -/

namespace Json

variable {F : Type} [Float64 F]

/-- A number by its value: a double that is an integer is that integer. -/
def valueLeaf : Json F → Json F
  | .float f =>
    match Float64.toInt? f with
    | some i => .int i
    | none => .float f
  | v => v

/-- A value up to the order of members, with its numbers by their exact values. -/
def valueForm (v : Json F) : Json F := (v.mapLeaves valueLeaf).canon

/-- Every integer in the value is a double. -/
def exact : Json F → Bool := allNodes fun
  | .int i => decide (roundInt i = i)
  | _ => true

end Json

/-- What is relied on of reading an integer as a double. -/
def NearestDouble (F : Type) [Float64 F] : Prop :=
  ∀ (i : Int) (f : F), Float64.ofInt? i = some f → Float64.toInt? f = some (Json.roundInt i)

namespace Json

variable {F : Type}

/-- A change of leaves that a second one does not notice. -/
theorem mapLeaves_mapLeaves {f g : Json F → Json F} (hfg : ∀ v, mapLeaves g (f v) = mapLeaves g v)
    (v : Json F) : (v.mapLeaves f).mapLeaves g = v.mapLeaves g := by
  induction v using Json.induction with
  | arr l ih =>
    rw [mapLeaves_arr, mapLeaves_arr, mapLeaves_arr, List.map_map]
    exact congrArg _ (List.map_congr_left fun v hv => ih v hv)
  | obj m ih =>
    rw [mapLeaves_obj, mapLeaves_obj, mapLeaves_obj, List.map_map]
    refine congrArg _ (List.map_congr_left fun kv hkv => ?_)
    show (kv.1, (mapLeaves f kv.2).mapLeaves g) = (kv.1, mapLeaves g kv.2)
    rw [ih kv hkv]
  | null => exact hfg _
  | bool b => exact hfg _
  | int i => exact hfg _
  | float x => exact hfg _
  | str s => exact hfg _

variable [Float64 F]

/-- What `serde_json` makes of a number has the same rounding. -/
theorem doubleLeaf_serdeLeaf (hnum : NearestDouble F) (v : Json F) :
    mapLeaves doubleLeaf (serdeLeaf v) = mapLeaves doubleLeaf v := by
  cases v with
  | int i =>
    rw [serdeLeaf]
    split_ifs
    · rfl
    · -- an integer beyond 64 bits is read as the nearest double, or not at all
      cases hf : Float64.ofInt? (F := F) i with
      | none => rfl
      | some f =>
        show doubleLeaf (.float f) = .int (roundInt i)
        simp only [doubleLeaf, hnum i f hf]
  | _ => rfl

/-- Reading a value loses nothing but what rounding loses. -/
theorem doubleForm_readBack (hnum : NearestDouble F) {v w : Json F} (h : v.readBack = some w) :
    w.doubleForm = v.doubleForm := by
  rw [readBack_eq_some h, doubleForm, doubleForm, canon_mapLeaves numberMap_doubleLeaf, canon_canon,
    ← canon_mapLeaves numberMap_doubleLeaf, mapLeaves_mapLeaves (doubleLeaf_serdeLeaf hnum)]

/-- Where every integer is a double, rounding changes nothing. -/
theorem doubleForm_of_exact {v : Json F} (h : v.exact = true) : v.doubleForm = v.valueForm := by
  have hleaves : ∀ u : Json F, u.exact = true → u.mapLeaves doubleLeaf = u.mapLeaves valueLeaf := by
    intro u
    induction u using Json.induction with
    | int i =>
      intro hi
      have hround : roundInt i = i := of_decide_eq_true hi
      show Json.int (roundInt i) = .int i
      rw [hround]
    | arr l ih =>
      rw [exact, allNodes_arr, mapLeaves_arr, mapLeaves_arr]
      rintro ⟨-, hl⟩
      rw [List.map_congr_left fun w hw => ih w hw (hl w hw)]
    | obj m ih =>
      rw [exact, allNodes_obj, mapLeaves_obj, mapLeaves_obj]
      rintro ⟨-, hm⟩
      rw [List.map_congr_left fun kv hkv => by rw [ih kv hkv (hm kv hkv)]]
    | _ => exact fun _ => rfl
  rw [doubleForm, valueForm, hleaves v h]

end Json

/-! ### Signatures -/

namespace P4Core

variable {F : Type} [JsonFloat F] [Crates F]

/-- The key and the bytes that a call of `sign_envelope` signs. -/
def signs? (privateKeyB64 senderPeerId recipientPeerId : Str) (payload : Json F) (nonce : Str)
    (timestampMs : Int) : Option (VerifyingKey × List UInt8) :=
  match signingKeyFromB64 F (cStr privateKeyB64),
    Crates.valueFromStr (F := F) (Json.dumpsCompact payload) with
  | .ok sk, .ok w =>
    let signable : SignableEnvelope F :=
      { protocolVersion := protocolVersion
        senderPeerId := cStr senderPeerId
        recipientPeerId := cStr recipientPeerId
        timestampMs := cUint64 timestampMs
        nonce := cStr nonce
        payload := w }
    match Crates.jcsToVec signable with
    | .ok bytes => some (Crates.verifyingKey F sk, bytes)
    | .error _ => none
  | _, _ => none

/-- The key and the bytes under which a call of `verify_envelope` checks the signature. -/
def checks? (envelope : Members F) (signerPublicKeyB64 : Str) :
    Option (VerifyingKey × List UInt8) :=
  match verifyingKeyFromB64 F (cStr signerPublicKeyB64),
    Crates.envelopeFromStr (F := F) (Json.dumpsCompact (.obj envelope)) with
  | .ok K, .ok env =>
    match Crates.jcsToVec env.signable with
    | .ok bytes => some (K, bytes)
    | .error _ => none
  | _, _ => none

/-- What a call of `sign_envelope` leaves in its result. -/
theorem signEnvelopeOf_spec {priv sender recipient nonce : Str} {p v : Json F} {ts : Int}
    (h : signEnvelopeOf priv sender recipient p nonce ts = .ok v) :
    ∃ (env : Envelope F) (text : Text) (x : VerifyingKey × List UInt8),
      Crates.valueFromStr (Json.dumpsCompact p) = .ok env.payload ∧
      Crates.jcsToVec env.signable = .ok x.2 ∧
      signs? priv sender recipient p nonce ts = some x ∧
      Crates.envelopeToString env = .ok text ∧ Json.loads text = some v := by
  obtain ⟨-, sk, w, env, text, hsk, hw, henv, htext, -, hload⟩ := signEnvelopeOf_ok.mp h
  obtain ⟨canonical, hcan, rfl⟩ := P4.signEnvelope_ok.mp henv
  refine ⟨_, text, (Crates.verifyingKey F sk, canonical), hw, hcan, ?_, htext, hload⟩
  have hcan' : Crates.jcsToVec (SignableEnvelope.mk protocolVersion (cStr sender) (cStr recipient)
    (cUint64 ts) (cStr nonce) w) = .ok canonical := hcan
  simp only [signs?, hsk, hw, hcan']

/-- What a call of `verify_envelope` has read when it accepts. -/
theorem verifyEnvelope_spec {msg : Members F} {key : Str} {skew now : Int}
    (h : verifyEnvelope msg key skew now = .ok ()) :
    ∃ (env : Envelope F) (x : VerifyingKey × List UInt8),
      Crates.envelopeFromStr (Json.dumpsCompact (.obj msg)) = .ok env ∧
      Crates.jcsToVec env.signable = .ok x.2 ∧ checks? msg key = some x := by
  obtain ⟨-, env, K, henv, hK, hver⟩ := verifyEnvelope_ok.mp h
  obtain ⟨-, -, -, canonical, hcan, -⟩ := P4.verifyEnvelope_ok.mp hver
  refine ⟨env, (K, canonical), henv, hcan, ?_⟩
  simp only [checks?, hK, henv, hcan]

end P4Core

namespace Json

open Dict

variable {F : Type}

theorem wellFormed_set {m : Members F} {k : Str} {v : Json F}
    (hm : (Json.obj m).wellFormed = true) (hk : normal k = true) (hv : v.wellFormed = true) :
    (Json.obj (Dict.set m k v)).wellFormed = true := by
  rw [wellFormed_obj] at hm ⊢
  obtain ⟨hnd, hkeys, hvals⟩ := hm
  refine ⟨nodup_keys_set hnd k v, ?_, ?_⟩
  · intro j hj
    by_cases hmem : k ∈ keys m
    · rw [keys_set_of_mem hmem] at hj
      exact hkeys j hj
    · rw [keys_set_of_notMem hmem, List.mem_append, List.mem_singleton] at hj
      rcases hj with hj | rfl
      · exact hkeys j hj
      · exact hk
  · intro kw hkw
    rcases mem_set hkw with rfl | hkw
    · exact hv
    · exact hvals kw hkw

end Json

section

variable {F : Type} [Float64 F] [Crates F]

/-- What is verified is what was signed, up to the rounding of numbers to doubles: an envelope
that was signed for `p` and is accepted with the payload `q` in its place.

Both payloads lead to the same signed bytes, so to the same JCS form, which is the form with all
numbers as doubles. -/
theorem verified_payload_rounded (hserde : SerdeReads F) (hjcs : JcsInjective F)
    (hnum : NearestDouble F) {priv sender recipient nonce key : Str} {p q : Json F}
    {m : Members F} {ts skew now : Int} (hp : p.wellFormed = true) (hq : q.wellFormed = true)
    (hsign : P4Core.signEnvelopeOf priv sender recipient p nonce ts = .ok (.obj m))
    (hverify : P4Core.verifyEnvelope (Dict.set m Field.payload q) key skew now = .ok ())
    (hunforged : ∀ x, P4Core.checks? (Dict.set m Field.payload q) key = some x →
      P4Core.signs? priv sender recipient p nonce ts = some x) :
    p.doubleForm = q.doubleForm ∧
      (p.exact = true → q.exact = true → p.valueForm = q.valueForm) := by
  obtain ⟨env, text, x, hread, hcan, hsigns, -, hload⟩ := P4Core.signEnvelopeOf_spec hsign
  obtain ⟨env', y, henv', hcan', hchecks⟩ := P4Core.verifyEnvelope_spec hverify
  -- the signature is on the bytes that were signed
  have hxy : x = y := by
    have hy := hunforged y hchecks
    rw [hsigns] at hy
    exact Option.some.inj hy
  rw [← hxy] at hcan'
  -- the library read `p` at one end and `q` at the other
  have hpw : p.readBack = some env.payload := hserde.value p _ hp hread
  have hmsg : (Json.obj (Dict.set m Field.payload q)).wellFormed = true :=
    Json.wellFormed_set (Json.loads_wellFormed hload) (by decide) hq
  have hqw : q.readBack = some env'.payload := by
    obtain ⟨q', hq', hback⟩ := (hserde.envelope _ _ hmsg henv').payload
    rw [Dict.get?_set, if_pos rfl] at hq'
    rw [Option.some.inj hq']
    exact hback
  have hform := hjcs.form _ _ _ hcan hcan'
  simp only [SignableEnvelope.jcsForm, Prod.mk.injEq] at hform
  have hdouble : p.doubleForm = q.doubleForm := by
    rw [← Json.doubleForm_readBack hnum hpw, ← Json.doubleForm_readBack hnum hqw]
    exact hform.2.2.2.2.2
  refine ⟨hdouble, fun hpe hqe => ?_⟩
  rw [← Json.doubleForm_of_exact hpe, ← Json.doubleForm_of_exact hqe, hdouble]

end

/-! ### Samples -/

namespace Sample

section

variable (F : Type) [Float64 F] [Crates F]

/-- The first identity signs a payload. -/
def signed (p : Json F) : Except Exc (Json F) :=
  P4Core.signEnvelopeOf (Crates.b64Encode F (key 1).val)
    (peerIdFromPublicKeyBytes F (Crates.verifyingKey F (key 1)).val) (Str.lit "b") p
    (Str.lit "n") 1000

/-- The envelope for `p` is accepted with `q` in it, and the check is on the bytes that were
signed. -/
def swapped (p q : Json F) : Bool :=
  match signed F p with
  | .ok (.obj m) =>
    (P4Core.verifyEnvelope (Dict.set m Field.payload q)
      (Crates.b64Encode F (Crates.verifyingKey F (key 1)).val) 0 1000).isOk &&
    decide (P4Core.checks? (Dict.set m Field.payload q)
      (Crates.b64Encode F (Crates.verifyingKey F (key 1)).val) =
        P4Core.signs? (Crates.b64Encode F (key 1).val)
          (peerIdFromPublicKeyBytes F (Crates.verifyingKey F (key 1)).val) (Str.lit "b") p
          (Str.lit "n") 1000)
  | _ => false

theorem swapped_spec {p q : Json F} (h : swapped F p q = true) : ∃ m,
    signed F p = .ok (.obj m) ∧
    P4Core.verifyEnvelope (Dict.set m Field.payload q)
      (Crates.b64Encode F (Crates.verifyingKey F (key 1)).val) 0 1000 = .ok () ∧
    P4Core.checks? (Dict.set m Field.payload q)
      (Crates.b64Encode F (Crates.verifyingKey F (key 1)).val) =
        P4Core.signs? (Crates.b64Encode F (key 1).val)
          (peerIdFromPublicKeyBytes F (Crates.verifyingKey F (key 1)).val) (Str.lit "b") p
          (Str.lit "n") 1000 := by
  unfold swapped at h
  split at h
  · rename_i m hm
    rw [Bool.and_eq_true, decide_eq_true_eq] at h
    obtain ⟨u, hu⟩ := exists_ok h.1
    exact ⟨m, hm, hu, h.2⟩
  · cases h

end

/-- `{"n": i}` -/
def numbered {F : Type} (i : Int) : Json F := .obj [(Str.lit "n", .int i)]

/-- `{"a": 1, "n": 2}` -/
def ordered : Json Empty := .obj [(Str.lit "a", .int 1), (Str.lit "n", .int 2)]

/-- `{"n": 2, "a": 1}` -/
def reordered : Json Empty := .obj [(Str.lit "n", .int 2), (Str.lit "a", .int 1)]

theorem nearestDouble_big : NearestDouble Big := by
  intro i f h
  have h' : (if Json.roundInt i = 2 ^ 64 then some Big.big else none) = some f := h
  split_ifs at h' with hi
  show some ((2 : Int) ^ 64) = _
  rw [hi]

theorem nearestDouble_empty : NearestDouble Empty :=
  fun _ f => f.elim

end Sample

/-- Two integers beyond 64 bits that round to one double share their signature. -/
theorem verified_payload_differs :
    ∃ (priv sender recipient nonce key : Str) (p q : Json Sample.Big) (m : Members Sample.Big)
      (ts skew now : Int),
    SerdeReads Sample.Big ∧ JcsInjective Sample.Big ∧ NearestDouble Sample.Big ∧
    p.wellFormed = true ∧ q.wellFormed = true ∧
    P4Core.signEnvelopeOf priv sender recipient p nonce ts = .ok (.obj m) ∧
    P4Core.verifyEnvelope (Dict.set m Field.payload q) key skew now = .ok () ∧
    P4Core.checks? (Dict.set m Field.payload q) key =
      P4Core.signs? priv sender recipient p nonce ts ∧
    p.valueForm ≠ q.valueForm := by
  have hok : Sample.swapped Sample.Big (Sample.numbered (2 ^ 64))
      (Sample.numbered (2 ^ 64 + 1)) = true := by decide +kernel
  obtain ⟨m, hsign, hverify, hbytes⟩ := Sample.swapped_spec Sample.Big hok
  refine ⟨_, _, _, _, _, _, Sample.numbered (2 ^ 64 + 1), m, _, _, _, Sample.serdeReads,
    Sample.jcsInjective, Sample.nearestDouble_big, by decide +kernel, by decide +kernel, hsign,
    hverify, hbytes, by decide +kernel⟩

theorem verified_payload_rounded_sample : ∃ m,
    Sample.signed Empty Sample.ordered = .ok (.obj m) ∧
    Sample.ordered.valueForm = Sample.reordered.valueForm := by
  have hok : Sample.swapped Empty Sample.ordered Sample.reordered = true := by decide +kernel
  obtain ⟨m, hsign, hverify, hbytes⟩ := Sample.swapped_spec Empty hok
  exact ⟨m, hsign, (verified_payload_rounded Sample.serdeReads Sample.jcsInjective
    Sample.nearestDouble_empty (by decide +kernel) (by decide +kernel) hsign hverify
    fun x hx => by rw [← hbytes, hx]).2 (by decide +kernel) (by decide +kernel)⟩

end P4

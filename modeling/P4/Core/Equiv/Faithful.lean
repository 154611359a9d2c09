/-
  Signing through the binding: when the envelope says what was asked for.

  Each argument crosses the C boundary in its own way: a string up to its first NUL, the
  timestamp modulo 2^64, the payload as JSON text that `serde_json` reads.  The first two are
  silent, and so is the reading of an integer beyond 64 bits as a double; `signed_faithful_iff`
  says exactly when nothing was altered.
-/
import P4.Core.Equiv.Payload

namespace P4

/-! ### Strings and timestamps -/

theorem cStr_eq_self_iff {s : Str} : cStr s = s ↔ 0 ∉ s := by
  constructor
  · intro h hz
    rw [cStr, List.takeWhile_eq_self_iff] at h
    exact of_decide_eq_true (h 0 hz) rfl
  · intro h
    refine cStr_of_ne fun c hc hz => h ?_
    rw [← hz]
    exact hc

/-- What a C integer loses of an integer. -/
theorem toNat_cUint64_eq_iff {n : Int} : ((cUint64 n).toNat : Int) = n ↔ 0 ≤ n ∧ n < 2 ^ 64 := by
  have hwrap : ((cUint64 n).toNat : Int) = n % 2 ^ 64 := by
    rw [cUint64, UInt64.ofInt, UInt64.toNat_ofNat']
    omega
  rw [hwrap]
  omega

/-! ### Payloads -/

namespace Json

variable {F : Type} [Float64 F]

/-- Every integer in the value fits `i64` or `u64`, or is a double. -/
def representable : Json F → Bool := allNodes fun
  | .int i => fits64 i || decide (roundInt i = i)
  | _ => true

theorem numberMap_valueLeaf : NumberMap (F := F) valueLeaf := by
  constructor
  · exact fun _ => rfl
  · intro x
    rw [valueLeaf]
    split <;> rfl
  · rfl
  · exact fun _ => rfl
  · exact fun _ => rfl

theorem valueForm_canon (v : Json F) : v.canon.valueForm = v.valueForm := by
  rw [valueForm, canon_mapLeaves numberMap_valueLeaf, canon_canon,
    ← canon_mapLeaves numberMap_valueLeaf]
  rfl

theorem valueForm_arr (l : List (Json F)) : valueForm (.arr l) = .arr (l.map valueForm) := by
  rw [valueForm, mapLeaves_arr, canon_arr, List.map_map]
  rfl

theorem valueForm_obj (m : Members F) :
    valueForm (.obj m) = .obj ((sortMembers m).map fun kv => (kv.1, kv.2.valueForm)) := by
  rw [valueForm, mapLeaves_obj, canon_obj, List.map_map, ← sortMembers_map]
  rfl

/-- What `serde_json` makes of a number has the same value exactly when it is kept, or is a
double. -/
theorem valueForm_serdeLeaf_int (hnum : NearestDouble F) {i : Int}
    (hread : serdeNode (.int i : Json F) = true) :
    (serdeLeaf (.int i : Json F)).valueForm = valueForm (.int i) ↔
      (fits64 i || decide (roundInt i = i)) = true := by
  rw [Bool.or_eq_true, decide_eq_true_eq, serdeLeaf]
  by_cases hfits : fits64 i = true
  · rw [if_pos hfits]
    exact iff_of_true rfl (Or.inl hfits)
  rw [if_neg hfits]
  have hsome : (Float64.ofInt? (F := F) i).isSome = true :=
    (Bool.or_eq_true _ _ ▸ hread).resolve_left hfits
  obtain ⟨f, hf⟩ := Option.isSome_iff_exists.mp hsome
  rw [hf]
  have hvalue : valueForm (.float f : Json F) = .int (roundInt i) := by
    show (valueLeaf (.float f)).canon = _
    rw [valueLeaf, hnum i f hf]
    rfl
  show valueForm (.float f : Json F) = .int i ↔ _
  rw [hvalue, Json.int.injEq]
  exact ⟨Or.inr, fun h => h.resolve_left hfits⟩

/-- A value that `serde_json` reads keeps its numbers exactly when they are representable. -/
theorem valueForm_mapLeaves_serdeLeaf (hnum : NearestDouble F) {v : Json F} :
    v.allNodes serdeNode = true →
      ((v.mapLeaves serdeLeaf).valueForm = v.valueForm ↔ v.representable = true) := by
  induction v using Json.induction with
  | int i => exact valueForm_serdeLeaf_int hnum
  | arr l ih =>
    rw [allNodes_arr, representable, allNodes_arr, mapLeaves_arr, valueForm_arr, valueForm_arr,
      Json.arr.injEq, List.map_map, List.map_inj_left]
    rintro ⟨-, h⟩
    constructor
    · exact fun heq => ⟨rfl, fun w hw => (ih w hw (h w hw)).mp (heq w hw)⟩
    · exact fun hrep w hw => (ih w hw (h w hw)).mpr (hrep.2 w hw)
  | obj m ih =>
    rw [allNodes_obj, representable, allNodes_obj, mapLeaves_obj, valueForm_obj, valueForm_obj,
      Json.obj.injEq, sortMembers_map, List.map_map, List.map_inj_left]
    rintro ⟨-, h⟩
    constructor
    · intro heq
      refine ⟨rfl, fun kv hkv => (ih kv hkv (h kv hkv)).mp ?_⟩
      exact (Prod.mk.inj (heq kv (mem_sortMembers.mpr hkv))).2
    · intro hrep kv hkv
      have hkv' := mem_sortMembers.mp hkv
      exact congrArg (Prod.mk kv.1) ((ih kv hkv' (h kv hkv')).mpr (hrep.2 kv hkv'))
  | null | bool b | str s | float x => exact fun _ => iff_of_true rfl rfl

/-- A reader may alter the numbers, and nothing else. -/
theorem valueForm_readBack_iff (hnum : NearestDouble F) {v w : Json F}
    (h : v.readBack = some w) : w.valueForm = v.valueForm ↔ v.representable = true := by
  have hnodes : v.allNodes serdeNode = true := by
    rw [readBack] at h
    split_ifs at h with hn
    exact hn
  rw [readBack_eq_some h, valueForm_canon]
  exact valueForm_mapLeaves_serdeLeaf hnum hnodes

end Json

/-! ### Envelopes -/

section

variable {F : Type} [Float64 F] [Crates F]

/-- The dictionary has the arguments of the call for its fields, the payload up to the order of
members and with numbers by their exact values. -/
structure SaysWhatWasAsked (m : Members F) (sender recipient nonce : Str) (payload : Json F)
    (ts : Int) : Prop where
  sender : Dict.get? m Field.senderPeerId = some (.str sender)
  recipient : Dict.get? m Field.recipientPeerId = some (.str recipient)
  nonce : Dict.get? m Field.nonce = some (.str nonce)
  timestampMs : Dict.get? m Field.timestampMs = some (.int ts)
  payload : ∃ q, Dict.get? m Field.payload = some q ∧ q.valueForm = payload.valueForm

/-- The call alters nothing: no string has a NUL, the timestamp fits `u64`, and the integers of
the payload are representable. -/
structure Crosses (sender recipient nonce : Str) (payload : Json F) (ts : Int) : Prop where
  sender : 0 ∉ sender
  recipient : 0 ∉ recipient
  nonce : 0 ∉ nonce
  timestampMs : 0 ≤ ts ∧ ts < 2 ^ 64
  payload : payload.representable = true

/-- The dictionary that `sign_envelope` returns holds what the library was given. -/
theorem signEnvelopeOf_toDict (hserde : SerdeReads F) (hwrites : SerdeWrites F)
    (hb : Base64Laws F) {priv sender recipient nonce : Str} {p v : Json F} {ts : Int}
    (hp : p.wellFormed = true)
    (h : P4Core.signEnvelopeOf priv sender recipient p nonce ts = .ok v) :
    ∃ env : Envelope F, v = .obj env.toDict ∧ env.senderPeerId = cStr sender ∧
      env.recipientPeerId = cStr recipient ∧ env.nonce = cStr nonce ∧
      env.timestampMs = cUint64 ts ∧ p.readBack = some env.payload := by
  obtain ⟨⟨-, hs, hr, hn⟩, sk, w, env, text, -, hw, henv, htext, -, hload⟩ :=
    P4Core.signEnvelopeOf_ok.mp h
  obtain ⟨canonical, -, henv⟩ := signEnvelope_ok.mp henv
  have hread : p.readBack = some w := hserde.value p w hp hw
  have hreadable : Readable env := by
    rw [henv]
    exact ⟨isScalar_cStr hs, isScalar_cStr hr, isScalar_cStr hn,
      (plain_b64Encode hb _).isScalar, p, hp, hread⟩
  rw [(hwrites.loads env text hreadable htext).2, Option.some.injEq] at hload
  refine ⟨env, hload.symm, ?_⟩
  rw [henv]
  exact ⟨rfl, rfl, rfl, rfl, hread⟩

/-- What `sign_envelope` returns says what was asked for exactly when nothing is altered on the
way into the library.

Each member of the result is one field of the envelope, and each field has one way to the library
that may alter it. -/
theorem signed_faithful_iff (hserde : SerdeReads F) (hwrites : SerdeWrites F)
    (hb : Base64Laws F) (hnum : NearestDouble F) {priv sender recipient nonce : Str} {p : Json F}
    {m : Members F} {ts : Int} (hp : p.wellFormed = true)
    (h : P4Core.signEnvelopeOf priv sender recipient p nonce ts = .ok (.obj m)) :
    SaysWhatWasAsked m sender recipient nonce p ts ↔ Crosses sender recipient nonce p ts := by
  obtain ⟨env, hm, hs, hr, hn, ht, hread⟩ := signEnvelopeOf_toDict hserde hwrites hb hp h
  cases hm
  have hvalue := Json.valueForm_readBack_iff hnum hread
  -- each member of the dictionary is a field of the envelope, and each field has one condition
  have hsender : Dict.get? env.toDict Field.senderPeerId = some (.str env.senderPeerId) := rfl
  have hrecipient : Dict.get? env.toDict Field.recipientPeerId = some (.str env.recipientPeerId) :=
    rfl
  have hnonce : Dict.get? env.toDict Field.nonce = some (.str env.nonce) := rfl
  have hts : Dict.get? env.toDict Field.timestampMs = some (.int env.timestampMs.toNat) := rfl
  have hpayload : Dict.get? env.toDict Field.payload = some env.payload := rfl
  constructor
  · intro hsays
    obtain ⟨q, hq, hqp⟩ := hsays.payload
    refine ⟨?_, ?_, ?_, ?_, ?_⟩
    · have heq := hsays.sender
      rw [hsender, hs, Option.some.injEq, Json.str.injEq] at heq
      exact cStr_eq_self_iff.mp heq
    · have heq := hsays.recipient
      rw [hrecipient, hr, Option.some.injEq, Json.str.injEq] at heq
      exact cStr_eq_self_iff.mp heq
    · have heq := hsays.nonce
      rw [hnonce, hn, Option.some.injEq, Json.str.injEq] at heq
      exact cStr_eq_self_iff.mp heq
    · have heq := hsays.timestampMs
      rw [hts, ht, Option.some.injEq, Json.int.injEq] at heq
      exact toNat_cUint64_eq_iff.mp heq
    · rw [hpayload, Option.some.injEq] at hq
      rw [← hq] at hqp
      exact hvalue.mp hqp
  · intro hcrosses
    refine ⟨?_, ?_, ?_, ?_, env.payload, hpayload, hvalue.mpr hcrosses.payload⟩
    · rw [hsender, hs, cStr_eq_self_iff.mpr hcrosses.sender]
    · rw [hrecipient, hr, cStr_eq_self_iff.mpr hcrosses.recipient]
    · rw [hnonce, hn, cStr_eq_self_iff.mpr hcrosses.nonce]
    · rw [hts, ht, toNat_cUint64_eq_iff.mpr hcrosses.timestampMs]

end

/-! ### Samples -/

namespace Sample

/-- The first identity signs an object for a recipient. -/
def signedFor (recipient : Str) : Except Exc (Json Empty) :=
  P4Core.signEnvelopeOf (Crates.b64Encode Empty (key 1).val) (Str.lit "a") recipient ordered
    (Str.lit "n") 1000

theorem wellFormed_ordered : ordered.wellFormed = true := by decide +kernel

/-- What is signed for a recipient is a dictionary. -/
theorem signedFor_obj {recipient : Str} (h : (signedFor recipient).isOk = true) :
    ∃ m, signedFor recipient = .ok (.obj m) := by
  obtain ⟨v, hv⟩ := exists_ok h
  obtain ⟨env, rfl, -⟩ := signEnvelopeOf_toDict serdeReads serdeWrites base64Laws
    wellFormed_ordered hv
  exact ⟨_, hv⟩

end Sample

/-- A message to "b" and a NUL and more text is signed as a message to "b". -/
theorem nul_recipient_signed_altered :
    ∃ (priv sender recipient nonce : Str) (p : Json Empty) (m : Members Empty) (ts : Int),
    p.wellFormed = true ∧
    P4Core.signEnvelopeOf priv sender recipient p nonce ts = .ok (.obj m) ∧
    ¬ SaysWhatWasAsked m sender recipient nonce p ts := by
  have hok : (Sample.signedFor (Str.lit "b\x00c")).isOk = true := by decide +kernel
  obtain ⟨m, hm⟩ := Sample.signedFor_obj hok
  refine ⟨_, _, _, _, _, m, _, Sample.wellFormed_ordered, hm, fun hsays => ?_⟩
  obtain ⟨env, hdict, -, hrecipient, -⟩ := signEnvelopeOf_toDict Sample.serdeReads
    Sample.serdeWrites Sample.base64Laws Sample.wellFormed_ordered hm
  cases hdict
  -- the envelope has the recipient up to the NUL
  have heq : (Json.str env.recipientPeerId : Json Empty) = .str (Str.lit "b\x00c") :=
    Option.some.inj hsays.recipient
  rw [hrecipient, Json.str.injEq, cStr_eq_self_iff] at heq
  exact heq (by simp)

theorem signed_faithful_iff_sample : ∃ m, Sample.signedFor (Str.lit "b") = .ok (.obj m) ∧
    SaysWhatWasAsked m (Str.lit "a") (Str.lit "b") (Str.lit "n") Sample.ordered 1000 := by
  have hok : (Sample.signedFor (Str.lit "b")).isOk = true := by decide +kernel
  obtain ⟨m, hm⟩ := Sample.signedFor_obj hok
  exact ⟨m, hm, (signed_faithful_iff Sample.serdeReads Sample.serdeWrites Sample.base64Laws
    Sample.nearestDouble_empty Sample.wellFormed_ordered hm).mpr
      ⟨by simp, by simp, by simp, by decide, by decide +kernel⟩⟩

end P4

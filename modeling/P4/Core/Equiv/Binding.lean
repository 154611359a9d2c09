/-
  What a call through the Python binding does in the library.

  A string argument reaches the library up to its first NUL (`cStr`); JSON text is printable
  ASCII and passes whole.
-/
import P4.Core.Binding
import P4.Core.Equiv.Envelope
import P4.Json.Equiv.Loads
import Mathlib.Data.List.TakeWhile

namespace P4

/-! ### Strings at the boundary -/

/-- The part of a string that a C string holds. -/
def cStr (s : Str) : Str := s.takeWhile (· ≠ 0)

namespace Str

theorem ofChar_val (c : Char) : (ofChar c).val = c.toNat :=
  Nat.mod_eq_of_lt (Json.toNat_lt c)

theorem ofChar_eq_zero {c : Char} : ofChar c = 0 ↔ c = '\x00' := by
  constructor
  · intro h
    have hval : c.toNat = 0 := by
      rw [← ofChar_val, h]
      rfl
    rw [← Char.ofNat_toNat c, hval]
  · intro h
    rw [h]
    rfl

theorem not_isSurrogate_ofChar (c : Char) : isSurrogate (ofChar c) = false := by
  rw [isSurrogate, ofChar_val, Bool.and_eq_false_iff, decide_eq_false_iff_not,
    decide_eq_false_iff_not]
  have hv := c.valid
  have hval : c.val.toNat = c.toNat := rfl
  rcases hv with h | ⟨h, -⟩ <;> omega

theorem isScalar_ofText (t : Text) : (ofText t).isScalar = true := by
  rw [isScalar, ofText, List.all_map, List.all_eq_true]
  intro c _
  rw [Function.comp, not_isSurrogate_ofChar]
  rfl

/-- Only surrogates are no characters. -/
theorem ofChar_ofNat {c : CodePoint} (h : isSurrogate c = false) :
    ofChar (Char.ofNat c.val) = c := by
  rw [isSurrogate, Bool.and_eq_false_iff, decide_eq_false_iff_not, decide_eq_false_iff_not] at h
  have hvalid : Nat.isValidChar c.val := by
    have := c.isLt
    rcases h with h | h
    · exact Or.inl (by omega)
    · exact Or.inr ⟨by omega, by omega⟩
  apply Fin.ext
  rw [ofChar_val, Char.ofNat, dif_pos hvalid]
  rfl

/-- A text is a string without surrogates. -/
theorem toText?_ofText (t : Text) : (ofText t).toText? = some t := by
  rw [toText?, if_pos (isScalar_ofText t), ofText, List.map_map]
  have : t.map ((fun c : CodePoint => Char.ofNat c.val) ∘ ofChar) = t.map id := by
    refine List.map_congr_left fun c _ => ?_
    rw [Function.comp, ofChar_val, Char.ofNat_toNat]
    rfl
  rw [this, List.map_id]

theorem toText?_eq_some {s : Str} {t : Text} : s.toText? = some t ↔ s = ofText t := by
  constructor
  · intro h
    rw [toText?] at h
    split_ifs at h with hs
    rw [← Option.some.inj h, ofText, List.map_map]
    rw [isScalar, List.all_eq_true] at hs
    have : s.map (ofChar ∘ fun c : CodePoint => Char.ofNat c.val) = s.map id :=
      List.map_congr_left fun c hc => ofChar_ofNat (by simpa using hs c hc)
    rw [this, List.map_id]
  · intro h
    rw [h]
    exact toText?_ofText t

theorem ofText_injective {s t : Text} (h : ofText s = ofText t) : s = t := by
  have htext := toText?_ofText s
  rw [h, toText?_ofText] at htext
  exact (Option.some.inj htext).symm

theorem ofText_append (s t : Text) : ofText (s ++ t) = ofText s ++ ofText t := List.map_append

/-- The strings that UTF-8 can encode are the texts. -/
theorem isScalar_iff {s : Str} : s.isScalar = true ↔ ∃ t, s = ofText t := by
  constructor
  · intro h
    exact ⟨_, toText?_eq_some.mp (if_pos h)⟩
  · rintro ⟨t, rfl⟩
    exact isScalar_ofText t

theorem ofText_takeWhile (t : Text) :
    ofText (t.takeWhile (· ≠ '\x00')) = cStr (ofText t) := by
  rw [cStr, ofText, ofText, List.takeWhile_map]
  congr 2
  funext c
  rw [Function.comp, decide_eq_decide, not_iff_not]
  exact ofChar_eq_zero.symm

end Str

@[simp]
theorem zero_mem_lit {s : String} : 0 ∈ Str.lit s ↔ '\x00' ∈ s.toList := by
  simp only [Str.lit, Str.ofText, List.mem_map, Str.ofChar_eq_zero, exists_eq_right]

theorem encodeUtf8_ok {s : Str} {t : Text} : encodeUtf8 s = .ok t ↔ s = Str.ofText t := by
  rw [← Str.toText?_eq_some, encodeUtf8]
  cases s.toText? with
  | none =>
    constructor
    · intro h
      cases h
    · intro h
      cases h
  | some u =>
    constructor
    · intro h
      cases h
      rfl
    · intro h
      cases h
      rfl

/-- A string without NUL crosses the boundary whole. -/
theorem cStr_of_ne {s : Str} (h : ∀ c ∈ s, c ≠ 0) : cStr s = s := by
  rw [cStr, List.takeWhile_eq_self_iff]
  intro c hc
  exact decide_eq_true (h c hc)

theorem isScalar_cStr {s : Str} (h : s.isScalar = true) : (cStr s).isScalar = true := by
  rw [Str.isScalar, List.all_eq_true] at h ⊢
  exact fun c hc => h c ((List.takeWhile_sublist _).subset hc)

/-- Printable text is passed whole. -/
theorem takeWhile_of_printable {t : Text} (h : ∀ c ∈ t, Json.Printable c) :
    t.takeWhile (· ≠ '\x00') = t := by
  rw [List.takeWhile_eq_self_iff]
  intro c hc
  refine decide_eq_true ?_
  intro hz
  have hp := (h c hc).1
  rw [hz] at hp
  exact absurd hp (by decide)

theorem readCStr_ok (t : Text) (field : Str) :
    readCStr (some t) field = .ok (t.takeWhile (· ≠ '\x00')) := rfl

/-! ### Calls -/

section

variable {F : Type} [Crates F]

/-- The body of `p4_verify_envelope_json`. -/
theorem verifyEnvelopeJson_ok {envelope key : Text} {now skew : UInt64} :
    verifyEnvelopeJson F (some envelope) (some key) now skew = .ok () ↔
      ∃ (env : Envelope F) (K : VerifyingKey),
        Crates.envelopeFromStr (envelope.takeWhile (· ≠ '\x00')) = .ok env ∧
        verifyingKeyFromB64 F (cStr (Str.ofText key)) = .ok K ∧
        verifyEnvelope env K now skew = .ok () := by
  rw [verifyEnvelopeJson, readCStr_ok, readCStr_ok, ← Str.ofText_takeWhile]
  constructor
  · intro h
    obtain ⟨_, h₁, h⟩ := except_bind_ok.mp h
    cases h₁
    obtain ⟨_, h₁, h⟩ := except_bind_ok.mp h
    cases h₁
    obtain ⟨env, henv, h⟩ := except_bind_ok.mp h
    obtain ⟨K, hK, h⟩ := except_bind_ok.mp h
    exact ⟨env, K, mapError_ok.mp henv, hK, h⟩
  · rintro ⟨env, K, henv, hK, h⟩
    exact except_bind_ok.mpr ⟨_, rfl, except_bind_ok.mpr ⟨_, rfl, except_bind_ok.mpr
      ⟨env, mapError_ok.mpr henv, except_bind_ok.mpr ⟨K, hK, h⟩⟩⟩⟩

/-- The body of `p4_sign_envelope_json`. -/
theorem signEnvelopeJson_ok {priv sender recipient payload nonce text : Text} {ts : UInt64} :
    signEnvelopeJson F (some priv) (some sender) (some recipient) (some payload) ts
        (some nonce) = .ok text ↔
      ∃ (sk : SigningKey) (w : Json F) (env : Envelope F),
        signingKeyFromB64 F (cStr (Str.ofText priv)) = .ok sk ∧
        Crates.valueFromStr (payload.takeWhile (· ≠ '\x00')) = .ok w ∧
        signEnvelope sk (cStr (Str.ofText sender)) (cStr (Str.ofText recipient)) ts
          (cStr (Str.ofText nonce)) w = .ok env ∧
        Crates.envelopeToString env = .ok text := by
  simp only [← Str.ofText_takeWhile]
  rw [signEnvelopeJson, readCStr_ok, readCStr_ok, readCStr_ok, readCStr_ok, readCStr_ok]
  constructor
  · intro h
    -- the five strings are read without an error
    iterate 5
      obtain ⟨_, h₁, h⟩ := except_bind_ok.mp h
      cases h₁
    obtain ⟨sk, hsk, h⟩ := except_bind_ok.mp h
    obtain ⟨w, hw, h⟩ := except_bind_ok.mp h
    obtain ⟨env, henv, h⟩ := except_bind_ok.mp h
    exact ⟨sk, w, env, hsk, mapError_ok.mp hw, henv, mapError_ok.mp h⟩
  · rintro ⟨sk, w, env, hsk, hw, henv, htext⟩
    iterate 5 refine except_bind_ok.mpr ⟨_, rfl, ?_⟩
    exact except_bind_ok.mpr ⟨sk, hsk, except_bind_ok.mpr ⟨w, mapError_ok.mpr hw,
      except_bind_ok.mpr ⟨env, henv, mapError_ok.mpr htext⟩⟩⟩

/-- A string is returned when the body succeeded and its result is a C string. -/
theorem captured_ok {r : Except CoreError Text} {t : Text} :
    captured r = .ok t ↔ r = .ok t ∧ '\x00' ∉ t := by
  cases r with
  | error e =>
    constructor
    · intro h
      cases h
    · rintro ⟨h, -⟩
      cases h
  | ok u =>
    rw [captured]
    -- `CString::new` refuses a text with a NUL
    by_cases hu : '\x00' ∈ u
    · rw [if_pos hu]
      constructor
      · intro h
        cases h
      · rintro ⟨h, ht⟩
        cases h
        exact absurd hu ht
    · rw [if_neg hu]
      constructor
      · intro h
        cases h
        exact ⟨rfl, hu⟩
      · rintro ⟨h, -⟩
        cases h
        rfl

end

namespace P4Core

variable {F : Type} [JsonFloat F] [Crates F]

/-- `verify_envelope` returns exactly when the text of the dictionary is an envelope and the
library verifies it. -/
theorem verifyEnvelope_ok {msg : Members F} {key : Str} {skew now : Int} :
    verifyEnvelope msg key skew now = .ok () ↔
      key.isScalar = true ∧ ∃ (env : Envelope F) (K : VerifyingKey),
      Crates.envelopeFromStr (Json.dumpsCompact (.obj msg)) = .ok env ∧
      verifyingKeyFromB64 F (cStr key) = .ok K ∧
      P4.verifyEnvelope env K (cUint64 now) (cUint64 skew) = .ok () := by
  have hmsg := takeWhile_of_printable (Json.dumpsCompact_printable (Json.obj msg))
  have hbody : ∀ t : Text, verifyEnvelopeJson F (some (Json.dumpsCompact (Json.obj msg)))
      (some t) (cUint64 now) (cUint64 skew) = .ok () ↔
        ∃ (env : Envelope F) (K : VerifyingKey),
        Crates.envelopeFromStr (Json.dumpsCompact (.obj msg)) = .ok env ∧
        verifyingKeyFromB64 F (cStr (Str.ofText t)) = .ok K ∧
        P4.verifyEnvelope env K (cUint64 now) (cUint64 skew) = .ok () := by
    intro t
    rw [verifyEnvelopeJson_ok, hmsg]
  rw [verifyEnvelope, except_bind_ok]
  constructor
  · rintro ⟨t, ht, h⟩
    obtain rfl := encodeUtf8_ok.mp ht
    refine ⟨Str.isScalar_ofText t, (hbody t).mp ?_⟩
    split at h
    · assumption
    · cases h
  · rintro ⟨hkey, h⟩
    obtain ⟨t, rfl⟩ := Str.isScalar_iff.mp hkey
    refine ⟨t, encodeUtf8_ok.mpr rfl, ?_⟩
    rw [(hbody t).mpr h]

/-- A string is returned only if it has no NUL. -/
theorem takeString_captured_ok {r : Except CoreError Text} {t : Text} :
    takeString (captured r) = .ok t ↔ r = .ok t ∧ '\x00' ∉ t := by
  rw [← captured_ok]
  cases captured r with
  | error msg =>
    constructor <;> intro h <;> cases h
  | ok u =>
    constructor <;> intro h <;> cases h <;> rfl

/-- `sign_envelope` returns exactly when its strings can be encoded, the library signs and the
text it returns is read. -/
theorem signEnvelopeOf_ok {priv sender recipient nonce : Str} {payload v : Json F} {ts : Int} :
    signEnvelopeOf priv sender recipient payload nonce ts = .ok v ↔
      (priv.isScalar = true ∧ sender.isScalar = true ∧ recipient.isScalar = true ∧
        nonce.isScalar = true) ∧
      ∃ (sk : SigningKey) (w : Json F) (env : Envelope F) (text : Text),
        signingKeyFromB64 F (cStr priv) = .ok sk ∧
        Crates.valueFromStr (Json.dumpsCompact payload) = .ok w ∧
        P4.signEnvelope sk (cStr sender) (cStr recipient) (cUint64 ts) (cStr nonce) w = .ok env ∧
        Crates.envelopeToString env = .ok text ∧ '\x00' ∉ text ∧ Json.loads text = some v := by
  -- the printed payload has no NUL, so all of it is read
  have hpay := takeWhile_of_printable (Json.dumpsCompact_printable payload)
  rw [signEnvelopeOf]
  constructor
  · intro h
    obtain ⟨tp, hp, h⟩ := except_bind_ok.mp h
    obtain ⟨tsd, hs, h⟩ := except_bind_ok.mp h
    obtain ⟨tr, hr, h⟩ := except_bind_ok.mp h
    obtain ⟨tn, hn, h⟩ := except_bind_ok.mp h
    obtain ⟨text, ht, hload⟩ := except_bind_ok.mp h
    obtain rfl := encodeUtf8_ok.mp hp
    obtain rfl := encodeUtf8_ok.mp hs
    obtain rfl := encodeUtf8_ok.mp hr
    obtain rfl := encodeUtf8_ok.mp hn
    obtain ⟨ht, hnul⟩ := takeString_captured_ok.mp ht
    obtain ⟨sk, w, env, hsk, hw, henv, htext⟩ := signEnvelopeJson_ok.mp ht
    rw [hpay] at hw
    refine ⟨⟨Str.isScalar_ofText _, Str.isScalar_ofText _, Str.isScalar_ofText _,
      Str.isScalar_ofText _⟩, sk, w, env, text, hsk, hw, henv, htext, hnul, ?_⟩
    split at hload
    · cases hload
      assumption
    · cases hload
  · rintro ⟨⟨hp, hs, hr, hn⟩, sk, w, env, text, hsk, hw, henv, htext, hnul, hload⟩
    obtain ⟨tp, rfl⟩ := Str.isScalar_iff.mp hp
    obtain ⟨tsd, rfl⟩ := Str.isScalar_iff.mp hs
    obtain ⟨tr, rfl⟩ := Str.isScalar_iff.mp hr
    obtain ⟨tn, rfl⟩ := Str.isScalar_iff.mp hn
    refine except_bind_ok.mpr ⟨tp, encodeUtf8_ok.mpr rfl, except_bind_ok.mpr
      ⟨tsd, encodeUtf8_ok.mpr rfl, except_bind_ok.mpr ⟨tr, encodeUtf8_ok.mpr rfl,
      except_bind_ok.mpr ⟨tn, encodeUtf8_ok.mpr rfl, except_bind_ok.mpr ⟨text, ?_, ?_⟩⟩⟩⟩⟩
    · rw [← hpay] at hw
      exact takeString_captured_ok.mpr
        ⟨signEnvelopeJson_ok.mpr ⟨sk, w, env, hsk, hw, henv, htext⟩, hnul⟩
    · rw [hload]

/-- A signed envelope was parsed back from the text that the library returned. -/
theorem signEnvelope_ok {priv sender recipient nonce : Str} {payload : Members F} {ts : Int}
    {v : Json F} :
    signEnvelope priv sender recipient payload nonce ts = .ok v ↔
      (priv.isScalar = true ∧ sender.isScalar = true ∧ recipient.isScalar = true ∧
        nonce.isScalar = true) ∧
      ∃ (sk : SigningKey) (w : Json F) (env : Envelope F) (text : Text),
        signingKeyFromB64 F (cStr priv) = .ok sk ∧
        Crates.valueFromStr (Json.dumpsCompact (.obj payload)) = .ok w ∧
        P4.signEnvelope sk (cStr sender) (cStr recipient) (cUint64 ts) (cStr nonce) w = .ok env ∧
        Crates.envelopeToString env = .ok text ∧ '\x00' ∉ text ∧ Json.loads text = some v :=
  signEnvelopeOf_ok

end P4Core

end P4

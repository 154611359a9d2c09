/-
  The error text that a call of the C ABI leaves behind.

  Of all the strings that an error text embeds, only the sender in a peer id mismatch comes from
  the caller unescaped, and a NUL in it makes `p4_last_error_message` return null.  As long as no
  envelope with such a sender is verified, the text is there, and it is empty exactly after a
  call that succeeded (`reports_iff`).
-/
import P4.Core.Abi
import P4.Core.Equiv.Binding
import P4.Core.Laws
import P4.Node.Equiv.Build
import P4.Sample.Equiv.Laws

namespace P4

/-! ### Error texts -/

/-- The strings that an error text embeds. -/
def CoreError.embedded : CoreError → List Str
  | invalidBase64 e => [e]
  | invalidKeyLength label _ _ => [label]
  | json e => [e]
  | canonicalization e => [e]
  | peerIdMismatch expected actual => [expected, actual]
  | _ => []

theorem zero_not_mem_decimal (n : Nat) : 0 ∉ decimal n := by
  intro h
  obtain ⟨c, hc, hzero⟩ := List.mem_map.mp h
  have hdigit := Nat.isDigit_of_mem_toDigits (by decide) (by decide) hc
  rw [Str.ofChar_eq_zero] at hzero
  rw [hzero] at hdigit
  cases hdigit

/-- An error text has a NUL exactly when a string that it embeds has one. -/
theorem zero_mem_display (e : CoreError) :
    0 ∈ e.display ↔ ∃ s ∈ e.embedded, 0 ∈ s := by
  cases e <;>
    simp [CoreError.display, CoreError.embedded, zero_not_mem_decimal]

/-- No error has the text that stands for success. -/
theorem display_ne_nil (e : CoreError) : e.display ≠ [] := by
  cases e <;> simp [CoreError.display, Str.lit, Str.ofText]

/-! ### The errors of the functions -/

/-- The error, if it is one, has no NUL in its text. -/
def Clean {α : Type} (body : Except CoreError α) : Prop := ∀ e, body = .error e → 0 ∉ e.display

theorem Clean.ok {α : Type} (a : α) : Clean (.ok a) := by
  intro e he
  cases he

theorem clean_error {α : Type} {e : CoreError} (h : ∀ s ∈ e.embedded, 0 ∉ s) :
    Clean (.error e : Except CoreError α) := by
  intro e' he
  cases he
  rw [zero_mem_display]
  rintro ⟨s, hs, hzero⟩
  exact h s hs hzero

theorem Clean.bind {α β : Type} {x : Except CoreError α} {f : α → Except CoreError β}
    (hx : Clean x) (hf : ∀ a, x = .ok a → Clean (f a)) : Clean (x >>= f) := by
  cases x with
  | error e => exact fun e' he => hx e' (by cases he; rfl)
  | ok a => exact hf a rfl

theorem Clean.map {α β : Type} {x : Except CoreError α} (hx : Clean x) (f : α → β) :
    Clean (x.map f) := by
  cases x with
  | error e => exact fun e' he => hx e' (by cases he; rfl)
  | ok a => exact Clean.ok _

theorem clean_mapError {ε α : Type} {x : Except ε α} {f : ε → CoreError}
    (h : ∀ e, x = .error e → ∀ s ∈ (f e).embedded, 0 ∉ s) : Clean (x.mapError f) := by
  cases x with
  | error e => exact clean_error (h e rfl)
  | ok a => exact Clean.ok a

theorem clean_readCStr (ptr : Option Text) {field : Str} (hfield : 0 ∉ field) :
    Clean (readCStr ptr field) := by
  cases ptr with
  | none =>
    refine clean_error fun s hs => ?_
    have hlit : 0 ∉ Str.lit " pointer is null" := by simp
    rw [List.mem_singleton.mp hs, List.mem_append, not_or]
    exact ⟨hfield, hlit⟩
  | some t => exact Clean.ok _

section

variable {F : Type} [Crates F]

theorem clean_decodeFixedLenB64 (hlaws : ErrorTexts F) (text : Str) (n : Nat) (label : Str)
    (hlabel : 0 ∉ label) : Clean (decodeFixedLenB64 F text n label) := by
  unfold decodeFixedLenB64
  split
  · rename_i e he
    refine clean_error fun s hs => ?_
    rw [List.mem_singleton.mp hs]
    exact hlaws.base64 text e he
  · split_ifs
    · exact Clean.ok _
    · refine clean_error fun s hs => ?_
      rw [List.mem_singleton.mp hs]
      exact hlabel

theorem clean_verifyingKeyFromB64 (hlaws : ErrorTexts F) (text : Str) :
    Clean (verifyingKeyFromB64 F text) := by
  have hdecode := clean_decodeFixedLenB64 hlaws text 32 (Str.lit "public key") (by simp)
  unfold verifyingKeyFromB64
  split
  · rename_i e he
    exact fun e' he' => hdecode e' (by cases he'; exact he)
  · rename_i bytes _
    split
    · rename_i e he
      refine clean_error fun s hs => ?_
      rw [List.mem_singleton.mp hs]
      exact hlaws.key bytes e he
    · exact Clean.ok _

theorem clean_peerIdFromPublicKeyB64 (hlaws : ErrorTexts F) (text : Str) :
    Clean (peerIdFromPublicKeyB64 F text) := by
  have hdecode := clean_decodeFixedLenB64 hlaws text 32 (Str.lit "public key") (by simp)
  unfold peerIdFromPublicKeyB64
  split
  · rename_i e he
    exact fun e' he' => hdecode e' (by cases he'; exact he)
  · exact Clean.ok _

theorem clean_signEnvelope (hlaws : ErrorTexts F) (key : SigningKey)
    (sender recipient : Str) (ts : UInt64) (nonce : Str) (payload : Json F) :
    Clean (signEnvelope key sender recipient ts nonce payload) := by
  unfold signEnvelope
  dsimp only
  split
  · rename_i e he
    refine clean_error fun s hs => ?_
    rw [List.mem_singleton.mp hs]
    exact hlaws.jcs _ e he
  · exact Clean.ok _

/-- Signing embeds no string of the caller as it is. -/
theorem clean_signEnvelopeJson (hlaws : ErrorTexts F)
    (priv sender recipient payload nonce : Option Text) (ts : UInt64) :
    Clean (signEnvelopeJson F priv sender recipient payload ts nonce) := by
  unfold signEnvelopeJson
  refine (clean_readCStr priv (by simp)).bind fun _ _ => ?_
  refine (clean_readCStr sender (by simp)).bind fun _ _ => ?_
  refine (clean_readCStr recipient (by simp)).bind fun _ _ => ?_
  refine (clean_readCStr payload (by simp)).bind fun raw _ => ?_
  refine (clean_readCStr nonce (by simp)).bind fun _ _ => ?_
  refine (clean_decodeFixedLenB64 hlaws _ 32 _ (by simp)).bind fun _ _ => ?_
  refine Clean.bind (clean_mapError fun e he s hs => ?_) fun _ _ => ?_
  · rw [List.mem_singleton.mp hs]
    exact hlaws.value raw e he
  · refine (clean_signEnvelope hlaws _ _ _ _ _ _).bind fun env _ => ?_
    refine clean_mapError fun e he s hs => ?_
    rw [List.mem_singleton.mp hs]
    exact hlaws.write env e he

/-! ### The sender of an envelope -/

/-- The error text of `verify_envelope` has a NUL exactly when the sender has one, in an envelope
of the right version. -/
theorem clean_verifyEnvelope_iff (hlaws : ErrorTexts F) (env : Envelope F) (key : VerifyingKey)
    (now skew : UInt64) : Clean (verifyEnvelope env key now skew) ↔
      ¬ (env.protocolVersion = protocolVersion ∧ 0 ∈ env.senderPeerId) := by
  have hexpected : 0 ∉ peerIdFromPublicKeyBytes F key.val := by
    intro hzero
    have hplain := plain_peerIdFromPublicKeyBytes (F := F) key.val 0 hzero
    exact absurd hplain.1 (by decide)
  unfold verifyEnvelope
  dsimp only
  -- the version, the sender, the timestamp, and then the signature
  split_ifs with hversion hsender hskew
  · refine iff_of_true (clean_error fun s hs => nomatch hs) ?_
    rintro ⟨h, -⟩
    exact hversion h
  · rw [not_ne_iff] at hversion
    constructor
    · rintro hclean ⟨-, hzero⟩
      refine hclean _ rfl ((zero_mem_display _).mpr ⟨_, ?_, hzero⟩)
      exact List.mem_cons_of_mem _ (List.mem_cons_self ..)
    · intro hnot
      refine clean_error fun s hs => ?_
      rcases List.mem_cons.mp hs with rfl | hs
      · -- the two strings of the error are the key's peer id and the sender
        exact hexpected
      · rw [List.mem_singleton.mp hs]
        exact fun hzero => hnot ⟨hversion, hzero⟩
  · rw [not_ne_iff] at hsender
    refine iff_of_true (clean_error fun s hs => nomatch hs) ?_
    rintro ⟨-, h⟩
    rw [hsender] at h
    exact hexpected h
  · rw [not_ne_iff] at hsender
    refine iff_of_true ?_ ?_
    · -- the sender is the key's peer id, so what is left are the crates' own texts
      split
      · rename_i e he
        refine clean_error fun s hs => ?_
        rw [List.mem_singleton.mp hs]
        exact hlaws.jcs _ e he
      · split
        · rename_i e he
          refine clean_error fun s hs => ?_
          rw [List.mem_singleton.mp hs]
          exact hlaws.base64 _ e he
        · split_ifs
          · exact Clean.ok _
          · exact clean_error fun s hs => nomatch hs
          · exact clean_error fun s hs => nomatch hs
    · rintro ⟨-, h⟩
      rw [hsender] at h
      exact hexpected h

variable (F) in
/-- The call verifies an envelope of the right version with a NUL in its sender, under a key that
can be read. -/
def AbiCall.EmbedsNul : AbiCall → Prop
  | verifyEnvelopeJson (some envelope) (some key) _ _ => ∃ (env : Envelope F) (K : VerifyingKey),
    Crates.envelopeFromStr (envelope.takeWhile (· ≠ '\x00')) = .ok env ∧
    verifyingKeyFromB64 F (Str.ofText (key.takeWhile (· ≠ '\x00'))) = .ok K ∧
    env.protocolVersion = protocolVersion ∧ 0 ∈ env.senderPeerId
  | _ => False

/-- The error text of `p4_verify_envelope_json` has no NUL unless it embeds one. -/
theorem clean_verifyEnvelopeJson_iff (hlaws : ErrorTexts F) (envelope key : Option Text)
    (now skew : UInt64) : Clean (verifyEnvelopeJson F envelope key now skew) ↔
      ¬ (AbiCall.verifyEnvelopeJson envelope key now skew).EmbedsNul F := by
  have hfields : 0 ∉ Str.lit "envelope_json" ∧ 0 ∉ Str.lit "signer_public_key_b64" := by
    simp
  -- a null pointer is reported before the strings are read
  cases envelope with
  | none => exact iff_of_true ((clean_readCStr none hfields.1).bind fun _ h => nomatch h) id
  | some envelope =>
    cases key with
    | none =>
      refine iff_of_true ?_ id
      exact (clean_readCStr (some envelope) hfields.1).bind fun _ _ =>
        (clean_readCStr none hfields.2).bind fun _ h => nomatch h
    | some key =>
      rw [verifyEnvelopeJson, readCStr_ok, readCStr_ok, AbiCall.EmbedsNul]
      show Clean ((Except.mapError .json (Crates.envelopeFromStr _)).bind fun env =>
        (verifyingKeyFromB64 F _).bind fun K => verifyEnvelope env K now skew) ↔ _
      cases henv : Crates.envelopeFromStr (F := F) (envelope.takeWhile (· ≠ '\x00')) with
      | error e =>
        refine iff_of_true (clean_error fun s hs => ?_) ?_
        · rw [List.mem_singleton.mp hs]
          exact hlaws.envelope _ e henv
        · rintro ⟨env, K, h, -⟩
          cases h
      | ok env =>
        cases hK : verifyingKeyFromB64 F (Str.ofText (key.takeWhile (· ≠ '\x00'))) with
        | error e =>
          refine iff_of_true (fun e' he => ?_) ?_
          · cases he
            exact clean_verifyingKeyFromB64 hlaws _ e hK
          · rintro ⟨env', K, -, h, -⟩
            cases h
        | ok K =>
          show Clean (verifyEnvelope env K now skew) ↔ _
          rw [clean_verifyEnvelope_iff hlaws, not_iff_not]
          constructor
          · intro h
            exact ⟨env, K, rfl, rfl, h⟩
          · rintro ⟨env', K', henv', -, h⟩
            cases henv'
            exact h

end

/-! ### Runs -/

/-- After a run `p4_last_error_message` returns a string, and right after one of the other
functions the string is empty exactly when the call succeeded. -/
def Reports (c : Config (Option Str) (AbiCall × AbiResult)) : Prop :=
  ∃ m, lastErrorMessage c.state = some m ∧ ∀ call result past, c.log = (call, result) :: past →
    call.captures = true → (m = [] ↔ result.succeeded = true)

/-- The text is returned whole, or null. -/
theorem lastErrorMessage_eq_some {last : Option Str} {m : Str} :
    lastErrorMessage last = some m ↔ 0 ∉ last.getD [] ∧ m = last.getD [] := by
  rw [lastErrorMessage, intoCStringPtr]
  split_ifs with h
  · constructor
    · intro heq
      cases heq
    · rintro ⟨hnot, -⟩
      exact absurd h hnot
  · constructor
    · intro heq
      exact ⟨h, (Option.some.inj heq).symm⟩
    · rintro ⟨-, rfl⟩
      rfl

theorem zero_not_mem_intoCStringPtr {value : Str} {last : Option Str} (h : 0 ∉ last.getD []) :
    0 ∉ (intoCStringPtr value last).2.getD [] := by
  rw [intoCStringPtr]
  split_ifs
  · have hlit : 0 ∉ Str.lit
        "failed to create C string: nul byte found in provided data at position: " := by
      simp
    rw [Option.getD_some, List.mem_append, not_or]
    exact ⟨hlit, zero_not_mem_decimal _⟩
  · exact h

/-- A function that returns a string leaves a text without a NUL, empty exactly when it returns
one. -/
theorem stringCall_reports {body : Except CoreError Str} (h : Clean body) :
    0 ∉ (stringCall body).2.getD [] ∧
      ((stringCall body).2.getD [] = [] ↔ (stringCall body).1.isSome = true) := by
  cases body with
  | error e =>
    refine ⟨h e rfl, iff_of_false (display_ne_nil e) ?_⟩
    exact Bool.false_ne_true
  | ok value =>
    refine ⟨zero_not_mem_intoCStringPtr (List.not_mem_nil (a := 0)), ?_⟩
    show (intoCStringPtr value none).2.getD [] = [] ↔ (intoCStringPtr value none).1.isSome = true
    rw [intoCStringPtr]
    split_ifs
    · refine iff_of_false ?_ Bool.false_ne_true
      simp [Str.lit, Str.ofText]
    · exact iff_of_true rfl rfl

/-! ### The binding -/

theorem utf8Len_ofChar (c : Char) : utf8Len (Str.ofChar c) = c.utf8Size := by
  rw [utf8Len, Str.ofChar_val, Char.utf8Size]
  simp only [UInt32.le_iff_toNat_le, ← Char.toNat_val]
  split_ifs <;> first | rfl | (simp at *; omega)

theorem zero_mem_ofText {t : Text} : 0 ∈ Str.ofText t ↔ '\x00' ∈ t := by
  rw [Str.ofText, List.mem_map]
  constructor
  · rintro ⟨c, hc, hzero⟩
    rwa [Str.ofChar_eq_zero.mp hzero] at hc
  · intro h
    exact ⟨_, h, rfl⟩

/-- The result that the binding takes and the text that it asks for are those of the call. -/
theorem stringCall_captured (r : Except CoreError Text) :
    stringCall (r.map Str.ofText) =
      match captured r with
      | .ok t => (some (Str.ofText t), none)
      | .error msg => (none, some msg) := by
  cases r with
  | error e => rfl
  | ok t =>
    have hpos : ((Str.ofText t).takeWhile (· ≠ 0)).map utf8Len =
        (t.takeWhile (· ≠ '\x00')).map Char.utf8Size := by
      rw [← cStr, ← Str.ofText_takeWhile, Str.ofText, List.map_map]
      exact List.map_congr_left fun c _ => utf8Len_ofChar c
    show intoCStringPtr (Str.ofText t) none = _
    rw [intoCStringPtr, captured, hpos]
    by_cases hnul : '\x00' ∈ t
    · rw [if_pos (zero_mem_ofText.mpr hnul), if_pos hnul]
    · rw [if_neg (fun h => hnul (zero_mem_ofText.mp h)), if_neg hnul]

/-- The Python binding has a text of its own for a null. -/
theorem lastError_eq (msg : Str) :
    lastError msg = (lastErrorMessage (some msg)).getD (Str.lit "unknown error") := by
  rw [lastError, lastErrorMessage, intoCStringPtr, Option.getD_some]
  split_ifs <;> rfl

section

variable {F : Type} [JsonFloat F] [Crates F]

/-- What a call leaves behind when it embeds no NUL. -/
theorem run_reports (hlaws : ErrorTexts F) {last : Option Str} (hlast : 0 ∉ last.getD [])
    {call : AbiCall} (hcall : ¬ call.EmbedsNul F) :
    0 ∉ (call.run F last).2.getD [] ∧ (call.captures = true →
      ((call.run F last).2.getD [] = [] ↔ (call.run F last).1.succeeded = true)) := by
  cases call with
  | generateIdentityJson key =>
    obtain ⟨h₁, h₂⟩ := stringCall_reports (Clean.ok (Str.ofText (generateIdentityJson F key)))
    exact ⟨h₁, fun _ => h₂⟩
  | peerIdFromPublicKeyB64 publicKeyB64 =>
    have hclean : Clean (readCStr publicKeyB64 (Str.lit "public_key_b64") >>= fun key =>
        peerIdFromPublicKeyB64 F (Str.ofText key)) :=
      (clean_readCStr publicKeyB64 (by simp)).bind fun _ _ =>
        clean_peerIdFromPublicKeyB64 hlaws _
    obtain ⟨h₁, h₂⟩ := stringCall_reports hclean
    exact ⟨h₁, fun _ => h₂⟩
  | signEnvelopeJson priv sender recipient payload ts nonce =>
    obtain ⟨h₁, h₂⟩ := stringCall_reports
      ((clean_signEnvelopeJson hlaws priv sender recipient payload nonce ts).map Str.ofText)
    exact ⟨h₁, fun _ => h₂⟩
  | verifyEnvelopeJson envelope key now skew =>
    -- the only body whose error can have a NUL
    have hclean := (clean_verifyEnvelopeJson_iff hlaws envelope key now skew).mpr hcall
    rw [AbiCall.run]
    cases hbody : verifyEnvelopeJson F envelope key now skew with
    | error e =>
      refine ⟨hclean e hbody, fun _ => iff_of_false (display_ne_nil e) ?_⟩
      exact fun h => nomatch h
    | ok u => exact ⟨fun hm => (nomatch hm), fun _ => iff_of_true rfl rfl⟩
  | lastErrorMessage => exact ⟨zero_not_mem_intoCStringPtr hlast, fun h => nomatch h⟩
  | freeString => exact ⟨hlast, fun h => nomatch h⟩

/-- A call that embeds a NUL leaves it in the text. -/
theorem zero_mem_of_embedsNul (hlaws : ErrorTexts F) {call : AbiCall} (h : call.EmbedsNul F)
    (last : Option Str) : 0 ∈ (call.run F last).2.getD [] := by
  cases call with
  | verifyEnvelopeJson envelope key now skew =>
    have hclean : ¬ Clean (verifyEnvelopeJson F envelope key now skew) :=
      fun hc => (clean_verifyEnvelopeJson_iff hlaws envelope key now skew).mp hc h
    unfold Clean at hclean
    push Not at hclean
    obtain ⟨e, he, hzero⟩ := hclean
    rw [AbiCall.run, he]
    exact hzero
  | _ => cases h

theorem abi_total (c : Config (Option Str) (AbiCall × AbiResult)) (as : List AbiCall) :
    ∃ d, (abi F).run c as = some d := by
  induction as generalizing c with
  | nil => exact ⟨c, rfl⟩
  | cons call as ih => exact ih _

/-- In a sequence of calls, what `p4_last_error_message` returns after each of them is as it
should be exactly when no call verifies an envelope with a NUL in its sender.

The stored text has no NUL as long as no call embeds one, and is empty exactly after a success; the
first call that embeds a NUL leaves a text that cannot be returned. -/
theorem reports_iff (hlaws : ErrorTexts F) (as : List AbiCall) :
    (∀ pre rest c, as = pre ++ rest → (abi F).run ⟨none, []⟩ pre = some c → Reports c) ↔
      ∀ call ∈ as, ¬ call.EmbedsNul F := by
  constructor
  · intro h call hcall hembeds
    obtain ⟨pre, rest, rfl⟩ := List.append_of_mem hcall
    obtain ⟨c, hc⟩ := abi_total (F := F) ⟨none, []⟩ pre
    have hrun : (abi F).run ⟨none, []⟩ (pre ++ [call]) = some _ := Machine.run_snoc hc rfl
    obtain ⟨m, hm, -⟩ := h (pre ++ [call]) rest _ (by rw [List.append_assoc]; rfl) hrun
    -- the text that the call leaves has a NUL
    exact (lastErrorMessage_eq_some.mp hm).1 (zero_mem_of_embedsNul hlaws hembeds c.state)
  · intro h pre rest c has hrun
    have hok : (abi F).Meets (fun _ call => ¬ call.EmbedsNul F) ⟨none, []⟩ pre := by
      refine Machine.meets_of_forall (fun call hcall => h call ?_) _
      rw [has]
      exact List.mem_append_left _ hcall
    have key : 0 ∉ c.state.getD [] ∧ ∀ call result past, c.log = (call, result) :: past →
        call.captures = true → (c.state.getD [] = [] ↔ result.succeeded = true) := by
      refine Machine.run_invariant_of_meets (P := fun c => 0 ∉ c.state.getD [] ∧
        ∀ call result past, c.log = (call, result) :: past → call.captures = true →
          (c.state.getD [] = [] ↔ result.succeeded = true)) ?_ ⟨?_, ?_⟩ hok hrun
      · rintro d call d' ⟨hclean, -⟩ hcall hnext
        obtain ⟨out, hs, hlog⟩ := Machine.next_eq_some.mp hnext
        have hs' : some ((call.run F d.state).2, [(call, (call.run F d.state).1)]) =
            some (d'.state, out) := hs
        rw [Option.some.injEq, Prod.mk.injEq] at hs'
        obtain ⟨hclean', hreports⟩ := run_reports hlaws hclean hcall
        rw [hs'.1] at hclean' hreports
        refine ⟨hclean', fun call' result past hlog' => ?_⟩
        rw [hlog, ← hs'.2] at hlog'
        cases hlog'
        exact hreports
      · exact fun hm => nomatch hm
      · intro call result past hlog
        cases hlog
    exact ⟨_, lastErrorMessage_eq_some.mpr ⟨key.1, rfl⟩, key.2⟩

end

/-! ### A sender with a NUL -/

namespace Sample

/-- The text of an envelope whose sender is a NUL. -/
def nulEnvelope : Text :=
  Json.dumpsCompact (F := Empty) (.obj (Envelope.toDict
    { protocolVersion := 1
      senderPeerId := [0]
      recipientPeerId := []
      timestampMs := 1000
      nonce := []
      payload := .null
      signatureB64 := [] }))

/-- The call that verifies it. -/
def nulCall : AbiCall :=
  .verifyEnvelopeJson (some nulEnvelope) ((identity 1).publicKeyB64.toText?) 1000 0

/-- A call that fails, and one that succeeds. -/
def plainCalls : List AbiCall := [.peerIdFromPublicKeyB64 none, .generateIdentityJson (key 1)]

end Sample

/-- After the envelope was verified, `p4_last_error_message` returns null. -/
theorem nul_sender_hides_error : ∃ c, ErrorTexts Empty ∧
    (abi Empty).run ⟨none, []⟩ [Sample.nulCall] = some c ∧ lastErrorMessage c.state = none ∧
    ¬ Reports c := by
  have hnone : (lastErrorMessage (Sample.nulCall.run Empty none).2).isNone = true := by
    decide +kernel
  rw [Option.isNone_iff_eq_none] at hnone
  obtain ⟨r, hr⟩ : ∃ r, r = Sample.nulCall.run Empty none := ⟨_, rfl⟩
  have hstep : abi Empty none Sample.nulCall = some (r.2, [(Sample.nulCall, r.1)]) := by
    rw [hr]
    rfl
  have hrun : (abi Empty).run ⟨none, []⟩ ([] ++ [Sample.nulCall]) =
      some ⟨r.2, [(Sample.nulCall, r.1)].reverse ++ []⟩ :=
    Machine.run_snoc (d := ⟨none, []⟩) rfl hstep
  rw [← hr] at hnone
  refine ⟨_, Sample.errorTexts, hrun, hnone, ?_⟩
  rintro ⟨m, hm, -⟩
  have hm' : lastErrorMessage r.2 = some m := hm
  rw [hnone] at hm'
  cases hm'

theorem reports_iff_sample : ∃ c, (abi Empty).run ⟨none, []⟩ Sample.plainCalls = some c ∧
    Reports c := by
  have hcalls : ∀ call ∈ Sample.plainCalls, ¬ call.EmbedsNul Empty := by
    simp [Sample.plainCalls, AbiCall.EmbedsNul]
  obtain ⟨c, hc⟩ := abi_total (F := Empty) ⟨none, []⟩ Sample.plainCalls
  exact ⟨c, hc, (reports_iff Sample.errorTexts Sample.plainCalls).mpr hcalls _ [] c
    (List.append_nil _).symm hc⟩

end P4

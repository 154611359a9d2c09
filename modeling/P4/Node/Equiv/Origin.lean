/-
  Where a message comes from.

  `Carries msg identity call` says that the message has the sender, recipient, nonce and the
  texts of the payload of a call of `_build_message`.  A message carries a call when it was read
  from the line of the envelope that the call returned (`carries_of_line`), and also when its
  signature verified on the bytes that the call signed (`Verified.carries`): the two readers of
  the message and the two writers of the envelope agree on everything but numbers.
-/
import P4.Node.Equiv.Acceptance
import P4.Node.Equiv.Delivery

namespace P4

namespace Json

variable {F : Type}

/-! ### Texts of an object -/

/-- A value that is a text. -/
def text? : Json F → Option Str
  | .str s => some s
  | _ => none

/-- The text that an object has under a key. -/
def textAt (v : Json F) (k : Str) : Option Str :=
  match v with
  | .obj m => (Dict.get? m k).bind text?
  | _ => none

theorem text?_eq_some {v : Json F} {s : Str} : v.text? = some s ↔ v = .str s := by
  cases v <;> simp [text?]

theorem textAt_obj {m : Members F} {k s : Str} :
    (Json.obj m).textAt k = some s ↔ Dict.get? m k = some (.str s) := by
  show (Dict.get? m k).bind text? = some s ↔ _
  rw [Option.bind_eq_some_iff]
  constructor
  · rintro ⟨v, hv, ht⟩
    rw [hv, text?_eq_some.mp ht]
  · intro h
    exact ⟨_, h, rfl⟩

theorem text?_canon (v : Json F) : v.canon.text? = v.text? := by
  cases v with
  | arr l =>
    rw [canon_arr]
    rfl
  | obj m =>
    rw [canon_obj]
    rfl
  | _ => rfl

theorem text?_of_isNumeral {v : Json F} (h : v.isNumeral = true) : v.text? = none := by
  cases v <;> first | rfl | cases h

theorem text?_mapLeaves {f : Json F → Json F} (hf : NumberMap f) (v : Json F) :
    (v.mapLeaves f).text? = v.text? := by
  cases v with
  | null =>
    show (f .null).text? = _
    rw [hf.null]
  | bool b =>
    show (f (.bool b)).text? = _
    rw [hf.bool]
  | str s =>
    show (f (.str s)).text? = _
    rw [hf.str]
  | int i => exact text?_of_isNumeral (hf.int i)
  | float x => exact text?_of_isNumeral (hf.float x)
  | arr l =>
    rw [mapLeaves_arr]
    rfl
  | obj m =>
    rw [mapLeaves_obj]
    rfl

/-- The order of members does not matter for texts. -/
theorem textAt_canon {v : Json F} (hv : v.wellFormed = true) (k : Str) :
    v.canon.textAt k = v.textAt k := by
  cases v with
  | obj m =>
    rw [canon_obj]
    show (Dict.get? (sortMembers _) k).bind text? = (Dict.get? m k).bind text?
    rw [get?_canon (wellFormed_obj.mp hv).1, Option.bind_map]
    exact congrArg _ (funext text?_canon)
  | arr l =>
    rw [canon_arr]
    rfl
  | _ => rfl

/-- Rewriting numbers leaves texts alone. -/
theorem textAt_mapLeaves {f : Json F → Json F} (hf : NumberMap f) (v : Json F) (k : Str) :
    (v.mapLeaves f).textAt k = v.textAt k := by
  have hnumber : ∀ x : Json F, x.isNumeral = true → x.textAt k = none := by
    intro x hx
    cases x <;> first | rfl | cases hx
  cases v with
  | null =>
    show (f .null).textAt k = _
    rw [hf.null]
  | bool b =>
    show (f (.bool b)).textAt k = _
    rw [hf.bool]
  | str s =>
    show (f (.str s)).textAt k = _
    rw [hf.str]
  | int i => exact hnumber _ (hf.int i)
  | float x => exact hnumber _ (hf.float x)
  | arr l =>
    rw [mapLeaves_arr]
    rfl
  | obj m =>
    rw [mapLeaves_obj]
    show (Dict.get? (m.map _) k).bind text? = (Dict.get? m k).bind text?
    rw [Dict.get?_map, Option.bind_map]
    exact congrArg _ (funext (text?_mapLeaves hf))

variable [Float64 F]

/-- A reader keeps the texts. -/
theorem textAt_readBack {v w : Json F} (hv : v.wellFormed = true) (h : v.readBack = some w)
    (k : Str) : w.textAt k = v.textAt k := by
  rw [readBack_eq_some h, textAt_canon (wellFormed_mapLeaves_serdeLeaf hv),
    textAt_mapLeaves numberMap_serdeLeaf]

/-- What JCS keeps of a value determines its texts. -/
theorem textAt_of_doubleForm_eq {v w : Json F} (hv : v.wellFormed = true)
    (hw : w.wellFormed = true) (h : v.doubleForm = w.doubleForm) (k : Str) :
    v.textAt k = w.textAt k := by
  have hform : ∀ {x : Json F}, x.wellFormed = true → x.doubleForm.textAt k = x.textAt k := by
    intro x hx
    rw [doubleForm, canon_mapLeaves numberMap_doubleLeaf, textAt_mapLeaves numberMap_doubleLeaf,
      textAt_canon hx]
  rw [← hform hv, h, hform hw]

end Json

variable {F : Type} [Float64 F] [Crates F]

/-! ### Calls -/

/-- The message has the contents of a call of `_build_message`, apart from numbers. -/
structure Carries (msg : Members F) (identity : Identity F) (call : BuildCall F) : Prop where
  sender : Dict.get? msg Field.senderPeerId = some (.str identity.peerId)
  recipient : ∃ s, call.toPeerId = .str s ∧
    Dict.get? msg Field.recipientPeerId = some (.str (cStr s))
  nonce : Dict.get? msg Field.nonce = some (.str (tokenHex call.random))
  payload : ∃ p, Dict.get? msg Field.payload = some p ∧
    ∀ k, p.textAt k = (Json.obj call.payload).textAt k

/-- The envelope that was signed can be written. -/
theorem Signing.readable (hserde : SerdeReads F) (hb : Base64Laws F) {identity : Identity F}
    {call : BuildCall F} {sk : SigningKey} {env : Envelope F} {bytes : List UInt8}
    (hs : Signing identity call sk env bytes)
    (hcall : (Json.obj call.payload).wellFormed = true) : Readable env := by
  obtain ⟨s, -, hscalar, hrecipient⟩ := hs.recipient
  have hcstr : (cStr s).isScalar = true := isScalar_cStr hscalar
  refine ⟨?_, ?_, ?_, ?_, _, hcall, hserde.value _ _ hcall hs.payload⟩
  · rw [hs.sender]
    exact identity.plain_peerId.isScalar
  · rw [hrecipient]
    exact hcstr
  · rw [hs.nonce]
    exact (plain_tokenHex _).isScalar
  · rw [hs.signature]
    exact (plain_b64Encode hb _).isScalar

/-- What `_build_message` returns is the dictionary of the envelope that was signed. -/
theorem buildMessage_toDict (hserde : SerdeReads F) (hwrites : SerdeWrites F)
    (hb : Base64Laws F) {identity : Identity F} {call : BuildCall F} {v : Json F}
    (hcall : (Json.obj call.payload).wellFormed = true)
    (h : buildMessage identity call.toPeerId call.payload call.random call.nowMs = .ok v) :
    ∃ sk env bytes, Signing identity call sk env bytes ∧ Readable env ∧ v = .obj env.toDict := by
  obtain ⟨-, sk, env, bytes, text, hs, htext, -, hload⟩ := buildMessage_ok.mp h
  have hreadable := hs.readable hserde hb hcall
  refine ⟨sk, env, bytes, hs, hreadable, ?_⟩
  rw [(hwrites.loads env text hreadable htext).2] at hload
  exact (Option.some.inj hload).symm

omit [Crates F] in
/-- A line that is read is within the limit. -/
theorem length_le_of_readJsonLine {m msg : Members F} {rest : List UInt8}
    (h : readJsonLine (writeJsonLine m) = .ok (msg, rest)) :
    (Json.dumpsSorted (.obj m)).length ≤ streamLimit := by
  by_contra hlong
  have hne : ∀ b ∈ (Json.dumpsSorted (Json.obj m)).map asciiByte, decide (b ≠ 10) = true := by
    intro b hb
    obtain ⟨c, hc, rfl⟩ := List.mem_map.mp hb
    exact decide_eq_true (asciiByte_ne_newline (Json.dumpsSorted_printable _ c hc))
  have hline : (writeJsonLine m).takeWhile (fun b => decide (b ≠ 10)) =
      (Json.dumpsSorted (Json.obj m)).map asciiByte := by
    rw [writeJsonLine_eq, List.takeWhile_append_of_pos hne]
    simp
  obtain ⟨⟨raw, rest'⟩, hread, -⟩ := except_bind_ok.mp h
  rw [readline, hline, if_pos (by rw [List.length_map]; omega)] at hread
  cases hread

omit [Crates F] in
/-- A message that was read from the line of an envelope has its members. -/
theorem readJsonLine_toDict {env : Envelope F} {msg : Members F} {rest : List UInt8}
    (hreadable : Readable env) (h : readJsonLine (writeJsonLine env.toDict) = .ok (msg, rest)) :
    msg = asRead env.toDict := by
  have hread := readJsonLine_writeJsonLine (wellFormed_toDict hreadable)
    (length_le_of_readJsonLine h) []
  rw [List.append_nil] at hread
  exact congrArg Prod.fst (Except.ok.inj (h.symm.trans hread))

omit [Crates F] in
/-- A line with an error carries no sender. -/
theorem senderPeerId_of_errorLine {e : Exc} {msg : Members F} {rest : List UInt8}
    (h : readJsonLine (errorLine F e) = .ok (msg, rest)) :
    Dict.get? msg Field.senderPeerId = none := by
  -- the text of the error may have any code points, but it is printed like a normal one
  obtain ⟨t, ht, hprint⟩ := Json.printStr_normal e.text
  have hline : errorLine F e =
      writeJsonLine (F := F) [(Field.ok, .bool false), (Field.error, .str t)] := by
    have hdumps : ∀ u : Str, Json.dumpsSorted (F := F)
        (.obj [(Field.ok, .bool false), (Field.error, .str u)]) =
        Json.print Json.spaced 0 (.obj [(Field.error, .str u), (Field.ok, .bool false)]) :=
      fun _ => rfl
    rw [errorLine, writeJsonLine, writeJsonLine, hdumps, hdumps]
    simp only [Json.print, Json.printMembers, hprint]
  have hwf : (Json.obj [(Field.ok, .bool false), (Field.error, .str t)] : Json F).wellFormed
      = true := by
    have hkeys : [Field.ok, Field.error].Nodup ∧
        ∀ k ∈ [Field.ok, Field.error], Json.normal k = true := by
      constructor <;> decide
    refine Json.wellFormed_obj.mpr ⟨hkeys.1, hkeys.2, fun kv hkv => ?_⟩
    simp only [List.mem_cons, List.not_mem_nil, or_false] at hkv
    rcases hkv with rfl | rfl
    · rfl
    · exact ht
  rw [hline] at h
  have hread := readJsonLine_writeJsonLine hwf (length_le_of_readJsonLine h) []
  rw [List.append_nil] at hread
  have hmsg : msg = _ := congrArg Prod.fst (Except.ok.inj (h.symm.trans hread))
  rw [hmsg, Json.get?_canon (Json.wellFormed_obj.mp hwf).1]
  rfl

/-- A message that was read from the line of an envelope carries the call that built it. -/
theorem carries_of_line (hserde : SerdeReads F) (hwrites : SerdeWrites F) (hb : Base64Laws F)
    {identity : Identity F} {call : BuildCall F} {v : Json F} {msg : Members F}
    {rest : List UInt8} (hcall : (Json.obj call.payload).wellFormed = true)
    (hbuild : buildMessage identity call.toPeerId call.payload call.random call.nowMs = .ok v)
    (h : readJsonLine (envelopeLine v) = .ok (msg, rest)) : Carries msg identity call := by
  obtain ⟨sk, env, bytes, hs, hreadable, rfl⟩ := buildMessage_toDict hserde hwrites hb hcall hbuild
  have hmsg := readJsonLine_toDict hreadable h
  have hget : ∀ k, Dict.get? msg k = (Dict.get? env.toDict k).map Json.canon := by
    intro k
    rw [hmsg]
    exact Json.get?_canon (nodup_keys_toDict env) k
  have hpay : (Json.obj call.payload).readBack = some env.payload :=
    hserde.value _ _ hcall hs.payload
  obtain ⟨s, hto, -, hrecipient⟩ := hs.recipient
  refine ⟨?_, ⟨s, hto, ?_⟩, ?_, env.payload.canon, hget Field.payload, fun k => ?_⟩
  · rw [hget, ← hs.sender]
    rfl
  · rw [hget, ← hrecipient]
    rfl
  · rw [hget, ← hs.nonce]
    rfl
  · rw [Json.textAt_canon (Json.wellFormed_of_readBack hcall hpay),
      Json.textAt_readBack hcall hpay]

/-! ### Signatures -/

section

variable {identity : Identity F} {call : BuildCall F} {sk : SigningKey} {env' : Envelope F}
  {msg : Members F} {key : Json F} {now : UInt64} {env : Envelope F} {K : VerifyingKey}
  {bytes : List UInt8} {sig : FixedBytes 64}

/-- A message whose signature verified on the bytes that a call signed carries the call. -/
theorem Verified.carries (hserde : SerdeReads F) (hjcs : JcsInjective F)
    (hmsg : (Json.obj msg).wellFormed = true) (hv : Verified msg key now env K bytes sig)
    (hcall : (Json.obj call.payload).wellFormed = true)
    (hs : Signing identity call sk env' bytes) : Carries msg identity call := by
  have henv := hserde.envelope msg env hmsg hv.parsed
  have hpay := hserde.value _ _ hcall hs.payload
  obtain ⟨p, hp, hread⟩ := henv.payload
  have hp' := Json.wellFormed_of_get? hmsg hp
  have hform := hjcs.form _ _ bytes hv.jcs hs.jcs
  simp only [SignableEnvelope.jcsForm, Envelope.signable, Prod.mk.injEq] at hform
  obtain ⟨-, hsender, hrecipient, -, hnonce, hpayload⟩ := hform
  obtain ⟨s, hto, -, hcstr⟩ := hs.recipient
  refine ⟨?_, ⟨s, hto, ?_⟩, ?_, p, hp, fun k => ?_⟩
  · rw [henv.senderPeerId, hsender, hs.sender]
  · rw [henv.recipientPeerId, hrecipient, hcstr]
  · rw [henv.nonce, hnonce, hs.nonce]
  · rw [← Json.textAt_readBack hp' hread, ← Json.textAt_readBack hcall hpay]
    exact Json.textAt_of_doubleForm_eq (Json.wellFormed_of_readBack hp' hread)
      (Json.wellFormed_of_readBack hcall hpay) hpayload k

/-- The message has numbers in its payload when the call has. -/
theorem Verified.numberFree_iff (hserde : SerdeReads F) (hjcs : JcsInjective F)
    (hmsg : (Json.obj msg).wellFormed = true) (hv : Verified msg key now env K bytes sig)
    (hcall : (Json.obj call.payload).wellFormed = true)
    (hs : Signing identity call sk env' bytes) {p : Json F}
    (hp : Dict.get? msg Field.payload = some p) :
    p.numberFree = true ↔ (Json.obj call.payload).numberFree = true := by
  have henv := hserde.envelope msg env hmsg hv.parsed
  obtain ⟨p', hp', hread⟩ := henv.payload
  rw [hp] at hp'
  cases hp'
  have hform : env.payload.doubleForm = env'.payload.doubleForm :=
    congrArg (fun x => x.2.2.2.2.2) (hjcs.form _ _ bytes hv.jcs hs.jcs)
  rw [← Json.numberFree_of_readBack hread,
    ← Json.numberFree_of_readBack (hserde.value _ _ hcall hs.payload)]
  exact ⟨Json.numberFree_of_doubleForm_eq hform, Json.numberFree_of_doubleForm_eq hform.symm⟩

/-- Without numbers the message has the timestamp and the whole payload of the call. -/
theorem Verified.same (hserde : SerdeReads F) (hjcs : JcsInjective F)
    (hmsg : (Json.obj msg).wellFormed = true) (hv : Verified msg key now env K bytes sig)
    (hcall : (Json.obj call.payload).wellFormed = true)
    (hs : Signing identity call sk env' bytes) {p : Json F}
    (hp : Dict.get? msg Field.payload = some p) (hfree : p.numberFree = true) :
    Dict.get? msg Field.timestampMs = some (.int call.nowMs.toNat) ∧
      p.Same (.obj call.payload) ∧ p.Same env'.payload := by
  have henv := hserde.envelope msg env hmsg hv.parsed
  have hpay := hserde.value _ _ hcall hs.payload
  obtain ⟨p', hp', hread⟩ := henv.payload
  rw [hp] at hp'
  cases hp'
  -- without numbers both canonical forms are the payloads themselves
  have hfree₁ : env.payload.numberFree = true := (Json.numberFree_of_readBack hread).mpr hfree
  have hfree₃ := (hv.numberFree_iff hserde hjcs hmsg hcall hs hp).mp hfree
  have hfree₂ : env'.payload.numberFree = true := (Json.numberFree_of_readBack hpay).mpr hfree₃
  obtain ⟨-, -, -, hts, -, hsame⟩ := hjcs.numberFree _ _ bytes hfree₁ hfree₂ hv.jcs hs.jcs
  have hts' : env.timestampMs = call.nowMs := hts.trans hs.timestamp
  have hsame' : env.payload.canon = env'.payload.canon := hsame
  have hp₁ : env.payload.canon = p.canon := by
    rw [Json.readBack_of_numberFree hfree hread, Json.canon_canon]
  have hp₂ : env'.payload.canon = (Json.obj call.payload).canon := by
    rw [Json.readBack_of_numberFree hfree₃ hpay, Json.canon_canon]
  refine ⟨?_, ?_, ?_⟩
  · rw [henv.timestampMs, hts']
  · exact hp₁.symm.trans (hsame'.trans hp₂)
  · exact hp₁.symm.trans hsame'

end

end P4

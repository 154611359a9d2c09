/-
  The laws of the crates hold of the sample.

  Reading and writing come down to `Json.loads_print`; the JCS text of the sample is the printed
  dictionary, so two envelopes with the same text are read back as the same dictionary.
-/
import P4.Core.Equiv.Binding
import P4.Core.Equiv.ReadBack
import P4.Node.Equiv.Build
import P4.Node.Equiv.Contacts
import P4.Sample.Basic

namespace P4.Sample

open Json

section

variable {F : Type} [Float64 F]

attribute [local instance] crates

/-! ### Reading -/

theorem loads_dumpsCompact {v : Json F} (hv : v.wellFormed = true) :
    loads (dumpsCompact v) = some v :=
  loads_print compact hv

theorem ofFields_eq_some {version sender recipient timestamp nonce payload signature :
    Option (Json F)} {env : Envelope F}
    (h : ofFields version sender recipient timestamp nonce payload signature = some env) :
    version = some (.int env.protocolVersion.toNat) ∧ sender = some (.str env.senderPeerId) ∧
      recipient = some (.str env.recipientPeerId) ∧
      timestamp = some (.int env.timestampMs.toNat) ∧ nonce = some (.str env.nonce) ∧
      (∃ p, payload = some p ∧ p.readBack = some env.payload) ∧
      signature = some (.str env.signatureB64) := by
  unfold ofFields at h
  split at h
  · rename_i v s r t n p sig
    split_ifs at h with hb
    obtain ⟨w, hw, rfl⟩ := Option.map_eq_some_iff.mp h
    have hv : ((UInt32.ofNat v.toNat).toNat : Int) = v := by
      have hlt : v.toNat < 2 ^ 32 := by omega
      rw [UInt32.toNat_ofNat_of_lt' hlt]
      omega
    have ht : ((UInt64.ofNat t.toNat).toNat : Int) = t := by
      have hlt : t.toNat < 2 ^ 64 := by omega
      rw [UInt64.toNat_ofNat_of_lt' hlt]
      omega
    refine ⟨?_, rfl, rfl, ?_, rfl, ⟨p, rfl, hw⟩, rfl⟩
    · rw [hv]
    · rw [ht]
  · cases h

theorem ofFields_of_envelopeOf {m : Members F} {env : Envelope F}
    (h : EnvelopeOf m env) :
    ofFields (Dict.get? m Field.protocolVersion) (Dict.get? m Field.senderPeerId)
      (Dict.get? m Field.recipientPeerId) (Dict.get? m Field.timestampMs)
      (Dict.get? m Field.nonce) (Dict.get? m Field.payload)
      (Dict.get? m Field.signatureB64) = some env := by
  obtain ⟨p, hp, hread⟩ := h.payload
  have hv : env.protocolVersion.toNat < 2 ^ 32 := env.protocolVersion.toNat_lt
  have ht : env.timestampMs.toNat < 2 ^ 64 := env.timestampMs.toNat_lt
  rw [h.protocolVersion, h.senderPeerId, h.recipientPeerId, h.timestampMs, h.nonce, hp,
    h.signatureB64]
  unfold ofFields
  dsimp only
  rw [if_pos (by omega), hread, Option.map_some, Int.toNat_natCast, Int.toNat_natCast,
    UInt32.ofNat_toNat, UInt64.ofNat_toNat]

theorem serdeReads : SerdeReads F := by
  constructor
  · intro v w hv h
    have h' : valueFromStr (dumpsCompact v) = .ok w := h
    unfold valueFromStr at h'
    rw [loads_dumpsCompact hv] at h'
    dsimp only at h'
    split_ifs at h'
    split at h'
    · cases h'
    · rename_i w' hw
      cases h'
      exact hw
  · intro msg env hmsg h
    have h' : envelopeFromStr (dumpsCompact (.obj msg)) = .ok env := h
    unfold envelopeFromStr at h'
    rw [loads_dumpsCompact hmsg] at h'
    dsimp only at h'
    split_ifs at h'
    split at h'
    · cases h'
    · rename_i env' henv
      split_ifs at h'
      cases h'
      obtain ⟨h₁, h₂, h₃, h₄, h₅, h₆, h₇⟩ := ofFields_eq_some henv
      exact ⟨h₁, h₂, h₃, h₄, h₅, h₆, h₇⟩

theorem serdeAccepts : SerdeAccepts F := by
  constructor
  · intro v w hv hread hdepth
    show valueFromStr (dumpsCompact v) = .ok w
    unfold valueFromStr
    rw [loads_dumpsCompact hv]
    dsimp only
    rw [if_neg (by omega), hread]
  · intro msg env hmsg hdepth _ henv hscalar
    show envelopeFromStr (dumpsCompact (.obj msg)) = .ok env
    unfold envelopeFromStr
    rw [loads_dumpsCompact hmsg]
    dsimp only
    rw [if_neg (by omega), ofFields_of_envelopeOf henv]
    dsimp only
    rw [if_pos]
    rw [Envelope.scalars, hscalar.sender, hscalar.recipient, hscalar.nonce, hscalar.signature]
    rfl

/-! ### Writing -/

theorem serdeWrites : SerdeWrites F := by
  constructor
  · exact fun env _ => ⟨_, rfl⟩
  · intro env text henv htext
    cases htext
    refine ⟨?_, loads_dumpsCompact (wellFormed_toDict henv)⟩
    intro h
    have hprint := dumpsCompact_printable _ _ h
    exact absurd hprint.1 (by decide)

theorem readable_of_read {env : Envelope F} {raw : Text}
    (hraw : valueFromStr raw = .ok env.payload) (hscalars : env.scalars = true) :
    Readable env := by
  have hpayload : ∃ v : Json F, v.wellFormed = true ∧ v.readBack = some env.payload := by
    unfold valueFromStr at hraw
    split at hraw
    · cases hraw
    · rename_i v hv
      split_ifs at hraw
      split at hraw
      · cases hraw
      · rename_i w hw
        cases hraw
        exact ⟨v, loads_wellFormed hv, hw⟩
  rw [Envelope.scalars, Bool.and_eq_true, Bool.and_eq_true, Bool.and_eq_true] at hscalars
  exact ⟨hscalars.1.1.1, hscalars.1.1.2, hscalars.1.2, hscalars.2, hpayload⟩

/-- An envelope is read back exactly when it is not too deep. -/
theorem serdeRoundTrip : SerdeRoundTrip F := by
  constructor
  · intro env raw text hraw hint hscalars htext hdepth
    cases htext
    have hreadable := readable_of_read hraw hscalars
    obtain ⟨v, -, hv⟩ := hreadable.payload
    have henv : EnvelopeOf env.toDict env :=
      ⟨rfl, rfl, rfl, rfl, rfl, ⟨_, rfl, readBack_of_integral hv hint⟩, rfl⟩
    exact serdeAccepts.envelope env.toDict env (wellFormed_toDict hreadable) hdepth
      (fun k hk => hk) henv hreadable
  · intro env raw text hraw hint hscalars htext hdepth
    cases htext
    have hreadable := readable_of_read hraw hscalars
    refine ⟨Str.lit "recursion limit exceeded", ?_⟩
    show envelopeFromStr (dumpsCompact (.obj env.toDict)) = _
    unfold envelopeFromStr
    rw [loads_dumpsCompact (wellFormed_toDict hreadable)]
    dsimp only
    rw [if_pos hdepth]

/-! ### Canonical texts -/

theorem wellFormed_jcsDict {env : Envelope F} (h : Readable env) :
    (Json.obj (jcsDict env.signable)).wellFormed = true := by
  obtain ⟨v, hv, hread⟩ := h.payload
  have hpayload := wellFormed_canon (wellFormed_of_readBack hv hread)
  have hstr : ∀ {s : Str}, s.isScalar = true → (Json.str s : Json F).wellFormed = true :=
    fun hs => normal_of_isScalar hs
  rw [wellFormed_obj]
  have hkeys : Dict.keys (jcsDict env.signable) = [Field.nonce, Field.payload,
      Field.protocolVersion, Field.recipientPeerId, Field.senderPeerId, Field.timestampMs] := rfl
  rw [hkeys]
  refine ⟨by decide, ?_, ?_⟩
  · decide
  · intro kv hkv
    simp only [jcsDict, List.mem_cons, List.not_mem_nil, or_false] at hkv
    rcases hkv with rfl | rfl | rfl | rfl | rfl | rfl
    · exact hstr h.nonce
    · exact hpayload
    · rfl
    · exact hstr h.recipient
    · exact hstr h.sender
    · rfl

theorem jcsTotal : JcsTotal F := by
  intro env henv
  exact ⟨_, if_pos (wellFormed_jcsDict henv)⟩

theorem asciiByte_injective {c d : Char} (hc : Printable c) (hd : Printable d)
    (h : asciiByte c = asciiByte d) : c = d := by
  have hlt : ∀ {c : Char}, Printable c → c.toNat < 0x80 := fun h => by
    have := h.2
    omega
  exact asciiByte_inj (hlt hc) (hlt hd) h

theorem map_asciiByte_injective {s t : Text} (hs : ∀ c ∈ s, Printable c)
    (ht : ∀ c ∈ t, Printable c) (h : s.map asciiByte = t.map asciiByte) : s = t := by
  induction s generalizing t with
  | nil => exact (List.map_eq_nil_iff.mp h.symm).symm
  | cons c s ih =>
    cases t with
    | nil => cases h
    | cons d t =>
      rw [List.map_cons, List.map_cons, List.cons.injEq] at h
      have hhead := asciiByte_injective (hs c (List.mem_cons_self ..))
        (ht d (List.mem_cons_self ..)) h.1
      have htail := ih (fun c hc => hs c (List.mem_cons_of_mem _ hc))
        (fun c hc => ht c (List.mem_cons_of_mem _ hc)) h.2
      rw [hhead, htail]

/-- The JCS text of the sample determines the dictionary. -/
theorem jcsDict_injective {a b : SignableEnvelope F} {bytes : List UInt8}
    (ha : jcsToVec a = .ok bytes) (hb : jcsToVec b = .ok bytes) : jcsDict a = jcsDict b := by
  unfold jcsToVec at ha hb
  split_ifs at ha hb with hwa hwb
  have hbytes := (Except.ok.inj ha).trans (Except.ok.inj hb).symm
  have htext := map_asciiByte_injective (dumpsCompact_printable _) (dumpsCompact_printable _) hbytes
  have hobj : some (Json.obj (jcsDict a)) = some (Json.obj (jcsDict b)) := by
    rw [← loads_dumpsCompact hwa, ← loads_dumpsCompact hwb, htext]
  exact Json.obj.inj (Option.some.inj hobj)

omit [Float64 F] in
theorem jcs_fields {a b : SignableEnvelope F} (h : jcsDict a = jcsDict b) :
    a.protocolVersion = b.protocolVersion ∧ a.senderPeerId = b.senderPeerId ∧
      a.recipientPeerId = b.recipientPeerId ∧ a.timestampMs = b.timestampMs ∧
      a.nonce = b.nonce ∧ a.payload.Same b.payload := by
  simp only [jcsDict, List.cons.injEq, Prod.mk.injEq, Json.str.injEq, Json.int.injEq,
    true_and, and_true, Nat.cast_inj] at h
  obtain ⟨hnonce, hpayload, hversion, hrecipient, hsender, htimestamp⟩ := h
  exact ⟨UInt32.toNat_inj.mp hversion, hsender, hrecipient, UInt64.toNat_inj.mp htimestamp,
    hnonce, hpayload⟩

/-- The canonical text is the print of the canonical form, which is injective. -/
theorem jcsInjective : JcsInjective F := by
  constructor
  · intro a b bytes ha hb
    obtain ⟨h₁, h₂, h₃, h₄, h₅, h₆⟩ := jcs_fields (jcsDict_injective ha hb)
    have hpayload : a.payload.doubleForm = b.payload.doubleForm := by
      have hcanon : a.payload.canon = b.payload.canon := h₆
      rw [doubleForm, doubleForm, canon_mapLeaves numberMap_doubleLeaf,
        canon_mapLeaves numberMap_doubleLeaf, hcanon]
    rw [SignableEnvelope.jcsForm, SignableEnvelope.jcsForm, h₁, h₂, h₃, h₄, h₅, hpayload]
  · intro a b bytes _ _ ha hb
    exact jcs_fields (jcsDict_injective ha hb)

/-! ### Base64 and signatures -/

theorem base64Laws : Base64Laws F := by
  constructor
  · intro b
    show b64Decode (Str.ofText (Base64.encode b)) = .ok b
    rw [b64Decode, Str.toText?_ofText, Option.bind_some, Base64.decode_encode]
  · intro b c hc
    obtain ⟨d, hd, rfl⟩ := List.mem_map.mp hc
    rw [Str.ofChar_val]
    exact Base64.encode_printable b d hd

/-- A signature is a function of the public key and the message. -/
theorem signatureLaws : SignatureLaws F := by
  constructor
  · exact fun _ => rfl
  · exact fun key bytes => decide_eq_true rfl

theorem errorTexts : ErrorTexts F := by
  -- every text of the sample crates, and then which of them each function uses
  have hlit : ∀ s ∈ ["expected value", "recursion limit exceeded", "invalid value",
      "invalid envelope", "invalid string", "expected struct Envelope", "Invalid byte"],
      0 ∉ Str.lit s := by
    decide +kernel
  simp only [List.forall_mem_cons] at hlit
  constructor
  · intro t e h
    have h' : valueFromStr t = .error e := h
    unfold valueFromStr at h'
    split at h'
    · cases h'
      exact hlit.1
    · split_ifs at h'
      · cases h'
        exact hlit.2.1
      · split at h' <;> cases h'
        exact hlit.2.2.1
  · intro t e h
    have h' : envelopeFromStr t = .error e := h
    unfold envelopeFromStr at h'
    split at h'
    · split_ifs at h'
      · cases h'
        exact hlit.2.1
      · split at h'
        · cases h'
          exact hlit.2.2.2.1
        · split_ifs at h'
          cases h'
          exact hlit.2.2.2.2.1
    · cases h'
      exact hlit.2.2.2.2.2.1
  · intro env e h
    cases h
  · intro env e h
    have h' : jcsToVec env = .error e := h
    unfold jcsToVec at h'
    split_ifs at h'
    cases h'
    exact hlit.2.2.2.2.1
  · intro s e h
    have h' : b64Decode s = .error e := h
    unfold b64Decode at h'
    split at h' <;> cases h'
    exact hlit.2.2.2.2.2.2.1
  · intro bytes e h
    cases h

theorem crateLaws : CrateLaws F where
  accepts := serdeAccepts
  writes := serdeWrites
  jcs := jcsTotal
  base64 := base64Laws
  signature := signatureLaws

end

/-! ### Nodes -/

/-- A private key. -/
def key (n : UInt8) : SigningKey := ⟨List.replicate 32 n, List.length_replicate⟩

/-- The bytes of a nonce. -/
def random (n : UInt8) : FixedBytes 16 := ⟨List.replicate 16 n, List.length_replicate⟩

/-- The identity of a private key. -/
def identity (n : UInt8) : Identity Empty := Identity.ofKey base64Laws (key n)

/-- A quote, a newline, a NUL and a character outside the basic plane. -/
def awkward : Str := Str.ofText ['"', '\n', '\x00', Char.ofNat 0x1F600]

/-- A contact entry for an identity. -/
def contact (n : UInt8) : Ref (Contact Empty) where
  oid := 0
  val :=
    { peerId := .str (identity n).peerId
      publicKeyB64 := .str (identity n).publicKeyB64
      rendezvous := { transport := .str Kind.direct, address := .str [], port := .int 7000 } }

theorem wellFormed_contact (n : UInt8) : (contact n).val.toDict.wellFormed = true := by
  have hstr : ∀ {s : Str}, s.isScalar = true → (Json.str s : Json Empty).wellFormed = true :=
    fun hs => Json.normal_of_isScalar hs
  refine Contact.Sound.wellFormed_toDict ⟨?_, ?_, ?_, ?_, rfl, ?_⟩
  · exact hstr (identity n).plain_peerId.isScalar
  · exact hstr (plain_b64Encode base64Laws (verifyingKey (key n)).val).isScalar
  · exact hstr (Str.isScalar_ofText _)
  · exact hstr rfl
  · exact hstr rfl

/-- The invite of a contact. -/
def invited (n : UInt8) : Loaded Empty := ⟨(contact n).val.toDict, wellFormed_contact n⟩

/-- A started node with the given contacts. -/
def node (n : UInt8) (contacts : List UInt8) : Node Empty where
  identity := identity n
  contacts := contacts.map fun c => (.str (identity c).peerId, contact c)
  contactsFile := none

/-- The line of a message. -/
def line (sender recipient : UInt8) (payload : Members Empty) (nonce : UInt8) (now : UInt64) :
    List UInt8 :=
  match buildMessage (identity sender) (.str (identity recipient).peerId) payload (random nonce)
    now with
  | .ok envelope => envelopeLine envelope
  | .error _ => []

/-- A computation that was run and succeeded has a result. -/
theorem exists_ok {ε α : Type} {x : Except ε α} (h : x.isOk = true) : ∃ a, x = .ok a := by
  cases x with
  | error e => cases h
  | ok a => exact ⟨a, rfl⟩

theorem eq_ok_of_toOption {ε α : Type} {x : Except ε α} {a : α} (h : x.toOption = some a) :
    x = .ok a := by
  cases x with
  | error e => cases h
  | ok b => rw [Option.some.inj h]

end P4.Sample

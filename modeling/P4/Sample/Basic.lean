/-
  A sample of the crates, small enough to run.

  JSON is read and written by the functions of `Json`, base64 is the real one, and a signature
  is the public key followed by the first bytes of the message.  The doubles are a parameter:
  with `Empty` there are none, so every number is an integer, and `Big` is the double `2^64`
  alone.  The laws of `Core/Laws.lean` hold of it (`Sample/Equiv/Laws.lean`).
-/
import P4.Base64.Basic
import P4.Core.Laws
import P4.Node.Equiv.Line
import P4.Node.Message

namespace P4

/-! ### Numbers -/

instance : Float64 Empty where
  repr := nofun
  ofText _ := none
  repr_tok := nofun
  ofText_repr := nofun
  isFinite := nofun
  ofInt? _ := none
  toInt? := nofun
  lt := nofun
  intLt _ := nofun
  ltInt := nofun

instance : PyRepr Empty where
  repr v := Str.ofText (Json.dumpsCompact v)
  repr_ne_nil v := by
    have hpos := Json.length_print_pos Json.compact 0 v
    intro h
    rw [Str.ofText, List.map_eq_nil_iff] at h
    rw [← Json.dumpsCompact, h] at hpos
    exact absurd hpos (Nat.lt_irrefl 0)

namespace Sample

/-- A type with one double in it, `2^64`. -/
inductive Big where
  | big
deriving DecidableEq

/-- `repr(2.0 ** 64)` -/
def Big.text : Text :=
  ['1', '.', '8', '4', '4', '6', '7', '4', '4', '0', '7', '3', '7', '0', '9', '5', '5', '2', 'e',
    '+', '1', '9']

instance : Float64 Big where
  repr _ := Big.text
  ofText t := if t = Big.text then some .big else none
  repr_tok _ := by decide +kernel
  ofText_repr _ := rfl
  isFinite _ := true
  ofInt? i := if Json.roundInt i = 2 ^ 64 then some .big else none
  toInt? _ := some (2 ^ 64)
  lt _ _ := false
  intLt i _ := decide (i < 2 ^ 64)
  ltInt _ i := decide (2 ^ 64 < i)

section

variable {F : Type} [Float64 F]

/-! ### JSON -/

/-- `serde_json::from_str::<Value>` -/
def valueFromStr (t : Text) : Except Str (Json F) :=
  match Json.loads (F := F) t with
  | none => .error (Str.lit "expected value")
  | some v =>
    if serdeDepth < v.depth then .error (Str.lit "recursion limit exceeded")
    else match v.readBack with
      | none => .error (Str.lit "invalid value")
      | some w => .ok w

/-- The envelope with the given members. -/
def ofFields (version sender recipient timestamp nonce payload signature : Option (Json F)) :
    Option (Envelope F) :=
  match version, sender, recipient, timestamp, nonce, payload, signature with
  | some (.int v), some (.str s), some (.str r), some (.int t), some (.str n), some p,
      some (.str sig) =>
    if 0 ≤ v ∧ v < 2 ^ 32 ∧ 0 ≤ t ∧ t < 2 ^ 64 then
      p.readBack.map fun w =>
        { protocolVersion := UInt32.ofNat v.toNat
          senderPeerId := s
          recipientPeerId := r
          timestampMs := UInt64.ofNat t.toNat
          nonce := n
          payload := w
          signatureB64 := sig }
    else none
  | _, _, _, _, _, _, _ => none

/-- `serde_json::from_str::<Envelope>` -/
def envelopeFromStr (t : Text) : Except Str (Envelope F) :=
  match Json.loads (F := F) t with
  | some (.obj m) =>
    if serdeDepth < (Json.obj m).depth then .error (Str.lit "recursion limit exceeded")
    else match ofFields (Dict.get? m Field.protocolVersion) (Dict.get? m Field.senderPeerId)
        (Dict.get? m Field.recipientPeerId) (Dict.get? m Field.timestampMs)
        (Dict.get? m Field.nonce) (Dict.get? m Field.payload)
        (Dict.get? m Field.signatureB64) with
      | none => .error (Str.lit "invalid envelope")
      | some env => if env.scalars then .ok env else .error (Str.lit "invalid string")
  | _ => .error (Str.lit "expected struct Envelope")

/-- `serde_json::to_string(&Envelope)` -/
def envelopeToString (env : Envelope F) : Except Str Text :=
  .ok (Json.dumpsCompact (.obj env.toDict))

/-- The members of a signable envelope in key order. -/
def jcsDict (e : SignableEnvelope F) : Members F :=
  [(Field.nonce, .str e.nonce),
   (Field.payload, e.payload.canon),
   (Field.protocolVersion, .int e.protocolVersion.toNat),
   (Field.recipientPeerId, .str e.recipientPeerId),
   (Field.senderPeerId, .str e.senderPeerId),
   (Field.timestampMs, .int e.timestampMs.toNat)]

/-- `serde_jcs::to_vec` -/
def jcsToVec (e : SignableEnvelope F) : Except Str (List UInt8) :=
  if (Json.obj (jcsDict e)).wellFormed then
    .ok ((Json.dumpsCompact (.obj (jcsDict e))).map asciiByte)
  else .error (Str.lit "invalid string")

end

/-! ### Keys and signatures -/

/-- The first `n` bytes, filled up with zeros. -/
def fit (n : Nat) (b : List UInt8) : FixedBytes n :=
  ⟨(b ++ List.replicate n 0).take n, by simp⟩

/-- The public key of a private key. -/
def verifyingKey (key : SigningKey) : VerifyingKey :=
  ⟨key.val.map (· + 1), by rw [List.length_map, key.property]⟩

/-- The signature that verifies under a public key. -/
def signature (key : VerifyingKey) (bytes : List UInt8) : FixedBytes 64 :=
  ⟨key.val ++ (fit 32 bytes).val, by rw [List.length_append, key.property, (fit 32 bytes).property]⟩

/-- `B64.decode` -/
def b64Decode (s : Str) : Except Str (List UInt8) :=
  match s.toText?.bind Base64.decode with
  | some b => .ok b
  | none => .error (Str.lit "Invalid byte")

/-- The crates with the doubles `F`. -/
@[reducible]
def crates (F : Type) [Float64 F] : Crates F where
  valueFromStr := valueFromStr
  envelopeFromStr := envelopeFromStr
  envelopeToString := envelopeToString
  jcsToVec := jcsToVec
  b64Encode b := Str.ofText (Base64.encode b)
  b64Decode := b64Decode
  sha256 := fit 32
  verifyingKeyFromBytes := .ok
  verifyingKey := verifyingKey
  sign key bytes := signature (verifyingKey key) bytes
  verify key bytes sig := decide (sig = signature key bytes)

instance : Crates Big := crates Big

end Sample

instance : Crates Empty := Sample.crates Empty

end P4

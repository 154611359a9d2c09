/-
  Any number of nodes and the network between them.

  Every node has its state directory and is started and stopped like any other process.  The
  network is not a machine of its own: what it delivers is in the actions of the nodes, so it
  may drop, delay, reorder, duplicate and make up lines as it likes.  What other people sign is
  recorded beside the nodes, since it tells the genuine messages from the forged ones.

  The assumptions about signatures are properties of the log: `Unforgeable` says that nothing
  verified that was not signed before, `OnlyUsedBy` and `Honest` say who signed.
-/
import P4.Node.Equiv.Acceptance
import P4.Node.Equiv.Build
import P4.Run.Product

namespace P4

/-- A signature made outside the nodes. -/
structure Foreign where
  key : SigningKey
  bytes : List UInt8
deriving DecidableEq

/-- A node acts, or somebody else signs something. -/
abbrev SystemAct (ι F : Type) := (ι × HostAct F) ⊕ Foreign

/-- What happened, and where. -/
abbrev SystemEvent (ι F : Type) := (ι × Option (Event F)) ⊕ Foreign

section

variable {ι F : Type} [DecidableEq ι] [DecidableEq F] [Float64 F] [Crates F] [PyRepr F]

/-- Nodes side by side. -/
def system : Machine (ι → Node F) (SystemAct ι F) (SystemEvent ι F) :=
  Node.host.product.beside Foreign

/-- Every node was started from its files. -/
def Started (identities : ι → Identity F) (s : ι → Node F) : Prop :=
  ∀ i, ∃ file, Node.boot (identities i) file = .ok (s i)

end

/-! ### Signatures -/

section

variable {ι F : Type} [Float64 F] [Crates F]

/-- The key and the bytes of the signature in a call of `_build_message`. -/
def signing? (identity : Identity F) (call : BuildCall F) : Option (SigningKey × List UInt8) :=
  match call.toPeerId, signingKeyFromB64 F (cStr identity.privateKeyB64),
    Crates.valueFromStr (F := F) (Json.dumpsCompact (.obj call.payload)) with
  | .str toPeerId, .ok sk, .ok payload =>
    match Crates.jcsToVec
      { protocolVersion := protocolVersion
        senderPeerId := identity.peerId
        recipientPeerId := cStr toPeerId
        timestampMs := call.nowMs
        nonce := tokenHex call.random
        payload := payload } with
    | .ok bytes => some (sk, bytes)
    | .error _ => none
  | _, _, _ => none

/-- The key and the bytes of the signature check of a message. -/
def verification? (msg : Members F) (publicKeyB64 : Json F) :
    Option (VerifyingKey × List UInt8) :=
  match publicKeyB64 with
  | .str key =>
    match verifyingKeyFromB64 F (cStr key),
      Crates.envelopeFromStr (F := F) (Json.dumpsCompact (.obj msg)) with
    | .ok K, .ok env =>
      match Crates.jcsToVec env.signable with
      | .ok bytes => some (K, bytes)
      | .error _ => none
    | _, _ => none
  | _ => none

/-- What was signed in an event, by its public key. -/
def signatureOf (identities : ι → Identity F) :
    SystemEvent ι F → Option (VerifyingKey × List UInt8)
  | .inl (i, some (.built _ call _)) =>
    (signing? (identities i) call).map fun r => (Crates.verifyingKey F r.1, r.2)
  | .inr f => some (Crates.verifyingKey F f.key, f.bytes)
  | _ => none

/-- What was verified in an event. -/
def checkOf : SystemEvent ι F → Option (VerifyingKey × List UInt8)
  | .inl (_, some e) =>
    match e.acceptance? with
    | some (msg, some contact, _) => verification? msg contact.val.publicKeyB64
    | _ => none
  | _ => none

/-- The node at which an event happened. -/
def nodeOf : SystemEvent ι F → Option ι
  | .inl (i, _) => some i
  | .inr _ => none

/-- Under the key `K` nothing verifies that was not signed before. -/
def UnforgeableUnder (identities : ι → Identity F) (K : VerifyingKey)
    (log : List (SystemEvent ι F)) : Prop :=
  Along (fun past e => ∀ x ∈ checkOf e, x.1 = K → some x ∈ past.map (signatureOf identities)) log

/-- Nothing verifies that was not signed before. -/
def Unforgeable (identities : ι → Identity F) (log : List (SystemEvent ι F)) : Prop :=
  Along (fun past e => ∀ x ∈ checkOf e, some x ∈ past.map (signatureOf identities)) log

/-- The private key of `K` is used by `_build_message` of node `i` and nowhere else. -/
def OnlyUsedBy (identities : ι → Identity F) (K : VerifyingKey) (i : ι)
    (log : List (SystemEvent ι F)) : Prop :=
  ∀ e ∈ log, ∀ x ∈ signatureOf identities e, x.1 = K → nodeOf e = some i

/-- Whatever is signed with a key that has the peer id of node `i` is signed by `_build_message`
of that node. -/
def Honest (identities : ι → Identity F) (i : ι) (log : List (SystemEvent ι F)) : Prop :=
  ∀ e ∈ log, ∀ x ∈ signatureOf identities e,
    peerIdFromPublicKeyBytes F x.1.val = (identities i).peerId → nodeOf e = some i

instance (identities : ι → Identity F) (K : VerifyingKey) (log : List (SystemEvent ι F)) :
    Decidable (UnforgeableUnder identities K log) :=
  Along.decidable log

instance (identities : ι → Identity F) (log : List (SystemEvent ι F)) :
    Decidable (Unforgeable identities log) :=
  Along.decidable log

instance [DecidableEq ι] (identities : ι → Identity F) (K : VerifyingKey) (i : ι)
    (log : List (SystemEvent ι F)) : Decidable (OnlyUsedBy identities K i log) :=
  List.decidableBAll _ log

instance [DecidableEq ι] (identities : ι → Identity F) (i : ι)
    (log : List (SystemEvent ι F)) : Decidable (Honest identities i log) :=
  List.decidableBAll _ log

end

/-! ### The network -/

section

variable {ι F : Type} [JsonFloat F]

/-- The line carries no message, or one to `own`. -/
def addressed (F : Type) [JsonFloat F] (own : Str) (stream : List UInt8) : Bool :=
  match readJsonLine (F := F) stream with
  | .ok (msg, _) =>
    match Dict.get? msg Field.recipientPeerId with
    | some (.str r) => r = own
    | _ => true
  | .error _ => true

end

end P4

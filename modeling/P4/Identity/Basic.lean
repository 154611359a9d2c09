/-
  `Identity.load_or_create`, with the crashes it can meet.

  The identity is kept in `identity_ed25519.json`; older versions kept the private key in
  `identity_ed25519.pem`.  A call returns what is in the first file, or else moves the second
  one over to it, or else draws a new key.  A new file is written next to its place and renamed
  into it; the process can be killed before, during and after each of these steps, which leaves
  the files as they are at that point.

  The PEM reader of the `cryptography` package is a parameter.
-/
import P4.Base64.Basic
import P4.Core.Abi
import P4.Node.Message

namespace P4

/-! ### Identities -/

/-- `class Identity`, as `load_or_create` returns it: its fields are the members of a file. -/
structure IdentityData (F : Type) where
  privateKeyB64 : Json F
  publicKeyB64 : Json F
  peerId : Json F
deriving DecidableEq

/-- `b64e` -/
def b64e (data : List UInt8) : Str := Str.ofText (Base64.encode data)

/-- `asdict(identity)` -/
def IdentityData.toDict {F : Type} (i : IdentityData F) : Json F :=
  .obj [(Field.privateKeyB64, i.privateKeyB64), (Field.publicKeyB64, i.publicKeyB64),
    (Field.peerId, i.peerId)]

/-- `Identity(private_key_b64=raw["private_key_b64"], ...)` -/
def IdentityData.ofRaw {F : Type} (raw : Json F) : Except Exc (IdentityData F) :=
  match raw with
  | .obj m => do
    let privateKeyB64 ← item m Field.privateKeyB64
    let publicKeyB64 ← item m Field.publicKeyB64
    let peerId ← item m Field.peerId
    .ok { privateKeyB64 := privateKeyB64, publicKeyB64 := publicKeyB64, peerId := peerId }
  | _ => .error .typeError

section

variable {F : Type} [JsonFloat F] [Crates F]

/-- `core.peer_id_from_public_key_b64(public_key_b64)`, of any value. -/
def peerIdOf (publicKeyB64 : Json F) : Except Exc Str :=
  match publicKeyB64 with
  | .str key => P4Core.peerIdFromPublicKeyB64 F key
  | _ => .error (.builtin (Str.lit "AttributeError"))

/-- `P4Core.generate_identity`, from the key that the library drew. -/
def P4Core.generateIdentity (F : Type) [JsonFloat F] [Crates F] (key : SigningKey) :
    Except Exc (Json F) := do
  let text ← takeString (captured (.ok (generateIdentityJson F key)))
  match Json.loads text with
  | some v => .ok v
  | none => .error (.builtin (Str.lit "JSONDecodeError"))

/-! ### A call -/

/-- `load_pem_private_key`: the raw halves of the key in a PEM file; `none` is a key of another
kind. -/
abbrev PemReader := List UInt8 → Except Exc (Option (FixedBytes 32 × FixedBytes 32))

/-- The first branch of `load_or_create`: the file exists. -/
def loadIdentity (text : Text) : Except Exc (IdentityData F) :=
  match Json.loads (F := F) text with
  | none => .error (.builtin (Str.lit "JSONDecodeError"))
  | some raw => do
    let identity ← IdentityData.ofRaw raw
    let expectedPeerId ← peerIdOf identity.publicKeyB64
    match identity.peerId with
    | .str p =>
      if p = expectedPeerId then .ok identity
      else .error (.runtime
        (Str.lit "Identity peer_id does not match public_key_b64 in identity file"))
    | _ => .error (.runtime
        (Str.lit "Identity peer_id does not match public_key_b64 in identity file"))

/-- `_migrate_legacy_pem` up to `atomic_write_json`; `available` says whether the `cryptography`
package can be imported. -/
def migrateLegacyPem (pem : PemReader) (legacyPath : Str) (available : Bool)
    (rawPem : List UInt8) : Except Exc (IdentityData F) :=
  if !available then
    .error (.runtime (Str.lit "Legacy identity exists at " ++ legacyPath ++
      Str.lit " but cryptography is unavailable. " ++
      Str.lit "Install cryptography once to migrate, then rerun."))
  else do
    match ← pem rawPem with
    | none => .error (.runtime (Str.lit "Legacy identity file is not Ed25519: " ++ legacyPath))
    | some (privateRaw, publicRaw) =>
      let peerId ← P4Core.peerIdFromPublicKeyB64 F (b64e publicRaw.val)
      .ok { privateKeyB64 := .str (b64e privateRaw.val)
            publicKeyB64 := .str (b64e publicRaw.val)
            peerId := .str peerId }

/-- The last branch of `load_or_create` up to `atomic_write_json`. -/
def createIdentity (key : SigningKey) : Except Exc (IdentityData F) := do
  let raw ← P4Core.generateIdentity F key
  IdentityData.ofRaw raw

/-- What a call does once it has looked at the files. -/
inductive Decision (F : Type) where
  | finish (result : Except Exc (IdentityData F))
  /-- `atomic_write_json` comes next -/
  | write (identity : IdentityData F)

/-- An identity that has to be written, or an exception. -/
def Decision.ofResult {F : Type} : Except Exc (IdentityData F) → Decision F
  | .error e => .finish (.error e)
  | .ok identity => .write identity

/-- `load_or_create`: the branches, in the order of the tests. -/
def loadOrCreate (pem : PemReader) (legacyPath : Str) (json : Option Text)
    (legacy : Option (List UInt8)) (key : SigningKey) (available : Bool) : Decision F :=
  match json with
  | some text => .finish (loadIdentity text)
  | none =>
    match legacy with
    | some rawPem => .ofResult (migrateLegacyPem pem legacyPath available rawPem)
    | none => .ofResult (createIdentity key)

/-- `P4Node._build_message` under a loaded identity: its fields must have `encode`. -/
def IdentityData.buildMessage (identity : IdentityData F) (toPeerId : Json F)
    (payload : Members F) (random : FixedBytes 16) (nowMs : UInt64) : Except Exc (Json F) :=
  match identity.privateKeyB64, identity.peerId, toPeerId with
  | .str privateKeyB64, .str peerId, .str toPeerId =>
    match P4Core.signEnvelope privateKeyB64 peerId toPeerId payload (tokenHex random)
        nowMs.toNat with
    | .error (.core msg) => .error (.runtime (Str.lit "Envelope signing failed: " ++ msg))
    | r => r
  | _, _, _ => .error (.builtin (Str.lit "AttributeError"))

/-- The text that `atomic_write_json` writes. -/
def identityText (identity : IdentityData F) : Text := Json.dumpsIndented identity.toDict

end

/-! ### Files and crashes -/

/-- Where a call is. -/
inductive CallPhase (F : Type) where
  /-- no call is under way -/
  | idle
  /-- `tmp.write_text` is under way -/
  | writing (identity : IdentityData F)
  /-- `tmp.write_text` has returned -/
  | written (identity : IdentityData F)
  /-- `tmp.replace(path)` has returned -/
  | renamed (identity : IdentityData F)

/-- The identity files of a state directory, and the call that uses them. -/
structure IdentityFiles (F : Type) where
  /-- `identity_ed25519.json` -/
  json : Option Text
  /-- `identity_ed25519.json.tmp` -/
  tmp : Option Text
  /-- `identity_ed25519.pem` -/
  legacy : Option (List UInt8)
  phase : CallPhase F := .idle

/-- A step of a call, or the end of its process. -/
inductive IdentityAct where
  /-- `load_or_create` is called; the key is the one that would be drawn -/
  | call (key : SigningKey) (available : Bool)
  /-- the first `n` characters are in the temporary file -/
  | write (n : Nat)
  /-- the temporary file is complete -/
  | written
  | rename
  /-- the call returns -/
  | finish
  /-- a file operation raises -/
  | fail
  /-- the process is killed -/
  | kill

/-- How a call ended. -/
inductive IdentityEvent (F : Type) where
  | returned (identity : IdentityData F)
  | raised (e : Exc)

namespace IdentityFiles

variable {F : Type} [JsonFloat F] [Crates F]

/-- The steps of the calls; `none` when the step cannot happen. -/
def step (pem : PemReader) (legacyPath : Str) :
    Machine (IdentityFiles F) IdentityAct (IdentityEvent F) := fun s a =>
  match a, s.phase with
  | .call key available, .idle =>
    match loadOrCreate pem legacyPath s.json s.legacy key available with
    | .finish (.error e) => some (s, [.raised e])
    | .finish (.ok identity) => some (s, [.returned identity])
    | .write identity => some ({ s with phase := .writing identity }, [])
  | .write n, .writing identity =>
    some ({ s with tmp := some ((identityText identity).take n) }, [])
  | .written, .writing identity =>
    some ({ s with tmp := some (identityText identity), phase := .written identity }, [])
  | .rename, .written identity =>
    some ({ s with json := s.tmp, tmp := none, phase := .renamed identity }, [])
  | .finish, .renamed identity => some ({ s with phase := .idle }, [.returned identity])
  | .fail, .writing _ =>
    some ({ s with phase := .idle }, [.raised (.builtin (Str.lit "OSError"))])
  | .fail, .written _ =>
    some ({ s with phase := .idle }, [.raised (.builtin (Str.lit "OSError"))])
  | .kill, _ => some ({ s with phase := .idle }, [])
  | _, _ => none

end IdentityFiles

end P4

/-
  Who owns the strings that cross the C ABI.

  A function of `rust/p4-ffi` hands a string out with `into_raw`, and the caller has to give it
  back to `p4_free_string` once.  The functions and the bindings are programs on a heap of such
  strings, with `LAST_ERROR` as the register that all threads of a process share: its lock is
  taken and released for every access.  A client is any sequence of calls of bindings, each of
  which may depend on the results of the earlier ones.

  The binding of C++ offers fewer functions than the others.  Those of Python, Java and C++ fall
  back to a fixed text when there is no error text; those of JavaScript and PHP ask for the error
  text of that failure in turn, as deep as the stack allows.
-/
import P4.Core.Abi
import P4.Heap.Basic

namespace P4

/-- A program that uses the C ABI. -/
abbrev AbiProg (ε α : Type) := Prog (Option Str) Str ε α

section

variable {ε : Type}

/-! ### The C ABI -/

namespace Ffi

/-- `into_c_string_ptr` -/
def intoCStringPtr (value : Str) : AbiProg ε (Option Nat) :=
  if 0 ∈ value then .put (P4.intoCStringPtr value none).2 (.ret none)
  else .alloc value fun p => .ret (some p)

/-- `with_error_capture`, and what is made of the result. -/
def withErrorCapture {α β : Type} (body : Except CoreError α) (some : α → AbiProg ε β)
    (none : β) : AbiProg ε β :=
  .put .none <| match body with
    | .ok v => some v
    | .error e => .put (.some e.display) (.ret none)

/-- The functions that return a string: `p4_generate_identity_json`,
`p4_peer_id_from_public_key_b64` and `p4_sign_envelope_json`. -/
def stringFn (body : Except CoreError Str) : AbiProg ε (Option Nat) :=
  withErrorCapture body intoCStringPtr none

/-- `p4_verify_envelope_json` -/
def flagFn (body : Except CoreError Unit) : AbiProg ε Bool :=
  withErrorCapture body (fun _ => .ret true) false

/-- `p4_last_error_message` -/
def lastErrorMessage : AbiProg ε (Option Nat) :=
  .get fun last => intoCStringPtr (last.getD [])

/-- The text of a string, which is given back to `p4_free_string`. -/
def readOwned (p : Nat) : AbiProg ε Str :=
  .read p fun value => .free p (.ret value)

end Ffi

/-! ### The bindings -/

/-- The languages with a binding. -/
inductive Binding where
  | python
  | java
  | cpp
  | javascript
  | php
deriving DecidableEq

namespace Binding

/-- `"unknown error"` -/
def unknownError : Str := Str.lit "unknown error"

/-- The exception of a language whose stack is used up. -/
def stackOverflow : Str := Str.lit "Maximum call stack size exceeded"

/-- `last_error` of Python and C++, `lastError` of Java: the error text, or a fixed one. -/
def lastErrorOr (fallback : Str) : AbiProg ε (Except Str Str) :=
  Ffi.lastErrorMessage.bind fun ptr =>
    match ptr with
    | none => .ret (.ok fallback)
    | some p => (Ffi.readOwned p).bind fun text => .ret (.ok text)

/-- `lastError` of JavaScript and PHP, which is `takeString` of `p4_last_error_message`:
a missing text raises an exception with the error text of that. -/
def lastErrorOrRaise : Nat → AbiProg ε (Except Str Str)
  | 0 => .ret (.error stackOverflow)
  | depth + 1 => Ffi.lastErrorMessage.bind fun ptr =>
    match ptr with
    | none => (lastErrorOrRaise depth).bind fun r =>
      match r with
      | .ok text => .ret (.error text)
      | .error text => .ret (.error text)
    | some p => (Ffi.readOwned p).bind fun text => .ret (.ok text)

/-- The function of a binding that asks for the error text; `depth` is what the stack allows. -/
def lastError (depth : Nat) : Binding → AbiProg ε (Except Str Str)
  | python => lastErrorOr unknownError
  | java => lastErrorOr unknownError
  | cpp => lastErrorOr unknownError
  | javascript => lastErrorOrRaise depth
  | php => lastErrorOrRaise depth

/-- An exception with the error text. -/
def raise (b : Binding) (depth : Nat) : AbiProg ε (Except Str Str) :=
  (b.lastError depth).bind fun r =>
    match r with
    | .ok text => .ret (.error text)
    | .error text => .ret (.error text)

/-- `_take_string`, `takeString`, `take_string` -/
def takeString (b : Binding) (depth : Nat) : Option Nat → AbiProg ε (Except Str Str)
  | none => b.raise depth
  | some p => (Ffi.readOwned p).bind fun value => .ret (.ok value)

end Binding

end

/-! ### Calls -/

/-- A call of a binding; the arguments are strings without NUL for those that C strings are made
of, as `AbiCall` has them. -/
inductive BindingCall where
  | generateIdentity (key : SigningKey)
  | peerIdFromPublicKeyB64 (publicKeyB64 : Text)
  | signEnvelope (privateKeyB64 senderPeerId recipientPeerId payloadJson : Text)
    (timestampMs : UInt64) (nonce : Text)
  | verifyEnvelope (envelopeJson signerPublicKeyB64 : Text) (nowMs maxSkewMs : UInt64)
  | lastError

/-- The C++ binding has neither `sign_envelope` nor `verify_envelope`, and its `last_error` is
not public. -/
def Binding.offers : Binding → BindingCall → Bool
  | cpp, .signEnvelope _ _ _ _ _ _ => false
  | cpp, .verifyEnvelope _ _ _ _ => false
  | cpp, .lastError => false
  | _, _ => true

section

variable (F : Type) [JsonFloat F] [Crates F]

/-- What the library computes for a call; a successful check has no text. -/
def BindingCall.body : BindingCall → Except CoreError Str
  | generateIdentity key => .ok (Str.ofText (generateIdentityJson F key))
  | peerIdFromPublicKeyB64 publicKeyB64 => do
    let key ← readCStr (some publicKeyB64) (Str.lit "public_key_b64")
    P4.peerIdFromPublicKeyB64 F (Str.ofText key)
  | signEnvelope privateKeyB64 senderPeerId recipientPeerId payloadJson timestampMs nonce =>
    (signEnvelopeJson F (some privateKeyB64) (some senderPeerId) (some recipientPeerId)
      (some payloadJson) timestampMs (some nonce)).map Str.ofText
  | verifyEnvelope envelopeJson signerPublicKeyB64 nowMs maxSkewMs =>
    (verifyEnvelopeJson F (some envelopeJson) (some signerPublicKeyB64) nowMs maxSkewMs).map
      fun _ => []
  | lastError => .ok []

/-- The method of a binding for a call. -/
def Binding.method {ε : Type} (b : Binding) (depth : Nat) (call : BindingCall) :
    AbiProg ε (Except Str Str) :=
  match call with
  | .verifyEnvelope _ _ _ _ =>
    (Ffi.flagFn ((call.body F).map fun _ => ())).bind fun ok =>
      if ok then .ret (.ok []) else b.raise depth
  | .lastError => b.lastError depth
  | _ => (Ffi.stringFn (call.body F)).bind (b.takeString depth)

/-- A thread of a program that uses bindings: it makes calls, and what it does next depends on
the results. -/
inductive Client where
  | done
  | call (b : Binding) (c : BindingCall) (offered : b.offers c = true)
    (k : Except Str Str → Client)

/-- The program of a client; every result is reported. -/
def Client.prog (depth : Nat) :
    Client → AbiProg (Binding × BindingCall × Except Str Str) Unit
  | done => .ret ()
  | call b c _ k => (b.method F depth c).bind fun r => .emit (b, c, r) ((k r).prog depth)

end

end P4

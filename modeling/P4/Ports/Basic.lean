/-
  `pick_onion_port_trio`: three free local ports in a row, found again for the same state
  directory as long as they are free.

  The search starts at a base that depends on the path of the state directory, and goes once
  around the bases 20000, ..., 49999.  SHA-256 is a parameter, and so are the free ports: `bind`
  says which of them a new socket can be bound to during the call.
-/
import P4.Core.Binding
import P4.Node.Line

namespace P4

/-! ### One port -/

/-- `"127.0.0.1"` -/
def localhost : Str := Str.lit "127.0.0.1"

/-- `is_local_port_free`: `sock.bind` succeeds or raises `OSError`, but on a number that is no
port it raises `OverflowError`, which is not caught. -/
def isLocalPortFree (bind : Str → Nat → Bool) (host : Str) (port : Nat) : Except Exc Bool :=
  if 65535 < port then .error (.builtin (Str.lit "OverflowError")) else .ok (bind host port)

/-! ### The seed -/

/-- `int(text, 16)` of hexadecimal digits -/
def intBase16 (text : Str) : Except Exc Nat :=
  match text.foldlM (fun n c => (Json.hexVal (Char.ofNat c.val)).map (16 * n + ·)) 0 with
  | some n => .ok n
  | none => .error (.builtin (Str.lit "ValueError"))

/-- `seed`, from the encoded path -/
def pathSeed (sha256 : List UInt8 → FixedBytes 32) (path : List UInt8) : Except Exc Nat :=
  intBase16 ((hexLower (sha256 path).val).take 8)

/-! ### The search -/

/-- The values of `base` in the loop. -/
def onionBases (seed : Nat) : List Nat :=
  (List.range 30000).map fun n => 20000 + (seed + n) % 30000

/-- The condition in the loop: the second and the third port are not looked at unless those
before them are free. -/
def trioFree (bind : Str → Nat → Bool) (base : Nat) : Except Exc Bool := do
  if ← isLocalPortFree bind localhost base then
    if ← isLocalPortFree bind localhost (base + 1) then
      isLocalPortFree bind localhost (base + 2)
    else .ok false
  else .ok false

/-- The loop, on the bases that are left. -/
def tryBases (bind : Str → Nat → Bool) : List Nat → Except Exc (Nat × Nat × Nat)
  | [] => .error (.runtime (Str.lit "Could not find a free local onion port trio"))
  | base :: bases => do
    if ← trioFree bind base then .ok (base, base + 1, base + 2) else tryBases bind bases

/-- `pick_onion_port_trio`, for a state directory with the path `str(state_dir)` -/
def pickOnionPortTrio (sha256 : List UInt8 → FixedBytes 32) (bind : Str → Nat → Bool)
    (stateDir : Str) : Except Exc (Nat × Nat × Nat) := do
  let path ← encodeUtf8 stateDir
  let seed ← pathSeed sha256 (encodeText path)
  tryBases bind (onionBases seed)

end P4

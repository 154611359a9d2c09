/-
  Contacts, as `p4.py` reads them from JSON and writes them back.

  `Contact.from_dict` looks up members and checks no types, so every field of a contact is a
  JSON value.  What Python does with such values (`==`, `<`, `sorted`, use as a dictionary key)
  is modelled first; an operation that raises `TypeError` is `none`.
-/
import P4.Core.Binding

namespace P4

/-! ### Python operations on values -/

/-- A value as a dictionary key: numbers that are equal are one key. -/
inductive Key (F : Type) where
  | null
  | int (i : Int)
  | float (f : F)
  | str (s : Str)
deriving DecidableEq

namespace Json

variable {F : Type} [Float64 F]

/-- `hash(v)` is defined; `none` for lists and dictionaries. -/
def key? : Json F → Option (Key F)
  | .null => some .null
  | .bool b => some (.int b.toNat)
  | .int i => some (.int i)
  | .float f =>
    match Float64.toInt? f with
    | some i => some (.int i)
    | none => some (.float f)
  | .str s => some (.str s)
  | .arr _ => none
  | .obj _ => none

/-- `v == s` for a string `s`. -/
def eqStr (v : Json F) (s : Str) : Bool :=
  match v with
  | .str t => t = s
  | _ => false

/-- `v == i` for an integer `i`. -/
def eqInt (v : Json F) (i : Int) : Bool :=
  match v with
  | .bool b => (b.toNat : Int) = i
  | .int j => j = i
  | .float f => Float64.toInt? f = some i
  | _ => false

/-- A number: `bool`, `int` or `float`. -/
def isNumber : Json F → Bool
  | .bool _ => true
  | .int _ => true
  | .float _ => true
  | _ => false

/-- A `str`. -/
def isStr : Json F → Bool
  | .str _ => true
  | _ => false

/-- `v < w` between strings or between numbers; lists are not needed here, since they are
never keys. -/
def pyLt : Json F → Json F → Option Bool
  | .str s, .str t => some (s.lt t)
  | .bool a, w => numLt (.int a.toNat) w
  | .int a, w => numLt (.int a) w
  | .float a, w => numLt (.float a) w
  | _, _ => none
where
  /-- `<` with a number on the left. -/
  numLt : Json F → Json F → Option Bool
    | .int a, .bool b => some (decide (a < b.toNat))
    | .int a, .int b => some (decide (a < b))
    | .int a, .float b => some (Float64.intLt a b)
    | .float a, .bool b => some (Float64.ltInt a b.toNat)
    | .float a, .int b => some (Float64.ltInt a b)
    | .float a, .float b => some (Float64.lt a b)
    | _, _ => none

/-- `for item in v`: a dictionary gives its keys and a string its characters. -/
def iter : Json F → Option (List (Json F))
  | .arr l => some l
  | .obj m => some ((Dict.keys m).map .str)
  | .str s => some (s.map fun c => .str [c])
  | _ => none

end Json

/-- `TypeError` -/
def Exc.typeError : Exc := .builtin (Str.lit "TypeError")

/-- An operation that raises `TypeError` where it is not defined. -/
def typed {α : Type} : Option α → Except Exc α
  | some a => .ok a
  | none => .error .typeError

/-- `m[key]` -/
def item {F : Type} (m : Members F) (key : Str) : Except Exc (Json F) :=
  match Dict.get? m key with
  | some v => .ok v
  | none => .error (.key key)

/-- `sorted(l, key=key)`: with two elements or more, all keys must be strings or all of them
numbers. -/
def sortedBy {F α : Type} [Float64 F] (key : α → Json F) (l : List α) : Except Exc (List α) :=
  if l.length ≤ 1 || l.all (fun a => (key a).isStr) || l.all (fun a => (key a).isNumber) then
    .ok (l.insertionSort fun a b => (key b).pyLt (key a) ≠ some true)
  else .error .typeError

/-! ### Objects -/

/-- A Python object: its identity and its value.  `a is b` compares the identities. -/
structure Ref (α : Type) where
  oid : Nat
  val : α
deriving DecidableEq

namespace Field

/-- `"peer_id"` -/
def peerId : Str := Str.ofText ['p', 'e', 'e', 'r', '_', 'i', 'd']
/-- `"public_key_b64"` -/
def publicKeyB64 : Str := Str.ofText
  ['p', 'u', 'b', 'l', 'i', 'c', '_', 'k', 'e', 'y', '_', 'b', '6', '4']
/-- `"rendezvous"` -/
def rendezvous : Str := Str.ofText ['r', 'e', 'n', 'd', 'e', 'z', 'v', 'o', 'u', 's']
/-- `"name"` -/
def name : Str := Str.ofText ['n', 'a', 'm', 'e']
/-- `"transport"` -/
def transport : Str := Str.ofText ['t', 'r', 'a', 'n', 's', 'p', 'o', 'r', 't']
/-- `"address"` -/
def address : Str := Str.ofText ['a', 'd', 'd', 'r', 'e', 's', 's']
/-- `"port"` -/
def port : Str := Str.ofText ['p', 'o', 'r', 't']

end Field

/-- `class Rendezvous` -/
structure Rendezvous (F : Type) where
  transport : Json F
  address : Json F
  port : Json F
deriving DecidableEq

/-- `class Contact` -/
structure Contact (F : Type) where
  peerId : Json F
  publicKeyB64 : Json F
  rendezvous : Rendezvous F
  name : Json F := .str []
deriving DecidableEq

section

variable {F : Type}

/-- `Rendezvous(**v)`: the three members and no others. -/
def Rendezvous.ofKwargs (v : Json F) : Except Exc (Rendezvous F) :=
  match v with
  | .obj m =>
    match Dict.get? m Field.transport, Dict.get? m Field.address, Dict.get? m Field.port with
    | some transport, some address, some port =>
      if (Dict.keys m).all (fun k => k = Field.transport || k = Field.address || k = Field.port)
      then .ok { transport := transport, address := address, port := port }
      else .error .typeError
    | _, _, _ => .error .typeError
  | _ => .error .typeError

/-- `Contact.from_dict` -/
def Contact.fromDict (raw : Json F) : Except Exc (Contact F) :=
  match raw with
  | .obj m => do
    let peerId ← item m Field.peerId
    let publicKeyB64 ← item m Field.publicKeyB64
    let rendezvous ← Rendezvous.ofKwargs (← item m Field.rendezvous)
    .ok { peerId := peerId
          publicKeyB64 := publicKeyB64
          rendezvous := rendezvous
          name := (Dict.get? m Field.name).getD (.str []) }
  | _ => .error .typeError

/-- `asdict(rendezvous)` -/
def Rendezvous.toDict (r : Rendezvous F) : Json F :=
  .obj [(Field.transport, r.transport), (Field.address, r.address), (Field.port, r.port)]

/-- `Contact.to_dict` -/
def Contact.toDict (c : Contact F) : Json F :=
  .obj [(Field.peerId, c.peerId), (Field.publicKeyB64, c.publicKeyB64),
    (Field.rendezvous, c.rendezvous.toDict), (Field.name, c.name)]

/-- `a == b` on contacts: the values are compared as mappings. -/
def Contact.Same (a b : Contact F) : Prop :=
  a.peerId.Same b.peerId ∧ a.publicKeyB64.Same b.publicKeyB64 ∧
    a.rendezvous.transport.Same b.rendezvous.transport ∧
    a.rendezvous.address.Same b.rendezvous.address ∧
    a.rendezvous.port.Same b.rendezvous.port ∧ a.name.Same b.name

end

end P4

/-
  A parser for JSON text, with the reading of Python's `json.loads`.

  Every function is structurally recursive (on the text, or on a fuel that `loads` sets to the
  length of the text), so that the kernel evaluates it.  Tokens are read whole: a word that is
  no literal and no number fails, as does anything but white space after the value.  A key
  that occurs twice keeps its last value, and two adjacent surrogate escapes become one code
  point.
-/
import P4.Json.Print

namespace P4.Json

open Dict

/-! ### Tokens -/

/-- Drop leading white space. -/
def skipWs (t : Text) : Text := t.dropWhile isWs

/-- The value of a hexadecimal digit of either case. -/
def hexVal (c : Char) : Option Nat :=
  if '0' ≤ c ∧ c ≤ '9' then some (c.toNat - 48)
  else if 'a' ≤ c ∧ c ≤ 'f' then some (c.toNat - 87)
  else if 'A' ≤ c ∧ c ≤ 'F' then some (c.toNat - 55)
  else none

/-- The code unit of four hexadecimal digits. -/
def hex4 (a b c d : Char) : Option Nat :=
  match hexVal a, hexVal b, hexVal c, hexVal d with
  | some w, some x, some y, some z => some (w * 4096 + x * 256 + y * 16 + z)
  | _, _, _, _ => none

/-! ### Strings -/

/-- The value of a one-letter escape. -/
def shortEscape (c : Char) : Option Nat :=
  if c = '"' then some 0x22
  else if c = '\\' then some 0x5C
  else if c = '/' then some 0x2F
  else if c = 'b' then some 0x08
  else if c = 'f' then some 0x0C
  else if c = 'n' then some 0x0A
  else if c = 'r' then some 0x0D
  else if c = 't' then some 0x09
  else none

/-- The code units of a string literal after its opening quote, and the text after it.
A character that is not escaped counts as one unit, whatever its plane. -/
def parseUnits : Text → Option (List Nat × Text)
  | '"' :: t => some ([], t)
  | '\\' :: 'u' :: a :: b :: c :: d :: t =>
    match hex4 a b c d, parseUnits t with
    | some u, some (us, r) => some (u :: us, r)
    | _, _ => none
  | '\\' :: e :: t =>
    match shortEscape e, parseUnits t with
    | some u, some (us, r) => some (u :: us, r)
    | _, _ => none
  | c :: t =>
    if c.toNat < 0x20 ∨ c = '\\' then none
    else (parseUnits t).map fun p => (c.toNat :: p.1, p.2)
  | [] => none

/-- Join each high surrogate with the low surrogate right after it. -/
def joinUnits : List Nat → Str
  | h :: l :: us =>
    if 0xD800 ≤ h ∧ h < 0xDC00 ∧ 0xDC00 ≤ l ∧ l < 0xE000 then
      Fin.ofNat 0x110000 (0x10000 + (h - 0xD800) * 0x400 + (l - 0xDC00)) :: joinUnits us
    else Fin.ofNat 0x110000 h :: joinUnits (l :: us)
  | [u] => [Fin.ofNat 0x110000 u]
  | [] => []

/-- A string literal after its opening quote. -/
def parseStr (t : Text) : Option (Str × Text) :=
  (parseUnits t).map fun p => (joinUnits p.1, p.2)

/-- A string in which no high surrogate stands right before a low one.  Only such strings are
ever read from text, where the two escapes would have been joined. -/
def normal (s : Str) : Bool := joinUnits (s.flatMap units) == s

/-! ### Values -/

section

variable {F : Type}

/-- What holds at every node of a value that was read from text: the strings are normal and
the keys of an object are distinct. -/
def wellFormedNode : Json F → Bool
  | .str s => normal s
  | .obj m => decide (keys m).Nodup && (keys m).all normal
  | _ => true

/-- A value as it can be read from text. -/
def wellFormed (v : Json F) : Bool := allNodes wellFormedNode v

variable [JsonFloat F]

/-- The value of a word. -/
def wordVal (t : Text) : Option (Json F) :=
  if t = ['n', 'u', 'l', 'l'] then some .null
  else if t = ['t', 'r', 'u', 'e'] then some (.bool true)
  else if t = ['f', 'a', 'l', 's', 'e'] then some (.bool false)
  else match intTok t with
    | some i => some (.int i)
    | none => if isFloatTok t then (JsonFloat.ofText t).map .float else none

mutual

/-- A value at the head of the text. -/
def parseValue : Nat → Text → Option (Json F × Text)
  | 0, _ => none
  | _ + 1, '"' :: t => (parseStr t).map fun p => (.str p.1, p.2)
  | fuel + 1, '[' :: t =>
    match skipWs t with
    | ']' :: r => some (.arr [], r)
    | r => (parseElems fuel r).map fun p => (.arr p.1, p.2)
  | fuel + 1, '\x7b' :: t =>
    match skipWs t with
    | '\x7d' :: r => some (.obj [], r)
    | r => (parseMembers fuel r).map fun p => (.obj (ofPairs p.1), p.2)
  | _ + 1, t => (wordVal (t.takeWhile isWordChar)).map fun v => (v, t.dropWhile isWordChar)

/-- The elements of an array up to its closing bracket. -/
def parseElems : Nat → Text → Option (List (Json F) × Text)
  | 0, _ => none
  | fuel + 1, t =>
    match parseValue fuel t with
    | none => none
    | some (v, r) =>
      match skipWs r with
      | ',' :: r => (parseElems fuel (skipWs r)).map fun p => (v :: p.1, p.2)
      | ']' :: r => some ([v], r)
      | _ => none

/-- The members of an object up to its closing brace. -/
def parseMembers : Nat → Text → Option (Members F × Text)
  | fuel + 1, '"' :: t =>
    match parseStr t with
    | none => none
    | some (k, r) =>
      match skipWs r with
      | ':' :: r =>
        match parseValue fuel (skipWs r) with
        | none => none
        | some (v, r) =>
          match skipWs r with
          | ',' :: r => (parseMembers fuel (skipWs r)).map fun p => ((k, v) :: p.1, p.2)
          | '\x7d' :: r => some ([(k, v)], r)
          | _ => none
      | _ => none
  | _, _ => none

end

/-- `json.loads(t)`. -/
def loads (t : Text) : Option (Json F) :=
  match parseValue (t.length + 1) (skipWs t) with
  | some (v, r) => if skipWs r = [] then some v else none
  | none => none

end

end P4.Json

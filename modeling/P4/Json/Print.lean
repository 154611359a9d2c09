/-
  Printing JSON values as ASCII text.

  `print` follows the layout of a `Style`: what stands after an opening bracket and before a
  closing one, after a comma and after a colon.  Only white space may stand there, so every
  style is read back by the same parser (`Json/Equiv/RoundTrip.lean`).

  Strings are escaped so that the text is ASCII: a code point outside the basic plane is
  written as two `\u` escapes, one for each of its UTF-16 code units.
-/
import P4.Json.Basic

namespace P4

namespace Json

/-! ### Tokens -/

/-- The white space of the JSON grammar. -/
def isWs (c : Char) : Bool := c = ' ' || c = '\t' || c = '\n' || c = '\r'

/-- The characters of the tokens that are not strings or punctuation. -/
def isWordChar (c : Char) : Bool := c.isAlphanum || c = '+' || c = '-' || c = '.'

/-- A nonempty run of decimal digits. -/
def isDigits (t : Text) : Bool := !t.isEmpty && t.all Char.isDigit

/-- A natural number without leading zeros. -/
def natTok (t : Text) : Option Nat :=
  if isDigits t && (t.head? != some '0' || t.length == 1) then some (Nat.ofDigitChars 10 t 0)
  else none

/-- An integer: a natural number, perhaps after a minus sign. -/
def intTok : Text → Option Int
  | '-' :: t => (natTok t).map fun n => -Int.ofNat n
  | t => (natTok t).map fun n => Int.ofNat n

/-- The exponent part of a number: empty, or `e` with an optional sign and digits. -/
def isExpTail : Text → Bool
  | [] => true
  | 'e' :: '+' :: t => isDigits t
  | 'e' :: '-' :: t => isDigits t
  | 'e' :: t => isDigits t
  | 'E' :: '+' :: t => isDigits t
  | 'E' :: '-' :: t => isDigits t
  | 'E' :: t => isDigits t
  | _ => false

/-- What may follow the integral part of a number that is not an integer. -/
def isFracTail : Text → Bool
  | [] => false
  | '.' :: t => isDigits (t.takeWhile Char.isDigit) && isExpTail (t.dropWhile Char.isDigit)
  | t => isExpTail t

/-- A token read as a number that is no integer. -/
def isFloatTok (t : Text) : Bool :=
  t = ['N', 'a', 'N'] || t = ['I', 'n', 'f', 'i', 'n', 'i', 't', 'y'] ||
    t = ['-', 'I', 'n', 'f', 'i', 'n', 'i', 't', 'y'] ||
    (let body := if t.head? = some '-' then t.tail else t
     (natTok (body.takeWhile Char.isDigit)).isSome && isFracTail (body.dropWhile Char.isDigit))

end Json

/-- How the non-integral numbers `F` are written and read.  A token has a fraction or an
exponent, or is one of the three names of the values that are not finite; what was written is
read back as the same number. -/
class JsonFloat (F : Type) where
  /-- The text of a number. -/
  repr : F → Text
  /-- The number of a token. -/
  ofText : Text → Option F
  repr_tok : ∀ f, Json.isFloatTok (repr f) = true
  ofText_repr : ∀ f, ofText (repr f) = some f

namespace Json

/-! ### Strings -/

/-- A hexadecimal digit, lower case. -/
def hexDigit (n : Nat) : Char := Nat.digitChar (n % 16)

/-- The escape `\uXXXX` of a 16-bit code unit. -/
def escapeUnit (n : Nat) : Text :=
  ['\\', 'u', hexDigit (n / 4096), hexDigit (n / 256), hexDigit (n / 16), hexDigit n]

/-- The text of one code unit inside a string literal. -/
def printUnit (n : Nat) : Text :=
  if n = 0x22 then ['\\', '"']
  else if n = 0x5C then ['\\', '\\']
  else if n = 0x0A then ['\\', 'n']
  else if n = 0x0D then ['\\', 'r']
  else if n = 0x09 then ['\\', 't']
  else if n = 0x0C then ['\\', 'f']
  else if n = 0x08 then ['\\', 'b']
  else if 0x20 ≤ n ∧ n ≤ 0x7E then [Char.ofNat n]
  else escapeUnit n

/-- The UTF-16 code units of a code point; a surrogate stands for itself. -/
def units (c : CodePoint) : List Nat :=
  if c.val < 0x10000 then [c.val]
  else [0xD800 + (c.val - 0x10000) / 0x400, 0xDC00 + (c.val - 0x10000) % 0x400]

/-- A string literal, quotes included. -/
def printStr (s : Str) : Text := '"' :: ((s.flatMap units).flatMap printUnit ++ ['"'])

/-! ### Values -/

/-- The layout of a printed value; the argument is the nesting level. -/
structure Style where
  /-- After an opening and before a closing bracket of a container that is not empty. -/
  margin : Nat → Text
  /-- After a comma. -/
  comma : Nat → Text
  /-- After a colon. -/
  colon : Text
  margin_ws : ∀ n, (margin n).all isWs = true
  comma_ws : ∀ n, (comma n).all isWs = true
  colon_ws : colon.all isWs = true

/-- No white space at all: `separators=(",", ":")`. -/
def compact : Style where
  margin _ := []
  comma _ := []
  colon := []
  margin_ws _ := rfl
  comma_ws _ := rfl
  colon_ws := rfl

/-- One line with a space after commas and colons, the default of `json.dumps`. -/
def spaced : Style where
  margin _ := []
  comma _ := [' ']
  colon := [' ']
  margin_ws _ := rfl
  comma_ws _ := rfl
  colon_ws := rfl

/-- A new line and the indentation of a level. -/
def newline (width n : Nat) : Text := '\n' :: List.replicate (width * n) ' '

theorem newline_ws (width n : Nat) : (newline width n).all isWs = true := by
  rw [newline, List.all_cons, List.all_replicate]
  split_ifs <;> rfl

/-- One member a line, as `indent=width` prints. -/
def indented (width : Nat) : Style where
  margin := newline width
  comma := newline width
  colon := [' ']
  margin_ws := newline_ws width
  comma_ws := newline_ws width
  colon_ws := rfl

/-- An integer in decimal. -/
def printInt (i : Int) : Text :=
  if i < 0 then '-' :: Nat.toDigits 10 i.natAbs else Nat.toDigits 10 i.natAbs

section

variable {F : Type} [JsonFloat F]

mutual

/-- The text of a value that stands at nesting level `n`. -/
def print (st : Style) (n : Nat) : Json F → Text
  | .null => ['n', 'u', 'l', 'l']
  | .bool true => ['t', 'r', 'u', 'e']
  | .bool false => ['f', 'a', 'l', 's', 'e']
  | .int i => printInt i
  | .float f => JsonFloat.repr f
  | .str s => printStr s
  | .arr [] => ['[', ']']
  | .arr (v :: l) =>
    '[' :: (st.margin (n + 1) ++ (print st (n + 1) v ++ (printElems st (n + 1) l ++
      (st.margin n ++ [']']))))
  | .obj [] => ['\x7b', '\x7d']
  | .obj ((k, v) :: m) =>
    '\x7b' :: (st.margin (n + 1) ++ (printStr k ++ (':' :: (st.colon ++ (print st (n + 1) v ++
      (printMembers st (n + 1) m ++ (st.margin n ++ ['\x7d'])))))))

/-- The elements of an array after the first, each with the comma before it. -/
def printElems (st : Style) (n : Nat) : List (Json F) → Text
  | [] => []
  | v :: l => ',' :: (st.comma n ++ (print st n v ++ printElems st n l))

/-- The members of an object after the first, each with the comma before it. -/
def printMembers (st : Style) (n : Nat) : Members F → Text
  | [] => []
  | (k, v) :: m =>
    ',' :: (st.comma n ++ (printStr k ++ (':' :: (st.colon ++ (print st n v ++
      printMembers st n m)))))

end

/-- `json.dumps(v, separators=(",", ":"))`. -/
def dumpsCompact (v : Json F) : Text := print compact 0 v

/-- `json.dumps(v, sort_keys=True)`. -/
def dumpsSorted (v : Json F) : Text := print spaced 0 v.canon

/-- `json.dumps(v, indent=2, sort_keys=True)`. -/
def dumpsIndented (v : Json F) : Text := print (indented 2) 0 v.canon

end

end Json

end P4

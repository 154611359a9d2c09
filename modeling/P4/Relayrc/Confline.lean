/-
  The relay's reader of configuration lines: `parse_config_line_from_str_verbose` in
  `lib/encoding/confline.c`, with `unescape_string` in `lib/encoding/cstring.c`.

  A C string is the list of its bytes before the NUL.  A line is a key and a value; a value may
  be quoted, may be continued after a backslash at the end of a line, ends at a comment and
  loses the white space at its end.
-/
import P4.Core.Binding
import Mathlib.Data.List.DropRight

namespace P4

/-! ### Characters -/

/-- `TOR_ISSPACE_TABLE` -/
def torIsSpaceTable : List Nat := [0x3e00, 0x1, 0, 0, 0, 0, 0, 0]

/-- `TOR_ISSPACE` -/
def torIsSpace (c : UInt8) : Bool :=
  (torIsSpaceTable.getD (c.toNat / 32) 0).testBit (c.toNat % 32)

/-- A space or a tab. -/
def isBlank (c : UInt8) : Bool := c = 32 || c = 9

/-- `TOR_ISODIGIT` -/
def isOctal (c : UInt8) : Bool := 48 ≤ c.toNat && c.toNat ≤ 55

/-- `hex_decode_digit` -/
def hexDecodeDigit (c : UInt8) : Option Nat :=
  if 48 ≤ c.toNat ∧ c.toNat ≤ 57 then some (c.toNat - 48)
  else if 65 ≤ c.toNat ∧ c.toNat ≤ 70 then some (c.toNat - 55)
  else if 97 ≤ c.toNat ∧ c.toNat ≤ 102 then some (c.toNat - 87)
  else none

/-! ### Quoted values -/

/-- The escapes of one character after the backslash, and their values. -/
def simpleEscape (c : UInt8) : Option UInt8 :=
  if c = 110 then some 10
  else if c = 114 then some 13
  else if c = 116 then some 9
  else if c = 34 ∨ c = 92 ∨ c = 39 then some c
  else none

/-- An octal escape; `none` for a number above 255. -/
def octalEscape (digits : List UInt8) : Option UInt8 :=
  let n := digits.foldl (fun n c => n * 8 + (c.toNat - 48)) 0
  if 255 < n then none else some (UInt8.ofNat n)

/-- `unescape_string`, after the first quote: the two passes together. -/
def unescapeString : List UInt8 → Option (List UInt8 × List UInt8)
  | [] => none
  | c :: s =>
    if c = 10 then none
    else if c = 34 then some ([], s)
    else if c = 92 then
      match s with
      | [] => none
      | e :: s =>
        -- `x` or `X` and two hexadecimal digits
        if e = 120 ∨ e = 88 then
          match s with
          | a :: b :: s =>
            match hexDecodeDigit a, hexDecodeDigit b with
            | some x, some y =>
              (unescapeString s).map fun p => (UInt8.ofNat (x * 16 + y) :: p.1, p.2)
            | _, _ => none
          | _ => none
        -- one to three octal digits: as many as there are
        else if isOctal e then
          match s with
          | [] => none
          | a :: s =>
            if isOctal a then
              match s with
              | [] => none
              | b :: s =>
                if isOctal b then (octalEscape [e, a, b]).bind fun v =>
                  (unescapeString s).map fun p => (v :: p.1, p.2)
                else (octalEscape [e, a]).bind fun v =>
                  (unescapeString (b :: s)).map fun p => (v :: p.1, p.2)
            else (octalEscape [e]).bind fun v =>
              (unescapeString (a :: s)).map fun p => (v :: p.1, p.2)
        else (simpleEscape e).bind fun v =>
          (unescapeString s).map fun p => (v :: p.1, p.2)
    else (unescapeString s).map fun p => (c :: p.1, p.2)

/-! ### Lines -/

/-- `Skip until the first keyword`: white space and comments; the flag is set in a comment. -/
def skipToKeyword : Bool → List UInt8 → List UInt8
  | _, [] => []
  | true, c :: line => skipToKeyword (c ≠ 10) line
  | false, c :: line =>
    if torIsSpace c then skipToKeyword false line
    else if c = 35 then skipToKeyword true line
    else c :: line

/-- `Skip until the next space or \ followed by newline`: the key and the rest. -/
def takeKey : List UInt8 → List UInt8 × List UInt8
  | [] => ([], [])
  | c :: line =>
    if torIsSpace c || c = 35 || (c = 92 && line.head? = some 10) then ([], c :: line)
    else (c :: (takeKey line).1, (takeKey line).2)

/-- What `Look for the end of the line` goes over, the rest, and `continuation`; the second
flag is set in a comment, which only a continued value can contain. -/
def scanValue : Bool → Bool → List UInt8 → List UInt8 × List UInt8 × Bool
  | continuation, _, [] => ([], [], continuation)
  | continuation, true, c :: line =>
    let p := scanValue continuation (c ≠ 10) line
    (c :: p.1, p.2)
  | continuation, false, c :: line =>
    -- a comment ends the value unless it has been continued
    if c = 10 ∨ c = 35 ∧ !continuation then ([], c :: line, continuation)
    else if c = 35 then
      let p := scanValue continuation true line
      (c :: p.1, p.2)
    else match line with
      | [] => ([c], [], continuation)
      | d :: line =>
        if c = 92 ∧ d = 10 then
          let p := scanValue true false line
          (c :: d :: p.1, p.2)
        else
          let p := scanValue continuation false (d :: line)
          (c :: p.1, p.2)

/-- `Now copy out and decode the value`: the comments and line ends of a continued value are
left out. -/
def joinLines : Bool → List UInt8 → List UInt8
  | _, [] => []
  | true, c :: v => joinLines (c ≠ 10) v
  | false, c :: v =>
    if c = 35 then joinLines true v
    else match v with
      | [] => [c]
      | d :: v => if c = 92 ∧ d = 10 then joinLines false v else c :: joinLines false (d :: v)

/-- A value without quotes, and the line after it. -/
def plainValue (line : List UInt8) : List UInt8 × List UInt8 :=
  let (scanned, rest, continuation) := scanValue false false line
  let value := scanned.rdropWhile torIsSpace
  (if continuation then joinLines false value else value,
    match rest with
    | c :: rest => if c = 10 then rest else c :: rest
    | [] => [])

/-- A value with quotes, after the first of them, and the line after it. -/
def quotedValue (line : List UInt8) : Except Str (List UInt8 × List UInt8) :=
  match unescapeString line with
  | none => .error (Str.lit "Invalid escape sequence in quoted string")
  | some (value, line) =>
    let line := line.dropWhile isBlank
    let line :=
      -- `++line` is done whether or not a newline comes after the CR
      match line with
      | c :: line =>
        if c = 13 then
          match line with
          | d :: line => if d = 10 then line else d :: line
          | [] => []
        else c :: line
      | [] => []
    if line.head?.any fun c => c ≠ 35 && c ≠ 10 then
      .error (Str.lit "Excess data after quoted string")
    else .ok (value, line)

/-- The end of `parse_config_line_from_str_verbose`: a comment and the white space after it. -/
def finishLine (line : List UInt8) : List UInt8 :=
  (if line.head? = some 35 then line.dropWhile (· ≠ 10) else line).dropWhile torIsSpace

/-- `parse_config_line_from_str_verbose`: the key and the value, if there is a line, and the
start of the next one. -/
def parseConfigLine (line : List UInt8) :
    Except Str (Option (List UInt8 × List UInt8) × List UInt8) :=
  match skipToKeyword false line with
  | [] => .ok (none, [])
  | line =>
    let (key, line) := takeKey line
    match line.dropWhile isBlank with
    | c :: line =>
      if c = 34 then (quotedValue line).map fun p => (some (key, p.1), finishLine p.2)
      else
        let (value, line) := plainValue (c :: line)
        .ok (some (key, value), finishLine line)
    | [] => .ok (some (key, []), [])

/-- `parse_config_line_from_str_verbose` repeated to the end of the text, for at most as many
lines as the number says. -/
def readLines : Nat → List UInt8 → Except Str (List (List UInt8 × List UInt8))
  | 0, _ => .ok []
  | n + 1, text => do
    let (option, rest) ← parseConfigLine text
    let options ← if rest.isEmpty then .ok [] else readLines n rest
    return option.toList ++ options

/-- The options of a configuration; it has no more lines than bytes. -/
def readConfig (text : List UInt8) : Except Str (List (List UInt8 × List UInt8)) :=
  readLines (text.length + 1) text

end P4

/-
  Lines of key-value pairs in the relay: `lib/encoding/kvline.c`, with `esc_for_log` in
  `lib/log/escape.c` and `decode_qstring` in `lib/encoding/qstring.c`.

  The control port uses them both ways: the arguments of a command are such a line, and so are
  the lines of a reply.  A C string is the list of its bytes before the NUL, a pair without a key
  has the empty one, and the empty list of pairs is `NULL`, which the parser also returns when it
  fails.
-/
import P4.Relayrc.Confline

namespace P4

/-! ### Characters -/

/-- `TOR_ISPRINT_TABLE` -/
def torIsPrintTable : List Nat := [0, 0xffffffff, 0xffffffff, 0x7fffffff, 0, 0, 0, 0]

/-- `TOR_ISPRINT` -/
def torIsPrint (c : UInt8) : Bool :=
  (torIsPrintTable.getD (c.toNat / 32) 0).testBit (c.toNat % 32)

/-- What stands between pairs: `" \t\r\v\n"`. -/
def isKvSpace (c : UInt8) : Bool := c = 32 || c = 9 || c = 13 || c = 11 || c = 10

/-! ### Quoted strings -/

/-- The last three bits of a number as a digit. -/
def octalDigit (n : Nat) : UInt8 := UInt8.ofNat (48 + n % 8)

/-- A character in `esc_for_log`. -/
def escChar (c : UInt8) : List UInt8 :=
  if c = 92 ∨ c = 34 ∨ c = 39 then [92, c]
  else if c = 10 then [92, 110]
  else if c = 9 then [92, 116]
  else if c = 13 then [92, 114]
  else if torIsPrint c && c.toNat < 127 then [c]
  -- "\\%03o"
  else [92, octalDigit (c.toNat / 64), octalDigit (c.toNat / 8), octalDigit c.toNat]

/-- `esc_for_log` -/
def escForLog (s : List UInt8) : List UInt8 := 34 :: (s.flatMap escChar ++ [34])

/-- `decode_qstring`, after the first quote: a backslash stands before any character. -/
def decodeQstring : List UInt8 → Option (List UInt8 × List UInt8)
  | [] => none
  | [c] => if c = 34 then some ([], []) else none
  | c :: d :: s =>
    if c = 34 then some ([], d :: s)
    else if c = 92 then (decodeQstring s).map fun p => (d :: p.1, p.2)
    else (decodeQstring (d :: s)).map fun p => (c :: p.1, p.2)

/-! ### Pairs -/

/-- `KV_QUOTED` and the other flags. -/
structure KvFlags where
  quoted : Bool := false
  omitKeys : Bool := false
  omitVals : Bool := false
  quotedQstring : Bool := false
  raw : Bool := false

/-- `config_line_t` -/
structure ConfigLine where
  key : List UInt8
  value : List UInt8
deriving DecidableEq

/-- `needs_escape` -/
def needsEscape (s : List UInt8) (asKeylessVal : Bool) : Bool :=
  (asKeylessVal && s.isEmpty) || (asKeylessVal && s.contains 61) ||
    s.any fun c => 127 ≤ c.toNat || torIsSpace c || !torIsPrint c || c = 39 || c = 34

/-- The test of one pair in `kvline_can_encode_lines`. -/
def ConfigLine.canEncode (flags : KvFlags) (line : ConfigLine) : Bool :=
  let keyless := line.key.isEmpty
  !(keyless && !flags.omitKeys) &&
    !(needsEscape line.value keyless && !(flags.quoted || flags.raw)) &&
    !(!keyless && needsEscape line.key true)

/-- `kvline_can_encode_lines` -/
def kvlineCanEncodeLines (flags : KvFlags) (lines : List ConfigLine) : Bool :=
  lines.all (ConfigLine.canEncode flags)

/-- One pair in `kvline_encode`. -/
def ConfigLine.element (flags : KvFlags) (line : ConfigLine) : List UInt8 :=
  let keyless := line.key.isEmpty
  if flags.omitVals && line.value.isEmpty then line.key
  else line.key ++ (if keyless then [] else [61]) ++
    if !flags.raw && needsEscape line.value keyless then escForLog line.value else line.value

/-- `kvline_encode` -/
def kvlineEncode (flags : KvFlags) (lines : List ConfigLine) : Option (List UInt8) :=
  if kvlineCanEncodeLines flags lines then
    some (List.intercalate [32] (lines.map (ConfigLine.element flags)))
  else none

/-- A value, quoted or not, and what comes after it. -/
def kvValue (flags : KvFlags) (cp : List UInt8) : Option (List UInt8 × List UInt8) :=
  if cp.head? = some 34 then
    if flags.quoted || flags.quotedQstring then
      (if flags.quoted then unescapeString cp.tail else decodeQstring cp.tail).filter
        fun p => !p.1.contains 0
    else none
  else
    let val := cp.takeWhile fun c => !isKvSpace c
    some (val, cp.drop val.length)

/-- One pair in `kvline_parse`, which starts where a pair does, and what comes after it. -/
def kvPair (flags : KvFlags) (cp : List UInt8) : Option (ConfigLine × List UInt8) :=
  let keyless := (kvValue flags cp).map fun p => (⟨[], p.1⟩, p.2)
  if cp.head? = some 34 then keyless
  else
    let word := cp.takeWhile fun c => !isKvSpace c && c ≠ 61
    let rest := cp.drop word.length
    if rest.head? = some 61 then
      -- an empty key is not allowed
      if word.isEmpty then none
      else (kvValue flags rest.tail).map fun p => (⟨word, p.1⟩, p.2)
    else if flags.omitVals then
      if word.isEmpty then none else some (⟨word, []⟩, rest)
    else if flags.omitKeys then keyless
    else none

/-- The loop of `kvline_parse`, for at most as many pairs as the number says. -/
def kvPairs (flags : KvFlags) : Nat → List UInt8 → Option (List ConfigLine)
  | 0, _ => none
  | n + 1, cp =>
    let cp := cp.dropWhile isKvSpace
    if cp.isEmpty then some []
    else (kvPair flags cp).bind fun p => (kvPairs flags n p.2).map fun lines => p.1 :: lines

/-- `kvline_parse`; there are no more pairs than characters. -/
def kvlineParse (flags : KvFlags) (line : List UInt8) : List ConfigLine :=
  match kvPairs flags (line.length + 1) line with
  | none => []
  | some lines =>
    if flags.quotedQstring || kvlineCanEncodeLines flags lines then lines else []

end P4

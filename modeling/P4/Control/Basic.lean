/-
  Commands to the onion relay over its control port, and their replies.

  `onionrelayControlCommand` is `P4Node._onionrelay_control_command`: it writes a line and reads
  the lines of one reply, with the data blocks in it.  The relay's side is
  `control_write_reply_line` with `write_escaped_data`, which puts a period before a period at
  the start of a line.

  A reply is decoded with `errors="replace"`, and `str.isdigit` accepts more than the ASCII
  digits; what it says of the other characters is a parameter (`PyDigits`).
-/
import P4.Node.Line
import P4.Stream.Basic
import Mathlib.Data.List.DropRight

namespace P4

/-! ### `bytes.decode("utf-8", errors="replace")` -/

/-- `b` may come after the first byte `a` of a character of more than one byte. -/
def secondByte (a b : UInt8) : Bool :=
  if a.toNat < 0xC2 then false
  else if a.toNat = 0xE0 then 0xA0 ≤ b.toNat && b.toNat < 0xC0
  else if a.toNat = 0xED then 0x80 ≤ b.toNat && b.toNat < 0xA0
  else if a.toNat = 0xF0 then 0x90 ≤ b.toNat && b.toNat < 0xC0
  else if a.toNat = 0xF4 then 0x80 ≤ b.toNat && b.toNat < 0x90
  else a.toNat < 0xF5 && isContinuation b

/-- U+FFFD -/
def replacementChar : Char := '\uFFFD'

/-- `bytes.decode("utf-8", errors="replace")`: the bytes that could still have become a character
are replaced together. -/
def decodeReplace : List UInt8 → Text
  | [] => []
  | [a] => if a.toNat < 0x80 then [Char.ofNat a.toNat] else [replacementChar]
  | a :: b :: r =>
    if a.toNat < 0x80 then Char.ofNat a.toNat :: decodeReplace (b :: r)
    else if !secondByte a b then replacementChar :: decodeReplace (b :: r)
    else if a.toNat < 0xE0 then
      Char.ofNat ((a.toNat - 0xC0) * 0x40 + (b.toNat - 0x80)) :: decodeReplace r
    else match r with
      | [] => [replacementChar]
      | c :: r =>
        if !isContinuation c then replacementChar :: decodeReplace (c :: r)
        else if a.toNat < 0xF0 then
          Char.ofNat ((a.toNat - 0xE0) * 0x1000 + (b.toNat - 0x80) * 0x40 + (c.toNat - 0x80)) ::
            decodeReplace r
        else match r with
          | [] => [replacementChar]
          | d :: r =>
            if !isContinuation d then replacementChar :: decodeReplace (d :: r)
            else Char.ofNat ((a.toNat - 0xF0) * 0x40000 + (b.toNat - 0x80) * 0x1000 +
              (c.toNat - 0x80) * 0x40 + (d.toNat - 0x80)) :: decodeReplace r

/-! ### Strings -/

/-- The digits beyond ASCII. -/
class PyDigits where
  /-- `str.isdigit` -/
  isDigit : Char → Bool
  /-- the value in `int`, which refuses digits that are not decimal -/
  decimal : Char → Option Nat

section

variable [PyDigits]

/-- `str.isdigit` on a character. -/
def isDigit (c : Char) : Bool :=
  if c.toNat < 0x80 then c.isDigit else PyDigits.isDigit c

/-- The value of a character in `int`. -/
def digitValue (c : Char) : Option Nat :=
  if c.toNat < 0x80 then some (c.toNat - 48) else PyDigits.decimal c

/-- `int(s)` of digits; `none` is `ValueError`. -/
def pyInt (s : Text) : Option Nat :=
  s.foldlM (fun n c => (digitValue c).map fun d => 10 * n + d) 0

/-- `s.rstrip("\r\n")` -/
def rstripNewlines (s : Text) : Text := s.rdropWhile fun c => c = '\r' || c = '\n'

/-! ### Commands -/

/-- A connection to the control port. -/
abbrev ControlDialog := Dialog UInt8 Exc

/-- `reader.readline()` -/
def controlReadline : ControlDialog (List UInt8) :=
  Dialog.readline 10 streamLimit (.builtin (Str.lit "ValueError"))

/-- A line as text, without its end. -/
def controlText (raw : List UInt8) : Text := rstripNewlines (decodeReplace raw)

/-- The inner loop of `_onionrelay_control_command`, for at most as many lines as the number
says: a data block up to its period. -/
def readDataBlock : Nat → List Text → ControlDialog (List Text)
  | 0, _ => Dialog.stall
  | n + 1, lines => do
    let chunk ← controlReadline
    if chunk.isEmpty then
      Dialog.raise (.runtime (Str.lit "EOF during OnionRelay control data block"))
    else
      let text := controlText chunk
      if text = ['.'] then pure lines
      else readDataBlock n (lines ++ [if ['.', '.'].isPrefixOf text then text.drop 1 else text])

/-- What a line of a reply says: its code, its separator and the rest. -/
structure ReplyHead where
  code : Nat
  sep : Char
  rest : Text

/-- The first checks on a line of a reply. -/
def replyHead (line : Text) : Except Exc ReplyHead :=
  if line.length < 3 || !(line.take 3).all isDigit then
    .error (.runtime (Str.lit "Malformed OnionRelay control reply: " ++ Str.ofText line))
  else match pyInt (line.take 3) with
    | none => .error (.builtin (Str.lit "ValueError"))
    | some code =>
      let rest := line.drop 4
      if 400 ≤ code then
        .error (.runtime (Str.lit "OnionRelay control error " ++ decimal code ++ Str.lit ": " ++
          Str.ofText rest))
      else .ok { code := code, sep := line.getD 3 ' ', rest := rest }

/-- The outer loop of `_onionrelay_control_command`, for at most as many lines as the number
says: the lines of one reply. -/
def readReply : Nat → List Text → ControlDialog (List Text)
  | 0, _ => Dialog.stall
  | n + 1, lines => do
    let raw ← controlReadline
    if raw.isEmpty then Dialog.raise (.runtime (Str.lit "EOF from OnionRelay control port"))
    else
      let line := controlText raw
      match replyHead line with
      | .error e => Dialog.raise e
      | .ok head =>
        if head.sep = '+' then do
          let lines ← readDataBlock n (lines ++ [head.rest])
          readReply n lines
        else if head.sep = ' ' then pure (lines ++ [head.rest])
        else if head.sep = '-' then readReply n (lines ++ [head.rest])
        else Dialog.raise (.runtime
          (Str.lit "Unexpected OnionRelay control line separator: " ++ Str.ofText line))

/-- The lines of one reply; there are no more of them than bytes. -/
def readControlReply : ControlDialog (List Text) := fun w => readReply (w.contents.length + 1) [] w

/-- `P4Node._onionrelay_control_command` on an open connection. -/
def onionrelayControlCommand (command : Str) : ControlDialog (List Text) := do
  match encodeUtf8 (command ++ Str.lit "\r\n") with
  | .error e => Dialog.raise e
  | .ok text => do
    Dialog.write (encodeText text)
    readControlReply

end

/-! ### The relay -/

/-- `write_escaped_data`: the loop, from `*data` on; `prev` is `data[-1]` if there is one. -/
def escapeData : Option Char → Bool → Text → Text
  | _, _, [] => []
  | prev, startOfLine, c :: data =>
    if c = '\n' then
      if prev.any (· ≠ '\r') then '\r' :: '\n' :: escapeData (some c) true data
      else '\n' :: escapeData (some c) true data
    else if c = '.' then
      if startOfLine then '.' :: '.' :: escapeData (some c) false data
      else '.' :: escapeData (some c) false data
    else c :: escapeData (some c) false data

/-- `write_escaped_data` -/
def writeEscapedData (data : Text) : Text :=
  let out := escapeData none true data
  if out.length < 2 || out.drop (out.length - 2) ≠ ['\r', '\n'] then
    out ++ ['\r', '\n', '.', '\r', '\n']
  else out ++ ['.', '\r', '\n']

/-- `%03d`, of a number below 1000. -/
def code3 (code : Nat) : Text :=
  [Nat.digitChar (code / 100), Nat.digitChar (code / 10 % 10), Nat.digitChar (code % 10)]

/-- `control_write_reply` -/
def controlWriteReply (code : Nat) (c : Char) (s : Text) : Text :=
  code3 code ++ c :: s ++ ['\r', '\n']

end P4

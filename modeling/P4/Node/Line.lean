/-
  The lines of the signaling protocol: one JSON object a line, in UTF-8.

  `readline` is `asyncio.StreamReader.readline` on the bytes that a connection delivers before
  it ends, with the default limit on the length of a line.
-/
import P4.Json.Parse
import P4.Core.Binding

namespace P4

/-! ### UTF-8 -/

/-- A continuation byte. -/
def isContinuation (b : UInt8) : Bool := 0x80 ≤ b.toNat && b.toNat < 0xC0

/-- `bytes.decode("utf-8")`; `none` is `UnicodeDecodeError`. -/
def decodeUtf8 : List UInt8 → Option Text
  | [] => some []
  | a :: r =>
    if a.toNat < 0x80 then (decodeUtf8 r).map (Char.ofNat a.toNat :: ·)
    else match r with
      | [] => none
      | b :: r =>
        if !isContinuation b then none
        else if 0xC2 ≤ a.toNat ∧ a.toNat < 0xE0 then
          (decodeUtf8 r).map (Char.ofNat ((a.toNat - 0xC0) * 0x40 + (b.toNat - 0x80)) :: ·)
        else match r with
          | [] => none
          | c :: r =>
            let n₃ := (a.toNat - 0xE0) * 0x1000 + (b.toNat - 0x80) * 0x40 + (c.toNat - 0x80)
            if !isContinuation c then none
            else if 0xE0 ≤ a.toNat ∧ a.toNat < 0xF0 then
              -- neither an overlong form nor a surrogate
              if 0x800 ≤ n₃ ∧ ¬(0xD800 ≤ n₃ ∧ n₃ < 0xE000) then
                (decodeUtf8 r).map (Char.ofNat n₃ :: ·)
              else none
            else match r with
              | [] => none
              | d :: r =>
                let n₄ := (a.toNat - 0xF0) * 0x40000 + (b.toNat - 0x80) * 0x1000 +
                  (c.toNat - 0x80) * 0x40 + (d.toNat - 0x80)
                if isContinuation d ∧ 0xF0 ≤ a.toNat ∧ 0x10000 ≤ n₄ ∧ n₄ < 0x110000 then
                  (decodeUtf8 r).map (Char.ofNat n₄ :: ·)
                else none

/-- `str.encode("utf-8")` on text. -/
def encodeText (t : Text) : List UInt8 := t.flatMap String.utf8EncodeChar

/-! ### Lines -/

/-- The limit of a `StreamReader`. -/
def streamLimit : Nat := 65536

/-- `StreamReader.readline`: the line with its newline, or what is left at the end of the
stream, and the rest of the stream. -/
def readline (stream : List UInt8) : Except Exc (List UInt8 × List UInt8) :=
  let line := stream.takeWhile (· ≠ 10)
  if line.length > streamLimit then .error (.builtin (Str.lit "ValueError"))
  else match stream.dropWhile (· ≠ 10) with
    | [] => .ok (line, [])
    | newline :: rest => .ok (line ++ [newline], rest)

section

variable {F : Type} [JsonFloat F]

/-- `P4Node._read_json_line`, with the rest of the stream. -/
def readJsonLine (stream : List UInt8) : Except Exc (Members F × List UInt8) := do
  let (raw, rest) ← readline stream
  if raw.isEmpty then .error (.runtime (Str.lit "EOF while reading JSON line"))
  else match decodeUtf8 raw with
    | none => .error (.builtin (Str.lit "UnicodeDecodeError"))
    | some text =>
      match Json.loads text with
      | none => .error (.runtime (Str.lit "Invalid JSON line received"))
      | some (.obj val) => .ok (val, rest)
      | some _ => .error (.runtime (Str.lit "Expected JSON object"))

/-- What `P4Node._write_json_line` writes. -/
def writeJsonLine (payload : Members F) : List UInt8 :=
  encodeText (Json.dumpsSorted (.obj payload) ++ ['\n'])

end

end P4

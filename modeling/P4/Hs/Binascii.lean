/-
  Base64 and base32 in the relay: `lib/encoding/binascii.c`.

  The buffers are lists of bytes; a buffer for the result is given by its length where the code
  looks at it.  The sizes that the code asserts to be below `INT_MAX` and `SIZE_T_CEILING` are;
  the size of the buffer that `base64_decode` checks may be any.
-/
import P4.Control.Command

namespace P4

/-! ### Base64 -/

/-- `base64_encode_table` -/
def base64EncodeTable : List UInt8 :=
  ascii "ABCDEFGHIJKLMNOPQRSTUVWXYZabcdefghijklmnopqrstuvwxyz0123456789+/"

/-- `ENCODE_N` -/
def encodeN (n idx : Nat) : UInt8 :=
  base64EncodeTable.getD ((n >>> ((3 - idx) * 6)) &&& 0x3f) 0

/-- The loop of `base64_encode` with what follows it: `n` holds the bytes that have not been
written, and `nIdx` is their number. -/
def base64EncodeLoop : Nat → Nat → List UInt8 → List UInt8
  | n, nIdx, [] =>
    if nIdx = 1 then [encodeN (n <<< 4) 2, encodeN (n <<< 4) 3, 61, 61]
    else if nIdx = 2 then
      [encodeN (n <<< 2) 1, encodeN (n <<< 2) 2, encodeN (n <<< 2) 3, 61]
    else []
  | n, nIdx, b :: src =>
    let n := (n <<< 8) ||| b.toNat
    if nIdx + 1 = 3 then
      encodeN n 0 :: encodeN n 1 :: encodeN n 2 :: encodeN n 3 :: base64EncodeLoop 0 0 src
    else base64EncodeLoop n (nIdx + 1) src

/-- `base64_encode`, without `BASE64_ENCODE_MULTILINE` and with room for the result. -/
def base64Encode (src : List UInt8) : List UInt8 := base64EncodeLoop 0 0 src

/-- The entries of `base64_decode_table`. -/
inductive Base64Entry where
  /-- `X` -/
  | invalid
  /-- `SP` -/
  | space
  /-- `PAD` -/
  | pad
  | digit (v : Nat)
deriving DecidableEq

/-- `base64_decode_table` -/
def base64DecodeTable (c : UInt8) : Base64Entry :=
  let n := c.toNat
  if n = 9 ∨ n = 10 ∨ n = 11 ∨ n = 13 ∨ n = 32 then .space
  else if n = 43 then .digit 62
  else if n = 47 then .digit 63
  else if 48 ≤ n ∧ n ≤ 57 then .digit (n - 48 + 52)
  else if n = 61 then .pad
  else if 65 ≤ n ∧ n ≤ 90 then .digit (n - 65)
  else if 97 ≤ n ∧ n ≤ 122 then .digit (n - 97 + 26)
  else .invalid

/-- The end of `base64_decode`: what is left over. -/
def base64DecodeEnd (destlen n nIdx : Nat) (dest : List UInt8) : Option (List UInt8) :=
  if nIdx = 1 then none
  else if nIdx = 2 then
    if destlen < 1 ∨ destlen - 1 < dest.length then none else some (dest ++ [UInt8.ofNat (n >>> 4)])
  else if nIdx = 3 then
    if destlen < 2 ∨ destlen - 2 < dest.length then none
    else some (dest ++ [UInt8.ofNat (n >>> 10), UInt8.ofNat (n >>> 2)])
  else some dest

/-- The loop of `base64_decode` with what follows it. -/
def base64DecodeLoop (destlen : Nat) : Nat → Nat → List UInt8 → List UInt8 → Option (List UInt8)
  | n, nIdx, dest, [] => base64DecodeEnd destlen n nIdx dest
  | n, nIdx, dest, c :: src =>
    match base64DecodeTable c with
    | .invalid => none
    | .space => base64DecodeLoop destlen n nIdx dest src
    | .pad => base64DecodeEnd destlen n nIdx dest
    | .digit v =>
      let n := (n <<< 6) ||| v
      if nIdx + 1 = 4 then
        if destlen < 3 ∨ destlen - 3 < dest.length then none
        else base64DecodeLoop destlen 0 0
          (dest ++ [UInt8.ofNat (n >>> 16), UInt8.ofNat ((n >>> 8) &&& 0xff),
            UInt8.ofNat (n &&& 0xff)]) src
      else base64DecodeLoop destlen n (nIdx + 1) dest src

/-- `INT_MAX` -/
def intMax : Nat := 2147483647

/-- `base64_decode`: the bytes that are written; `none` is `-1`. -/
def base64Decode (destlen : Nat) (src : List UInt8) : Option (List UInt8) :=
  if intMax < destlen then none else base64DecodeLoop destlen 0 0 [] src

/-! ### Base32 -/

/-- `BASE32_CHARS` -/
def base32Chars : List UInt8 := ascii "abcdefghijklmnopqrstuvwxyz234567"

/-- The character of `base32_encode` for the five bits from `5 * i` on. -/
def base32Digit (src : List UInt8) (i : Nat) : Nat :=
  let bit := 5 * i
  let idx := bit / 8
  let v := (src.getD idx 0).toNat <<< 8
  let v := if idx + 1 < src.length then v + (src.getD (idx + 1) 0).toNat else v
  (v >>> (11 - bit % 8)) &&& 0x1F

/-- `base32_encode` -/
def base32Encode (src : List UInt8) : List UInt8 :=
  (List.range ((src.length * 8 + 4) / 5)).map fun i => base32Chars.getD (base32Digit src i) 0

/-- The five bits of a character in `base32_decode`. -/
def base32Value (c : UInt8) : Option Nat :=
  let n := c.toNat
  if 0x60 < n ∧ n < 0x7B then some (n - 0x61)
  else if 0x31 < n ∧ n < 0x38 then some (n - 0x18)
  else if 0x40 < n ∧ n < 0x5B then some (n - 0x41)
  else none

/-- A byte in `base32_decode`, from the bit `8 * i` on. -/
def base32Byte (tmp : List Nat) (i : Nat) : UInt8 :=
  let bit := 8 * i
  let digit (k : Nat) : Nat := tmp.getD (bit / 5 + k) 0
  UInt8.ofNat (match bit % 40 with
    | 0 => (digit 0 <<< 3) + (digit 1 >>> 2)
    | 8 => (digit 0 <<< 6) + (digit 1 <<< 1) + (digit 2 >>> 4)
    | 16 => (digit 0 <<< 4) + (digit 1 >>> 1)
    | 24 => (digit 0 <<< 7) + (digit 1 <<< 2) + (digit 2 >>> 3)
    | _ => (digit 0 <<< 5) + digit 1)

/-- `base32_decode`, with room for the result; `none` is `-1`. -/
def base32Decode (src : List UInt8) : Option (List UInt8) :=
  (src.mapM base32Value).map fun tmp => (List.range (src.length * 5 / 8)).map (base32Byte tmp)

end P4

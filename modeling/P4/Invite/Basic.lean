/-
  Invite files in the encodings that editors and shells write.

  `readTextAnyCommonEncoding` is `read_text_any_common_encoding` on the bytes of the file: the
  first decoder that does not fail decides.  Without a byte order mark, `utf-16` is the order of
  the machine; this is a parameter.
-/
import P4.Node.Line

namespace P4

/-! ### UTF-16 -/

/-- `sys.byteorder` -/
inductive ByteOrder where
  | little
  | big
deriving DecidableEq

namespace ByteOrder

/-- The code unit of two bytes. -/
def unit : ByteOrder → UInt8 → UInt8 → Nat
  | little, a, b => b.toNat * 256 + a.toNat
  | big, a, b => a.toNat * 256 + b.toNat

/-- The two bytes of a code unit. -/
def unitBytes : ByteOrder → Nat → List UInt8
  | little, u => [UInt8.ofNat (u % 256), UInt8.ofNat (u / 256)]
  | big, u => [UInt8.ofNat (u / 256), UInt8.ofNat (u % 256)]

/-- U+FEFF as the byte order mark. -/
def bom (order : ByteOrder) : List UInt8 := order.unitBytes 0xFEFF

end ByteOrder

/-- `bytes.decode("utf-16-le")` and `bytes.decode("utf-16-be")`; `none` is
`UnicodeDecodeError`. -/
def decodeUtf16 (order : ByteOrder) : List UInt8 → Option Text
  | [] => some []
  | [_] => none
  | a :: b :: r =>
    let u := order.unit a b
    if u < 0xD800 ∨ 0xE000 ≤ u then (decodeUtf16 order r).map (Char.ofNat u :: ·)
    else if 0xDC00 ≤ u then none
    else match r with
      | c :: d :: r =>
        let v := order.unit c d
        if 0xDC00 ≤ v ∧ v < 0xE000 then
          (decodeUtf16 order r).map
            (Char.ofNat (0x10000 + (u - 0xD800) * 0x400 + (v - 0xDC00)) :: ·)
        else none
      | _ => none

/-- The bytes of a character: one code unit or a surrogate pair. -/
def encodeUtf16Char (order : ByteOrder) (c : Char) : List UInt8 :=
  if c.toNat < 0x10000 then order.unitBytes c.toNat
  else order.unitBytes (0xD800 + (c.toNat - 0x10000) / 0x400) ++
    order.unitBytes (0xDC00 + (c.toNat - 0x10000) % 0x400)

/-- The bytes of a text in UTF-16, without a byte order mark. -/
def encodeUtf16 (order : ByteOrder) (t : Text) : List UInt8 := t.flatMap (encodeUtf16Char order)

/-! ### Decoders -/

/-- U+FEFF in UTF-8: `codecs.BOM_UTF8` -/
def bomUtf8 : List UInt8 := [0xEF, 0xBB, 0xBF]

/-- `bytes.decode("utf-8-sig")` -/
def decodeUtf8Sig (raw : List UInt8) : Option Text :=
  decodeUtf8 (if bomUtf8.isPrefixOf raw then raw.drop 3 else raw)

/-- `bytes.decode("utf-16")`: a byte order mark decides, or else the machine. -/
def decodeUtf16Bom (native : ByteOrder) (raw : List UInt8) : Option Text :=
  if ByteOrder.little.bom.isPrefixOf raw then decodeUtf16 .little (raw.drop 2)
  else if ByteOrder.big.bom.isPrefixOf raw then decodeUtf16 .big (raw.drop 2)
  else decodeUtf16 native raw

/-- `read_text_any_common_encoding`, on `path.read_bytes()`. -/
def readTextAnyCommonEncoding (native : ByteOrder) (raw : List UInt8) : Except Exc Text :=
  let decoders := [decodeUtf8Sig, decodeUtf16Bom native, decodeUtf16 .little, decodeUtf16 .big]
  match decoders.findSome? fun decode => decode raw with
  | some text => .ok text
  | none =>
    match decodeUtf8 raw with
    | some text => .ok text
    | none => .error (.builtin (Str.lit "UnicodeDecodeError"))

/-- `raw.lstrip("\ufeff")` -/
def lstripBom (text : Text) : Text := text.dropWhile (· = '\uFEFF')

/-- The text that `_add_contact_from_file` and `parse_invite_payload` give to `json.loads`. -/
def readInviteFile (native : ByteOrder) (raw : List UInt8) : Except Exc Text :=
  (readTextAnyCommonEncoding native raw).map lstripBom

/-! ### Encodings -/

/-- How a file was written. -/
inductive TextEncoding where
  | utf8
  | utf8Sig
  | utf16 (order : ByteOrder)
  | utf16NoBom (order : ByteOrder)
deriving DecidableEq

/-- The bytes of the file. -/
def TextEncoding.encode : TextEncoding → Text → List UInt8
  | utf8, t => encodeText t
  | utf8Sig, t => bomUtf8 ++ encodeText t
  | utf16 order, t => order.bom ++ encodeUtf16 order t
  | utf16NoBom order, t => encodeUtf16 order t

end P4

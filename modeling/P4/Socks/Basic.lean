/-
  The SOCKS5 connection to the onion relay.

  `socks5Handshake` is `P4Node._socks5_handshake`.  The relay's side is the parser in its
  `trunnel/socks5.c`: `socks5_client_version_parse` for the greeting and
  `socks5_client_request_parse` for the request; `SocksReply` is the format of
  `socks5_server_reply`, of which the node ignores the reserved byte, the address and the port.
-/
import P4.Core.Binding
import P4.Stream.Basic

namespace P4

/-! ### Messages -/

/-- A string of `n` bytes. -/
abbrev Bytes (n : Nat) := { l : List UInt8 // l.length = n }

/-- `dest_addr` and `bind_addr`: an address with its type. -/
inductive SocksAddress where
  | ipv4 (addr : Bytes 4)
  | domainname (name : { l : List UInt8 // l.length < 256 })
  | ipv6 (addr : Bytes 16)
deriving DecidableEq

namespace SocksAddress

/-- `ATYPE_IPV4`, `ATYPE_DOMAINNAME`, `ATYPE_IPV6` -/
def atype : SocksAddress → UInt8
  | ipv4 _ => 1
  | domainname _ => 3
  | ipv6 _ => 4

/-- The bytes after the type. -/
def encode : SocksAddress → List UInt8
  | ipv4 addr => addr.val
  | domainname name => UInt8.ofNat name.val.length :: name.val
  | ipv6 addr => addr.val

end SocksAddress

/-- A reply with status 0: `socks5_server_reply`. -/
structure SocksReply where
  reserved : UInt8
  bindAddr : SocksAddress
  bindPort : Bytes 2

/-- The bytes of a reply. -/
def SocksReply.encode (r : SocksReply) : List UInt8 :=
  [5, 0, r.reserved, r.bindAddr.atype] ++ (r.bindAddr.encode ++ r.bindPort.val)

/-! ### The node -/

/-- A connection to the SOCKS port. -/
abbrev SocksDialog := Dialog UInt8 Exc

/-- `reader.readexactly(n)` -/
def socksReadexactly (n : Nat) : SocksDialog (List UInt8) :=
  Dialog.readexactly (.builtin (Str.lit "IncompleteReadError")) n

/-- `str.encode("ascii")` -/
def encodeAscii (s : Str) : Except Exc (List UInt8) :=
  if s.all fun c => c.val < 0x80 then .ok (s.map fun c => UInt8.ofNat c.val)
  else .error (.builtin (Str.lit "UnicodeEncodeError"))

/-- `port.to_bytes(2, "big")` -/
def portBytes (port : Int) : Except Exc (List UInt8) :=
  if 0 ≤ port ∧ port < 65536 then
    .ok [UInt8.ofNat (port.toNat / 256), UInt8.ofNat (port.toNat % 256)]
  else .error (.builtin (Str.lit "OverflowError"))

/-- The greeting: one method, without authentication. -/
def socksGreeting : List UInt8 := [5, 1, 0]

/-- `req` in `_socks5_handshake` -/
def socksRequest (hostBytes port : List UInt8) : List UInt8 :=
  [5, 1, 0, 3] ++ UInt8.ofNat hostBytes.length :: hostBytes ++ port

/-- The end of `_socks5_handshake`, after the request was written. -/
def socksReadReply : SocksDialog Unit := do
  let head ← socksReadexactly 4
  if head.getD 0 0 ≠ 5 ∨ head.getD 1 0 ≠ 0 then
    Dialog.raise (.runtime
      (Str.lit "SOCKS connect failed, code=" ++ decimal (head.getD 1 0).toNat))
  else if head.getD 3 0 = 1 then do
    let _ ← socksReadexactly (4 + 2)
    pure ()
  else if head.getD 3 0 = 3 then do
    let ln ← socksReadexactly 1
    let _ ← socksReadexactly ((ln.getD 0 0).toNat + 2)
    pure ()
  else if head.getD 3 0 = 4 then do
    let _ ← socksReadexactly (16 + 2)
    pure ()
  else Dialog.raise (.runtime (Str.lit "SOCKS replied with unknown address type"))

/-- `P4Node._socks5_handshake` -/
def socks5Handshake (host : Str) (port : Int) : SocksDialog Unit := do
  Dialog.write socksGreeting
  let resp ← socksReadexactly 2
  if resp ≠ [5, 0] then Dialog.raise (.runtime (Str.lit "SOCKS auth negotiation failed"))
  else match encodeAscii host with
    | .error e => Dialog.raise e
    | .ok hostBytes =>
      if 255 < hostBytes.length then
        Dialog.raise (.runtime (Str.lit "SOCKS domain name too long"))
      else match portBytes port with
        | .error e => Dialog.raise e
        | .ok port => do
          Dialog.write (socksRequest hostBytes port)
          socksReadReply

/-! ### The relay -/

/-- How a parser fails: the return values -1 and -2. -/
inductive TrunnelError where
  | fail
  | truncated
deriving DecidableEq

/-- A parser: what it makes of the input, and the input after it. -/
abbrev TrunnelParser := StateT (List UInt8) (Except TrunnelError)

/-- `CHECK_REMAINING(n, truncated)`, and the `n` bytes. -/
def takeBytes (n : Nat) : TrunnelParser (Bytes n) := fun input =>
  if h : n ≤ input.length then .ok (⟨input.take n, List.length_take_of_le h⟩, input.drop n)
  else .error .truncated

/-- `CHECK_REMAINING(1, truncated)`, and the byte. -/
def takeByte : TrunnelParser UInt8
  | [] => .error .truncated
  | b :: input => .ok (b, input)

/-- `domainname_parse_into` -/
def domainnameParse : TrunnelParser { l : List UInt8 // l.length < 256 } := do
  let len ← takeByte
  let name ← takeBytes len.toNat
  return ⟨name.val, name.property.symm ▸ len.toNat_lt⟩

/-- `Parse union dest_addr[atype]` -/
def addressParse (atype : UInt8) : TrunnelParser SocksAddress :=
  if atype = 1 then .ipv4 <$> takeBytes 4
  else if atype = 4 then .ipv6 <$> takeBytes 16
  else if atype = 3 then .domainname <$> domainnameParse
  else throw .fail

/-- `CMD_CONNECT` -/
def cmdConnect : UInt8 := 1

/-- The commands: `CMD_BIND`, `CMD_CONNECT`, `CMD_RESOLVE`, `CMD_RESOLVE_PTR`,
`CMD_UDP_ASSOCIATE`. -/
def socksCommands : List UInt8 := [2, cmdConnect, 0xF0, 0xF1, 3]

/-- `socks5_client_request`, without the bytes that have one value only. -/
structure ClientRequest where
  command : UInt8
  destAddr : SocksAddress
  destPort : Nat
deriving DecidableEq

/-- `socks5_client_request_parse_into` -/
def clientRequestParse : TrunnelParser ClientRequest := do
  let version ← takeByte
  if version ≠ 5 then throw .fail
  else
    let command ← takeByte
    if command ∉ socksCommands then throw .fail
    else
      let reserved ← takeByte
      if reserved ≠ 0 then throw .fail
      else
        let atype ← takeByte
        let destAddr ← addressParse atype
        let port ← takeBytes 2
        return { command := command, destAddr := destAddr,
                 destPort := (port.val.getD 0 0).toNat * 256 + (port.val.getD 1 0).toNat }

end P4

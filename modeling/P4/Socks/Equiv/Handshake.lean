/-
  The SOCKS5 handshake reads one reply and nothing after it.

  A reply is as long as its address type and, for a domain name, its length byte say.  The
  handshake returns exactly when such a reply comes after the answer to the greeting, however it
  is cut into chunks, and leaves the connection at the byte after it (`socks5Handshake_exact`).
  What it wrote is read by the relay's parser as a request for the host and the port.
-/
import P4.Core.Equiv.Binding
import P4.Node.Equiv.Line
import P4.Socks.Basic

namespace P4

open Dialog

/-! ### The relay's parser -/

theorem trunnel_bind {α β : Type} {x : TrunnelParser α} {a : α} {input more : List UInt8}
    (h : x input = .ok (a, more)) (f : α → TrunnelParser β) :
    (x >>= f) input = f a more := by
  change (x input >>= fun p => f p.1 p.2) = f a more
  rw [h]
  rfl

theorem trunnel_map {α β : Type} {x : TrunnelParser α} {a : α} {input more : List UInt8}
    (h : x input = .ok (a, more)) (f : α → β) : (f <$> x) input = .ok (f a, more) := by
  change (x input >>= fun p => pure (f p.1, p.2)) = _
  rw [h]
  rfl

theorem takeByte_cons (b : UInt8) (input : List UInt8) :
    takeByte (b :: input) = .ok (b, input) := rfl

theorem takeBytes_append {n : Nat} (bytes : Bytes n) (more : List UInt8) :
    takeBytes n (bytes.val ++ more) = .ok (bytes, more) := by
  obtain ⟨bytes, rfl⟩ := bytes
  have hle : bytes.length ≤ (bytes ++ more).length := by
    rw [List.length_append]
    exact Nat.le_add_right _ _
  rw [takeBytes, dif_pos hle]
  simp only [List.take_left, List.drop_left]

theorem toNat_ofNat_length {l : List UInt8} (h : l.length < 256) :
    (UInt8.ofNat l.length).toNat = l.length := by
  rw [UInt8.toNat_ofNat']
  omega

theorem domainnameParse_encode (name : { l : List UInt8 // l.length < 256 })
    (more : List UInt8) :
    domainnameParse (UInt8.ofNat name.val.length :: (name.val ++ more)) = .ok (name, more) := by
  have hlen := toNat_ofNat_length name.property
  have htake := takeBytes_append ⟨name.val, hlen.symm⟩ more
  rw [domainnameParse, trunnel_bind (takeByte_cons _ _), trunnel_bind htake]
  rfl

/-- An address is read back. -/
theorem addressParse_encode (a : SocksAddress) (more : List UInt8) :
    addressParse a.atype (a.encode ++ more) = .ok (a, more) := by
  cases a with
  | ipv4 addr => exact trunnel_map (takeBytes_append addr more) SocksAddress.ipv4
  | domainname name => exact trunnel_map (domainnameParse_encode name more) SocksAddress.domainname
  | ipv6 addr => exact trunnel_map (takeBytes_append addr more) SocksAddress.ipv6

/-- The relay reads a request for the host and the port. -/
structure ClientRequest.Connects (q : ClientRequest) (host : Text) (port : Int) : Prop where
  command : q.command = cmdConnect
  destAddr : ∃ name, q.destAddr = .domainname name ∧ decodeUtf8 name.val = some host
  destPort : (q.destPort : Int) = port

/-- The request is read as it was meant. -/
theorem clientRequestParse_socksRequest (name : { l : List UInt8 // l.length < 256 })
    (port : Bytes 2) (more : List UInt8) :
    clientRequestParse (socksRequest name.val port.val ++ more) =
      .ok ({ command := cmdConnect, destAddr := .domainname name,
             destPort := (port.val.getD 0 0).toNat * 256 + (port.val.getD 1 0).toNat }, more) := by
  have haddr := addressParse_encode (.domainname name) (port.val ++ more)
  -- the address type is that of the name, so the address is read back as one
  have hrequest : socksRequest name.val port.val ++ more =
      5 :: cmdConnect :: 0 :: SocksAddress.atype (.domainname name) ::
        (SocksAddress.encode (.domainname name) ++ (port.val ++ more)) := by
    simp [socksRequest, SocksAddress.atype, SocksAddress.encode, cmdConnect]
  rw [hrequest, clientRequestParse, trunnel_bind (takeByte_cons _ _), if_neg (by decide),
    trunnel_bind (takeByte_cons _ _), if_neg (by decide), trunnel_bind (takeByte_cons _ _),
    if_neg (by decide), trunnel_bind (takeByte_cons _ _), trunnel_bind haddr,
    trunnel_bind (takeBytes_append port more)]
  rfl

/-! ### Host and port -/

theorem encodeAscii_ofText {host : Text} (hhost : ∀ c ∈ host, c.toNat < 0x80) :
    encodeAscii (Str.ofText host) = .ok (host.map asciiByte) := by
  have hall : (Str.ofText host).all (fun c => c.val < 0x80) = true := by
    rw [Str.ofText, List.all_map, List.all_eq_true]
    intro c hc
    have := hhost c hc
    rwa [Function.comp_apply, Str.ofChar_val, decide_eq_true_eq]
  rw [encodeAscii, if_pos hall, Str.ofText, List.map_map]
  congr 1
  apply List.map_congr_left
  intro c hc
  rw [Function.comp_apply, Str.ofChar_val]
  rfl

theorem portBytes_of_lt {port : Int} (hport : 0 ≤ port ∧ port < 65536) :
    ∃ bytes : Bytes 2, portBytes port = .ok bytes.val ∧
      (((bytes.val.getD 0 0).toNat * 256 + (bytes.val.getD 1 0).toNat : Nat) : Int) = port := by
  refine ⟨⟨[UInt8.ofNat (port.toNat / 256), UInt8.ofNat (port.toNat % 256)], rfl⟩, if_pos hport, ?_⟩
  simp only [List.getD_cons_zero, List.getD_cons_succ, UInt8.toNat_ofNat']
  omega

/-! ### The reply -/

/-- Bytes that are read and ignored. -/
theorem yields_skip {bytes : List UInt8} {n : Nat} (h : bytes.length = n) :
    Yields (do let _ ← socksReadexactly n; pure ()) bytes (.ok ()) [] := by
  subst h
  have hread := yields_readexactly (.builtin (Str.lit "IncompleteReadError") : Exc) bytes
  have hskip := hread.bind (g := fun _ => pure ()) (yields_pure ())
  rwa [List.append_nil] at hskip

theorem skip_returned {n : Nat} {w w' : Wire UInt8}
    (h : (do let _ ← socksReadexactly n; pure () : SocksDialog Unit) w = (.returned (), w')) :
    ∃ bytes : Bytes n, w.After w' bytes.val [] := by
  obtain ⟨bytes, w₁, hread, hpure⟩ := bind_returned.mp h
  obtain ⟨hlen, hafter⟩ := readexactly_returned hread
  cases hpure
  exact ⟨⟨bytes, hlen⟩, hafter⟩

/-- A reply is read up to its last byte. -/
theorem yields_socksReadReply (r : SocksReply) :
    Yields socksReadReply r.encode (.ok ()) [] := by
  have hhead : Yields (socksReadexactly 4) [5, 0, r.reserved, r.bindAddr.atype]
      (.ok [5, 0, r.reserved, r.bindAddr.atype]) [] := yields_readexactly _ _
  refine hhead.bind ?_
  obtain ⟨reserved, bindAddr, bindPort⟩ := r
  have hport := bindPort.property
  cases bindAddr with
  | ipv4 addr =>
    have haddr := addr.property
    refine yields_skip ?_
    rw [List.length_append, SocksAddress.encode, haddr, hport]
  | domainname name =>
    -- the length byte, and as many bytes as it says
    have hlen := toNat_ofNat_length name.property
    have hln : Yields (socksReadexactly 1) [UInt8.ofNat name.val.length]
        (.ok [UInt8.ofNat name.val.length]) [] := yields_readexactly _ _
    have hskip : (name.val ++ bindPort.val).length =
        ([UInt8.ofNat name.val.length].getD 0 0).toNat + 2 := by
      rw [List.length_append, hport, List.getD_cons_zero, hlen]
    exact hln.bind (yields_skip hskip)
  | ipv6 addr =>
    have haddr := addr.property
    refine yields_skip ?_
    rw [List.length_append, SocksAddress.encode, haddr, hport]

/-- The bytes of an address and a port, taken apart. -/
theorem exists_append {n m : Nat} (bytes : Bytes (n + m)) :
    ∃ (addr : Bytes n) (port : Bytes m), bytes.val = addr.val ++ port.val := by
  obtain ⟨bytes, hlen⟩ := bytes
  refine ⟨⟨bytes.take n, ?_⟩, ⟨bytes.drop n, ?_⟩, (List.take_append_drop n bytes).symm⟩
  · rw [List.length_take_of_le (by omega)]
  · rw [List.length_drop]
    omega

/-- What was read is a reply. -/
theorem socksReadReply_returned {w w' : Wire UInt8}
    (h : socksReadReply w = (.returned (), w')) : ∃ r : SocksReply, w.After w' r.encode [] := by
  obtain ⟨head, w₁, hread, h⟩ := bind_returned.mp h
  obtain ⟨hlen, hhead⟩ := readexactly_returned hread
  obtain ⟨version, status, reserved, atyp, rfl⟩ := List.length_eq_four.mp hlen
  simp only [List.getD_cons_zero, List.getD_cons_succ] at h
  by_cases hstatus : version ≠ 5 ∨ status ≠ 0
  · rw [if_pos hstatus] at h
    cases h
  rw [if_neg hstatus] at h
  rw [not_or, not_not, not_not] at hstatus
  obtain ⟨rfl, rfl⟩ := hstatus
  -- what is read next depends on the type of the address
  by_cases h4 : atyp = 1
  · rw [if_pos h4] at h
    obtain ⟨bytes, hafter⟩ := skip_returned h
    obtain ⟨addr, port, hbytes⟩ := exists_append bytes
    refine ⟨⟨reserved, .ipv4 addr, port⟩, ?_⟩
    rw [hbytes] at hafter
    rw [h4] at hhead
    exact hhead.trans hafter
  rw [if_neg h4] at h
  by_cases hname : atyp = 3
  · -- the length byte says how much more
    rw [if_pos hname] at h
    obtain ⟨ln, w₂, hln, h⟩ := bind_returned.mp h
    obtain ⟨hlen, hlnAfter⟩ := readexactly_returned hln
    obtain ⟨len, rfl⟩ := List.length_eq_one_iff.mp hlen
    obtain ⟨bytes, hafter⟩ := skip_returned h
    obtain ⟨⟨name, hlen⟩, port, hbytes⟩ := exists_append bytes
    rw [List.getD_cons_zero] at hlen
    have hofNat : UInt8.ofNat name.length = len := by rw [hlen, UInt8.ofNat_toNat]
    refine ⟨⟨reserved, .domainname ⟨name, hlen ▸ len.toNat_lt⟩, port⟩, ?_⟩
    rw [hname] at hhead
    rw [← hofNat] at hlnAfter
    rw [hbytes] at hafter
    exact hhead.trans (hlnAfter.trans hafter)
  rw [if_neg hname] at h
  by_cases h6 : atyp = 4
  · rw [if_pos h6] at h
    obtain ⟨bytes, hafter⟩ := skip_returned h
    obtain ⟨addr, port, hbytes⟩ := exists_append bytes
    refine ⟨⟨reserved, .ipv6 addr, port⟩, ?_⟩
    rw [hbytes] at hafter
    rw [h6] at hhead
    exact hhead.trans hafter
  · rw [if_neg h6] at h
    cases h

/-! ### The handshake -/

section

variable {host : Text} {port : Int}

/-- The handshake for a host and a port that can be encoded. -/
theorem socks5Handshake_eq (hhost : ∀ c ∈ host, c.toNat < 0x80) (hlen : host.length ≤ 255)
    {bytes : List UInt8} (hport : portBytes port = .ok bytes) :
    socks5Handshake (Str.ofText host) port = (do
      Dialog.write socksGreeting
      let resp ← socksReadexactly 2
      if resp ≠ [5, 0] then Dialog.raise (.runtime (Str.lit "SOCKS auth negotiation failed"))
      else do
        Dialog.write (socksRequest (host.map asciiByte) bytes)
        socksReadReply) := by
  have hmap : ¬ 255 < (host.map asciiByte).length := by
    rw [List.length_map]
    omega
  rw [socks5Handshake, encodeAscii_ofText hhost, hport]
  simp only [if_neg hmap]

/-- Where a reply comes next, the handshake reads it and returns. -/
theorem yields_socks5Handshake (hhost : ∀ c ∈ host, c.toNat < 0x80) (hlen : host.length ≤ 255)
    {bytes : List UInt8} (hport : portBytes port = .ok bytes) (r : SocksReply) :
    Yields (socks5Handshake (Str.ofText host) port) ([5, 0] ++ r.encode) (.ok ())
      (socksGreeting ++ socksRequest (host.map asciiByte) bytes) := by
  have hresp : Yields (socksReadexactly 2) [5, 0] (.ok [5, 0]) [] := yields_readexactly _ _
  have hwrite : Yields (Dialog.write (socksRequest (host.map asciiByte) bytes) : SocksDialog Unit)
      [] (.ok ()) (socksRequest (host.map asciiByte) bytes) := yields_write _
  have hrequest := hwrite.bind (g := fun _ => socksReadReply) (yields_socksReadReply r)
  rw [List.append_nil] at hrequest
  rw [socks5Handshake_eq hhost hlen hport]
  exact (yields_write socksGreeting).bind (hresp.bind hrequest)

/-- When the handshake returns, a reply has come. -/
theorem socks5Handshake_returned (hhost : ∀ c ∈ host, c.toNat < 0x80) (hlen : host.length ≤ 255)
    {bytes : List UInt8} (hport : portBytes port = .ok bytes) {w w' : Wire UInt8}
    (h : socks5Handshake (Str.ofText host) port w = (.returned (), w')) :
    ∃ r : SocksReply, w.contents = [5, 0] ++ (r.encode ++ w'.contents) := by
  rw [socks5Handshake_eq hhost hlen hport] at h
  obtain ⟨_, w₁, hgreeting, h⟩ := bind_returned.mp h
  obtain ⟨resp, w₂, hread, h⟩ := bind_returned.mp h
  obtain ⟨-, hresp⟩ := readexactly_returned hread
  by_cases hok : resp = [5, 0]
  · -- the parts follow on each other, so what they read and wrote adds up
    rw [if_neg (not_not.mpr hok)] at h
    obtain ⟨_, w₃, hrequest, h⟩ := bind_returned.mp h
    obtain ⟨r, hreply⟩ := socksReadReply_returned h
    have hall := (write_returned hgreeting).trans
      (hresp.trans ((write_returned hrequest).trans hreply))
    refine ⟨r, ?_⟩
    rw [hall.contents, hok]
    exact List.append_assoc _ _ _
  · rw [if_pos hok] at h
    cases h

end

/-- The first line that comes through the tunnel is read as it was written. -/
theorem socks5Handshake_readJsonLine {F : Type} [JsonFloat F] {host : Text}
    (hhost : ∀ c ∈ host, c.toNat < 0x80) (hlen : host.length ≤ 255) {port : Int}
    (hport : 0 ≤ port ∧ port < 65536) {m : Members F} (hm : Json.wellFormed (.obj m) = true)
    (hline : (Json.dumpsSorted (.obj m)).length ≤ streamLimit) (r : SocksReply) {w : Wire UInt8}
    {rest : List UInt8} (hw : w.contents = ([5, 0] ++ r.encode) ++ (writeJsonLine m ++ rest)) :
    ∃ w', socks5Handshake (Str.ofText host) port w = (.returned (), w') ∧
      readJsonLine w'.contents =
        .ok (Json.sortMembers (m.map fun kv => (kv.1, kv.2.canon)), rest) := by
  obtain ⟨bytes, hbytes, -⟩ := portBytes_of_lt hport
  obtain ⟨w', h, hafter⟩ := yields_socks5Handshake hhost hlen hbytes r w _ hw
  refine ⟨w', h, ?_⟩
  rw [hafter.rest hw]
  exact readJsonLine_writeJsonLine hm hline rest

/-- The handshake for an ASCII host of at most 255 bytes and a port returns exactly when the
greeting is accepted and a reply follows; it leaves the connection at the byte after the reply,
and the relay reads the request as one for the host and the port.

A reply says how long it is, so the bytes that are read determine where it ends; conversely a
handshake that returned has read the fields of a reply one after the other. -/
theorem socks5Handshake_exact {host : Text} (hhost : ∀ c ∈ host, c.toNat < 0x80)
    (hlen : host.length ≤ 255) {port : Int} (hport : 0 ≤ port ∧ port < 65536) (w : Wire UInt8) :
    ((∃ w', socks5Handshake (Str.ofText host) port w = (.returned (), w')) ↔
      ∃ (r : SocksReply) (rest : List UInt8), w.contents = [5, 0] ++ (r.encode ++ rest)) ∧
    ∀ (r : SocksReply) (rest : List UInt8), w.contents = [5, 0] ++ (r.encode ++ rest) →
      ∃ w' request q, socks5Handshake (Str.ofText host) port w = (.returned (), w') ∧
        w'.contents = rest ∧ w'.written = w.written ++ (socksGreeting ++ request) ∧
        (∀ more, clientRequestParse (request ++ more) = .ok (q, more)) ∧
        q.Connects host port := by
  obtain ⟨bytes, hbytes, hvalue⟩ := portBytes_of_lt hport
  have hname : (host.map asciiByte).length < 256 := by
    rw [List.length_map]
    omega
  have hreads : ∀ (r : SocksReply) (rest : List UInt8), w.contents = [5, 0] ++ (r.encode ++ rest) →
      ∃ w', socks5Handshake (Str.ofText host) port w = (.returned (), w') ∧
        w.After w' ([5, 0] ++ r.encode)
          (socksGreeting ++ socksRequest (host.map asciiByte) bytes.val) := by
    intro r rest hw
    rw [← List.append_assoc] at hw
    exact yields_socks5Handshake hhost hlen hbytes r w rest hw
  refine ⟨⟨?_, ?_⟩, ?_⟩
  · rintro ⟨w', h⟩
    obtain ⟨r, hw⟩ := socks5Handshake_returned hhost hlen hbytes h
    exact ⟨r, w'.contents, hw⟩
  · rintro ⟨r, rest, hw⟩
    obtain ⟨w', h, -⟩ := hreads r rest hw
    exact ⟨w', h⟩
  · -- a reply determines its own length, so exactly `rest` is left
    intro r rest hw
    obtain ⟨w', h, hafter⟩ := hreads r rest hw
    refine ⟨w', _, _, h, ?_, hafter.written,
      clientRequestParse_socksRequest ⟨host.map asciiByte, hname⟩ bytes, rfl, ?_, hvalue⟩
    · rw [← List.append_assoc] at hw
      exact hafter.rest hw
    · exact ⟨_, rfl, decodeUtf8_ascii hhost⟩

/-- A reply with a domain name, in three chunks. -/
theorem socks5Handshake_exact_sample : ∃ w', socks5Handshake (Str.ofText ['a', '.', 'b']) 443
      ⟨[5], [[0, 5, 0], [0, 3, 1, 7, 0, 80, 42]], false, []⟩ = (.returned (), w') ∧
    w'.contents = [42] := by
  obtain ⟨-, hreads⟩ := @socks5Handshake_exact ['a', '.', 'b'] (by simp) (by decide) 443
    (by decide) ⟨[5], [[0, 5, 0], [0, 3, 1, 7, 0, 80, 42]], false, []⟩
  obtain ⟨w', -, -, h, hrest, -⟩ :=
    hreads ⟨0, .domainname ⟨[7], by decide⟩, ⟨[0, 80], rfl⟩⟩ [42] rfl
  exact ⟨w', h, hrest⟩

end P4

import Typenet.Stack.IcmpEcho
import Typenet.Stack.Ipv4Header
import Typenet.Stack.Tcp.Codec
import Typenet.Stack.Tcp.Connections
import Typenet.Stack.Udp

namespace Typenet

/-!
# IPv4 packets

A packet is a header and the message of one of three protocols.  How much room a message
needs is its `size`; a packet can be written exactly when its message leaves room for a header
in the write buffer (`Ipv4Packet.yields_writeInto`, `Ipv4Packet.fits_of_writeInto`).
-/

/-- Static dispatch over the supported protocols, with traffic flowing in direction `D`. -/
inductive ProtocolRouter (D : Direction)
  | Icmp (msg : IcmpEchoMsg D)
  | Tcp (seg : TcpSegment D)
  | Udp (dgram : UdpDatagram D)
  deriving DecidableEq

namespace ProtocolRouter

def proto {D : Direction} : ProtocolRouter D → Protocol
  | .Icmp _ => .Icmp
  | .Tcp _ => .Tcp
  | .Udp _ => .Udp

def getIpPair : ProtocolRouter .Out → Ipv4AddrPair .Out
  | .Icmp msg => msg.ipPair
  | .Tcp seg => seg.ipPair
  | .Udp dgram => dgram.ipPair

def protoLen : ProtocolRouter .Out → TraceableResult UInt16
  | .Icmp msg => msg.protoLen
  | .Tcp seg => seg.innerProtoLen
  | .Udp dgram => dgram.protoLen

def writeInto : ProtocolRouter .Out → List UInt8 → Res (List UInt8)
  | .Icmp msg => msg.writeInto
  | .Tcp seg => seg.innerWriteInto
  | .Udp dgram => dgram.writeInto

/-- The number of bytes of a message, header and payload. -/
def size {D : Direction} : ProtocolRouter D → Nat
  | .Icmp msg => 8 + msg.payload.length
  | .Tcp seg => 20 + TcpPayload.lenOrDefault seg.payload
  | .Udp dgram => 8 + dgram.payload.length

/-- The encoded length is the size, below `2 ^ 16`. -/
theorem protoLen_ok {self : ProtocolRouter .Out} (h : self.size < 2 ^ 16) :
    ∃ len, self.protoLen = .ok len ∧ len.toNat = self.size := by
  cases self with
  | Icmp msg => exact hdrAndPayloadLen_ok h
  | Tcp seg => exact seg.innerProtoLen_ok h
  | Udp dgram => exact hdrAndPayloadLen_ok h

/-- The length of a message, where it can be told. -/
theorem protoLen_eq_ok {self : ProtocolRouter .Out} {len : UInt16}
    (h : self.protoLen = .ok len) : len.toNat = self.size := by
  cases self with
  | Icmp msg => exact (hdrAndPayloadLen_eq_ok.mp h).2
  | Tcp seg => exact TcpSegment.innerProtoLen_eq_ok h
  | Udp dgram => exact (hdrAndPayloadLen_eq_ok.mp h).2

/-- **A message is written** into every buffer it fits in. -/
theorem yields_writeInto (self : ProtocolRouter .Out) {buf : List UInt8} {n : Nat}
    (hbuf : buf.length = n) (hfit : self.size ≤ n) (hn : n ≤ ETHERNET_MTU) :
    (self.writeInto buf).Yields fun b => b.length = n := by
  have hMTU : ETHERNET_MTU = 1500 := rfl
  cases self with
  | Icmp msg => exact msg.yields_writeInto hbuf hfit (by omega)
  | Tcp seg => exact seg.yields_innerWriteInto hbuf hfit hn
  | Udp dgram => exact dgram.yields_writeInto hbuf hfit hn

/-- **Writing a message is safe**, whatever the message and the buffer are. -/
theorem safe_writeInto (self : ProtocolRouter .Out) (buf : List UInt8) :
    (self.writeInto buf).Safe fun b => b.length = buf.length := by
  cases self with
  | Icmp msg => exact msg.safe_writeInto buf
  | Tcp seg => exact seg.safe_innerWriteInto buf
  | Udp dgram => exact dgram.safe_writeInto buf

/-- A message that has been written fits in the buffer. -/
theorem fits_of_writeInto {self : ProtocolRouter .Out} {buf buf' : List UInt8}
    (h : self.writeInto buf = .ok buf') : self.size ≤ buf.length := by
  cases self with
  | Icmp msg => exact IcmpEchoMsg.fits_of_writeInto h
  | Tcp seg => exact TcpSegment.fits_of_innerWriteInto h
  | Udp dgram => exact UdpDatagram.fits_of_writeInto h

end ProtocolRouter

/-- An IPv4 header and protocol-specific message flowing in direction `D`. -/
structure Ipv4Packet (D : Direction) where
  ipv4Hdr : Ipv4Header D
  router : ProtocolRouter D
  deriving DecidableEq

namespace Ipv4Packet

/-- The message behind a header, parsed according to the header's protocol. -/
def parseRouter (ipv4Hdr : Ipv4Header .In) (ipv4Payload : List UInt8) :
    Res (ProtocolRouter .In) :=
  match ipv4Hdr.protocol with
  | .Icmp => do
    let msg ← Res.ofResult (IcmpEchoMsg.parse ipv4Payload ipv4Hdr.ipPair)
    .ok (.Icmp msg)
  | .Tcp => do
    let seg ← TcpSegment.innerParse ipv4Payload ipv4Hdr.ipPair
    .ok (.Tcp seg)
  | .Udp => do
    let dgram ← UdpDatagram.parse ipv4Payload ipv4Hdr.ipPair
    .ok (.Udp dgram)

/-- Parses `data` as an IPv4 header followed by a protocol-specific header and payload. -/
def parse (data : List UInt8) : Res (Ipv4Packet .In) := do
  let (ipv4Hdr, ipv4Payload) ← Res.ofResult (Ipv4Header.innerParse data)
  let router ← parseRouter ipv4Hdr ipv4Payload
  .ok ⟨ipv4Hdr, router⟩

/-- The packet around an outgoing message, as `create_reply` and `try_from` build it. -/
def tryFromRouter (router : ProtocolRouter .Out) : TraceableResult (Ipv4Packet .Out) := do
  let protoLen ← router.protoLen
  let ipv4Hdr ← Ipv4Header.innerTryNew router.proto router.getIpPair protoLen
  .ok ⟨ipv4Hdr, router⟩

/-- `Ipv4Packet::try_from`. -/
def tryFrom (value : TcpSegment .Out) : TraceableResult (Ipv4Packet .Out) :=
  tryFromRouter (.Tcp value)

/-- Creates a packet for replying to `self`, or none for no reply. -/
def createReply {σ : Type} (A : Application σ) (app : σ) (tcpConnections : TcpConnections)
    (self : Ipv4Packet .In) (randomU32 : TraceableResult UInt32) (now : Instant) :
    TraceableResult (Option (Ipv4Packet .Out)) × σ × TcpConnections :=
  match self.router with
  -- an echo has no application to pass
  | .Icmp msg => ((tryFromRouter (.Icmp msg.createReply)).map some, app, tcpConnections)
  | .Tcp seg =>
    match tcpConnections.createReply A app seg randomU32 now with
    | (.error e, app, tcpConnections) => (.error e, app, tcpConnections)
    | (.ok none, app, tcpConnections) => (.ok none, app, tcpConnections)
    | (.ok (some reply), app, tcpConnections) =>
      ((tryFromRouter (.Tcp reply)).map some, app, tcpConnections)
  | .Udp dgram =>
    let (reply, app) := dgram.createReply A app
    ((tryFromRouter (.Udp reply)).map some, app, tcpConnections)

/-- Writes the header and the message into `buf`, which is `ETHERNET_MTU` bytes long. -/
def writeInto (self : Ipv4Packet .Out) (buf : List UInt8) : Res (List UInt8) := do
  let written ← self.router.writeInto (buf.drop REPLY_HDR_LEN)
  let protoLen ← Res.ofResult self.router.protoLen
  let ipv4Hdr ← Res.ofResult
    (Ipv4Header.innerTryNew self.router.proto self.router.getIpPair protoLen)
  ipv4Hdr.innerWriteInto (buf.take REPLY_HDR_LEN ++ written)

/-- `Ipv4Packet::total_len`. -/
def totalLen (self : Ipv4Packet .Out) : UInt16 := self.ipv4Hdr.totalLen

/-! ### Sizes -/

/-- A packet exists around every message that leaves room for a header. -/
theorem tryFromRouter_ok {router : ProtocolRouter .Out} (h : 20 + router.size < 2 ^ 16) :
    ∃ packet, tryFromRouter router = .ok packet := by
  obtain ⟨len, hlen, hlenNat⟩ := router.protoLen_ok (by omega)
  obtain ⟨hdr, hhdr⟩ := Ipv4Header.innerTryNew_ok router.proto router.getIpPair len
    (by omega)
  exact ⟨⟨hdr, router⟩, by rw [tryFromRouter, hlen]; simp only [bind, Except.bind, hhdr]⟩

/-- A packet is as long as its header and its message. -/
theorem tryFromRouter_eq_ok {router : ProtocolRouter .Out} {packet : Ipv4Packet .Out}
    (h : tryFromRouter router = .ok packet) :
    packet.router = router ∧ packet.totalLen.toNat = 20 + router.size := by
  unfold tryFromRouter at h
  cases hlen : router.protoLen with
  | error e => rw [hlen] at h; cases h
  | ok len =>
    rw [hlen] at h
    simp only [bind, Except.bind] at h
    split at h
    · cases h
    · rename_i hdr hhdr
      obtain rfl := Except.ok.inj h
      rw [← ProtocolRouter.protoLen_eq_ok hlen]
      exact ⟨rfl, (Ipv4Header.innerTryNew_eq_ok hhdr).1⟩

/-- **A packet is written** when its message leaves room for a header. -/
theorem yields_writeInto {packet : Ipv4Packet .Out} (hfit : packet.router.size ≤ 1480)
    {buf : List UInt8} (hbuf : buf.length = ETHERNET_MTU) :
    (packet.writeInto buf).Yields fun b => b.length = ETHERNET_MTU := by
  have hMTU : ETHERNET_MTU = 1500 := rfl
  have hHDR : REPLY_HDR_LEN = 20 := rfl
  have hrest : (buf.drop REPLY_HDR_LEN).length = 1480 := by rw [List.length_drop]; omega
  obtain ⟨len, hlen, hlenNat⟩ := packet.router.protoLen_ok (by omega)
  obtain ⟨hdr, hhdr⟩ := Ipv4Header.innerTryNew_ok packet.router.proto
    packet.router.getIpPair len (by omega)
  unfold writeInto
  refine (packet.router.yields_writeInto hrest hfit (by omega)).bind fun written hw => ?_
  refine (Res.yields_ofResult (P := (· = len)) hlen rfl).bind fun len' hlen' => ?_
  subst hlen'
  refine (Res.yields_ofResult (P := (· = hdr)) hhdr rfl).bind fun hdr' _ => ?_
  apply hdr'.yields_innerWriteInto
  rw [List.length_append, List.length_take, hw]
  omega

/-- **Writing a packet is safe** for every write buffer of the server, whatever the packet is. -/
theorem safe_writeInto (packet : Ipv4Packet .Out) {buf : List UInt8}
    (hbuf : buf.length = ETHERNET_MTU) :
    (packet.writeInto buf).Safe fun b => b.length = ETHERNET_MTU := by
  have hMTU : ETHERNET_MTU = 1500 := rfl
  have hHDR : REPLY_HDR_LEN = 20 := rfl
  unfold writeInto
  refine (packet.router.safe_writeInto _).bind fun written hw => ?_
  refine (Res.safe_ofResult _).bind fun len _ => ?_
  refine (Res.safe_ofResult _).bind fun hdr _ => ?_
  apply (hdr.yields_innerWriteInto ?_).safe
  rw [List.length_append, List.length_take, hw, List.length_drop]
  omega

/-- A packet that has been written left room for a header. -/
theorem fits_of_writeInto {packet : Ipv4Packet .Out} {buf buf' : List UInt8}
    (hbuf : buf.length = ETHERNET_MTU) (h : packet.writeInto buf = .ok buf') :
    packet.router.size ≤ 1480 := by
  have hMTU : ETHERNET_MTU = 1500 := rfl
  have hHDR : REPLY_HDR_LEN = 20 := rfl
  obtain ⟨written, hw, -⟩ := Res.bind_eq_ok.mp h
  have hle := ProtocolRouter.fits_of_writeInto hw
  rw [List.length_drop] at hle
  omega

/-! ### Replies -/

/-- The packet around a reply, if there is one. -/
def ofReply : Option (TcpSegment .Out) → TraceableResult (Option (Ipv4Packet .Out))
  | none => .ok none
  | some reply => (tryFromRouter (.Tcp reply)).map some

/-- A TCP packet moves the application and the table as its segment does. -/
theorem createReply_tcp {σ : Type} (A : Application σ) (app : σ) (tcpConnections : TcpConnections)
    {self : Ipv4Packet .In} {seg : TcpSegment .In} (randomU32 : TraceableResult UInt32)
    (now : Instant) (h : self.router = .Tcp seg) :
    createReply A app tcpConnections self randomU32 now
      = ((tcpConnections.createReply A app seg randomU32 now).1.bind ofReply,
        (tcpConnections.createReply A app seg randomU32 now).2) := by
  unfold createReply
  rw [h]
  simp only
  obtain ⟨⟨r, app', t⟩, hr⟩ :
      ∃ out, tcpConnections.createReply A app seg randomU32 now = out := ⟨_, rfl⟩
  rw [hr]
  rcases r with e | _ | out <;> rfl

/-! ### What a request is made of -/

/-- **A packet is accepted** when its header is and its message is. -/
theorem parse_iff {data : List UInt8} {packet : Ipv4Packet .In} :
    parse data = .ok packet ↔ ∃ payload,
      Ipv4Header.innerParse data = .ok (packet.ipv4Hdr, payload)
      ∧ parseRouter packet.ipv4Hdr payload = .ok packet.router := by
  constructor
  · intro h
    obtain ⟨⟨hdr, payload⟩, hhdr, h⟩ := Res.bind_eq_ok.mp h
    obtain ⟨router, hrouter, h⟩ := Res.bind_eq_ok.mp h
    obtain rfl := Except.ok.inj h
    exact ⟨payload, Res.ofResult_eq_ok.mp hhdr, hrouter⟩
  · rintro ⟨payload, hhdr, hrouter⟩
    rw [parse, hhdr]
    show (parseRouter packet.ipv4Hdr payload >>= fun router => _) = _
    rw [hrouter]
    rfl

/-- A packet is parsed in two steps. -/
theorem parse_ok {data payload : List UInt8} {hdr : Ipv4Header .In} {router : ProtocolRouter .In}
    (hhdr : Ipv4Header.innerParse data = .ok (hdr, payload))
    (hrouter : parseRouter hdr payload = .ok router) : parse data = .ok ⟨hdr, router⟩ :=
  parse_iff.mpr ⟨payload, hhdr, hrouter⟩

/-- An ICMP message has been parsed as one. -/
theorem parseRouter_icmp {hdr : Ipv4Header .In} {payload : List UInt8} {msg : IcmpEchoMsg .In}
    (h : parseRouter hdr payload = .ok (.Icmp msg)) :
    hdr.protocol = .Icmp ∧ IcmpEchoMsg.parse payload hdr.ipPair = .ok msg := by
  unfold parseRouter at h
  split at h
  case h_1 hproto =>
    obtain ⟨msg', hmsg, h⟩ := Res.bind_eq_ok.mp h
    obtain rfl := ProtocolRouter.Icmp.inj (Except.ok.inj h)
    exact ⟨hproto, Res.ofResult_eq_ok.mp hmsg⟩
  case h_2 =>
    obtain ⟨seg, -, h⟩ := Res.bind_eq_ok.mp h
    cases Except.ok.inj h
  case h_3 =>
    obtain ⟨dgram, -, h⟩ := Res.bind_eq_ok.mp h
    cases Except.ok.inj h

/-- So has a UDP datagram. -/
theorem parseRouter_udp {hdr : Ipv4Header .In} {payload : List UInt8} {dgram : UdpDatagram .In}
    (h : parseRouter hdr payload = .ok (.Udp dgram)) :
    hdr.protocol = .Udp ∧ UdpDatagram.parse payload hdr.ipPair = .ok dgram := by
  unfold parseRouter at h
  split at h
  case h_1 =>
    obtain ⟨msg, -, h⟩ := Res.bind_eq_ok.mp h
    cases Except.ok.inj h
  case h_2 =>
    obtain ⟨seg, -, h⟩ := Res.bind_eq_ok.mp h
    cases Except.ok.inj h
  case h_3 hproto =>
    obtain ⟨dgram', hdgram, h⟩ := Res.bind_eq_ok.mp h
    obtain rfl := ProtocolRouter.Udp.inj (Except.ok.inj h)
    exact ⟨hproto, hdgram⟩

/-- An accepted ICMP or UDP packet is a header, as long as it says, and a message. -/
theorem parse_size {data : List UInt8} {packet : Ipv4Packet .In} (h : parse data = .ok packet)
    (hproto : packet.router.proto ≠ .Tcp) :
    packet.router.size = data.length - Ipv4Header.headerLen data := by
  obtain ⟨payload, hhdr, hrouter⟩ := parse_iff.mp h
  obtain ⟨hdr, router⟩ := packet
  obtain rfl := (Ipv4Header.innerParse_eq_ok hhdr).2
  rw [← List.length_drop]
  cases router with
  | Icmp msg => exact IcmpEchoMsg.parse_payload (parseRouter_icmp hrouter).2
  | Tcp seg => exact absurd rfl hproto
  | Udp dgram => exact UdpDatagram.parse_payload (parseRouter_udp hrouter).2

/-- **Parsing never panics**, whatever the bytes are. -/
theorem parse_ne_panic (data : List UInt8) : parse data ≠ .error .panic := by
  unfold parse
  cases hhdr : Ipv4Header.innerParse (D := .In) data with
  | error e => simp [Res.ofResult, bind, Except.bind]
  | ok r =>
    obtain ⟨hdr, payload⟩ := r
    show (parseRouter hdr payload >>= fun router =>
      (.ok ⟨hdr, router⟩ : Res (Ipv4Packet .In))) ≠ .error .panic
    refine Res.bind_ne_panic ?_ fun router => by simp
    unfold parseRouter
    split
    case h_1 =>
      exact Res.bind_ne_panic (Res.ofResult_ne_panic _) fun msg => by simp
    case h_2 =>
      exact Res.bind_ne_panic (TcpSegment.innerParse_ne_panic _ _) fun seg => by simp
    case h_3 =>
      exact Res.bind_ne_panic (UdpDatagram.parse_ne_panic _ _) fun dgram => by simp

end Ipv4Packet

end Typenet

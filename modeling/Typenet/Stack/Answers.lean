import Typenet.Stack.Engine
import Typenet.Stack.RoundTrip

namespace Typenet

open Checksum

/-!
# Answers to ICMP and UDP

An application that answers a datagram with as many bytes keeps every answer outside TCP as
long as its request.  `Engine.answer_correct` follows such a request from the device to the
bytes of the answer: both checksums of the answer verify by RFC 1071, its addresses are those of
the request swapped, and its message is the one the protocol asks for (`EchoesIcmp`, `AnswersUdp`).
-/

variable {σ : Type} {A : Application σ}

/-! ### What an answer should be -/

/-- The message `reply` answers the ICMP Echo Request `request`. -/
structure EchoesIcmp (request reply : List UInt8) : Prop where
  kind : reply.take 2 = [IcmpEchoMsg.ICMP_TYPE_ECHO_REPLY, IcmpEchoMsg.ICMP_CODE_ECHO]
  /-- The identifier, the sequence number and the payload are those of the request. -/
  rest : reply.drop 4 = request.drop 4
  verifies : rfc1071 reply = 0

/-- The message `reply` carries `payload` back to where the UDP datagram `request` came from. -/
structure AnswersUdp (ipPair : Ipv4AddrPair .Out) (request payload reply : List UInt8) : Prop where
  ports : reply.take 4 = (request.drop 2).take 2 ++ request.take 2
  length : ∃ len : UInt16, len.toNat = 8 + payload.length ∧ (reply.drop 4).take 2 = toBeBytes16 len
  /-- A checksum is always sent, -/
  cksum : (reply.drop 6).take 2 ≠ [0, 0]
  /-- and it is the right one. -/
  verifies : rfc1071 (pseudoHdr ipPair .Udp reply.length ++ reply) = 0
  carries : reply.drop 8 = payload

/-! ### Bytes of a request -/

/-- Encoding a decoded word gives its bytes back. -/
theorem toBeBytes16_fromBeBytes16 (hi lo : UInt8) :
    toBeBytes16 (fromBeBytes16 hi lo) = [hi, lo] := by
  have hhi := hi.toNat_lt
  have hlo := lo.toNat_lt
  have hvalue := fromBeBytes16_toNat hi lo
  have hsum := toBeBytes16_toNat (fromBeBytes16 hi lo)
  have hlow := (fromBeBytes16 hi lo).toUInt8.toNat_lt
  show [_, _] = _
  rw [List.cons.injEq, List.cons.injEq, ← UInt8.toNat_inj, ← UInt8.toNat_inj]
  refine ⟨?_, ?_, rfl⟩ <;> omega

/-- A message starts with the eight bytes of its first chunk. -/
theorem eq_chunk_append {data : List UInt8} {hdr : Vector UInt8 8}
    (h : firstChunk 8 data = some hdr) :
    data = [hdr.get 0, hdr.get 1, hdr.get 2, hdr.get 3, hdr.get 4, hdr.get 5, hdr.get 6,
      hdr.get 7] ++ data.drop 8 := by
  have hlist : hdr.toList = [hdr.get 0, hdr.get 1, hdr.get 2, hdr.get 3, hdr.get 4, hdr.get 5,
      hdr.get 6, hdr.get 7] := by
    obtain ⟨⟨bytes⟩, hlen⟩ := hdr
    rcases bytes with
      _ | ⟨a, _ | ⟨b, _ | ⟨c, _ | ⟨d, _ | ⟨e, _ | ⟨f, _ | ⟨g, _ | ⟨h, _ | ⟨i, rest⟩⟩⟩⟩⟩⟩⟩⟩⟩
    case cons.cons.cons.cons.cons.cons.cons.cons.nil => rfl
    all_goals simp at hlen
  rw [← hlist, (firstChunk_eq_some h).2, List.take_append_drop]

/-! ### Answers by protocol -/

/-- **The answer to an ICMP Echo Request** has the bytes it should. -/
theorem IcmpEchoMsg.echoes {data : List UInt8} {ipPair : Ipv4AddrPair .In}
    {msg : IcmpEchoMsg .In} (h : parse data ipPair = .ok msg) :
    EchoesIcmp data msg.createReply.bytes := by
  obtain ⟨icmpHdr, hchunk, -, -, -, rfl⟩ := parse_iff.mp h
  have hbytes := eq_chunk_append hchunk
  constructor
  case kind => rfl
  case rest =>
    rw [hbytes]
    show toBeBytes16 (fromBeBytes16 _ _) ++ toBeBytes16 (fromBeBytes16 _ _) ++ _ = _
    rw [toBeBytes16_fromBeBytes16, toBeBytes16_fromBeBytes16]
    rfl
  case verifies => exact rfc1071_stored (by rw [headBytes_length]) _

/-- A sent checksum is never the one that says that there is none. -/
theorem UdpDatagram.cksum_ne_zero {D : Direction} (self : UdpDatagram D) : self.cksum ≠ 0 := by
  unfold cksum
  simp only
  split
  case isTrue => decide
  case isFalse h => exact h

/-- A sent datagram verifies. -/
theorem UdpDatagram.verifies {D : Direction} (self : UdpDatagram D)
    (hmax : 8 + self.payload.length ≤ ETHERNET_MTU) :
    rfc1071 (pseudoHdr self.ipPair .Udp self.bytes.length ++ self.bytes) = 0 := by
  have heven : self.headBytes.length % 2 = 0 := by rw [headBytes_length]
  have hn : self.headBytes.length + 2 + self.payload.length = 8 + self.payload.length := by
    rw [headBytes_length]
  have hcode : pseudoHdrCksum self.bytes self.ipPair .Udp = .ok 0 := by
    unfold bytes cksum
    simp only
    split
    case isTrue hzero => exact pseudoHdrCksum_stored_ones heven _ _ _ hn hmax hzero
    case isFalse => exact pseudoHdrCksum_stored heven _ _ _ hn hmax
  rw [pseudoHdrCksum_eq _ _ (by rw [bytes_length]; exact hmax)] at hcode
  exact Except.ok.inj hcode

/-- **The answer to a UDP datagram** has the bytes it should, also when no checksum came. -/
theorem UdpDatagram.answers (app : σ) {data : List UInt8} {ipPair : Ipv4AddrPair .In}
    {dgram : UdpDatagram .In} (h : parse data ipPair = .ok dgram)
    (hlen : 8 + (A.handleUdp app dgram.payload).2.length ≤ ETHERNET_MTU) :
    AnswersUdp ipPair.swapped data (A.handleUdp app dgram.payload).2
      (dgram.createReply A app).1.bytes := by
  have hMTU : ETHERNET_MTU = 1500 := rfl
  have hcksum := (dgram.createReply A app).1.cksum_ne_zero
  have hverifies := (dgram.createReply A app).1.verifies hlen
  obtain ⟨udpHdr, hchunk, -, rfl⟩ := parse_iff.mp h
  have hbytes := eq_chunk_append hchunk
  constructor
  case ports =>
    rw [hbytes]
    show toBeBytes16 (fromBeBytes16 _ _) ++ toBeBytes16 (fromBeBytes16 _ _) = _
    rw [toBeBytes16_fromBeBytes16, toBeBytes16_fromBeBytes16]
    rfl
  case length =>
    exact ⟨_, UInt16.toNat_ofNat_of_lt' (Nat.lt_of_le_of_lt hlen (by decide)), rfl⟩
  case cksum =>
    intro hnone
    apply hcksum
    rw [← fromBeBytes16_toBeBytes16 (UdpDatagram.cksum _)]
    obtain ⟨hhi, hlo⟩ := List.cons.inj hnone
    rw [hhi, (List.cons.inj hlo).1]
    rfl
  case verifies => exact hverifies
  case carries => rfl

/-! ### From the device to the bytes of the answer -/

/-- The packet `reply` is encoded as `bytes`, as long as the request `data`, and goes back to
    where the request came from. -/
structure Answer (incoming : Ipv4Packet .In) (data : List UInt8) (reply : Ipv4Packet .Out)
    (bytes : List UInt8) : Prop where
  written : ∀ buf : List UInt8, buf.length = ETHERNET_MTU → ∃ written,
    reply.writeInto buf = .ok written ∧ written.take reply.totalLen.toNat = bytes
  totalLen_eq : reply.totalLen.toNat = data.length
  length_eq : bytes.length = data.length
  verifies : rfc1071 (bytes.take 20) = 0
  header : Ipv4Header.innerParse bytes = .ok
    (⟨reply.totalLen, incoming.router.proto, incoming.ipv4Hdr.ipPair.swapped⟩, bytes.drop 20)

/-- A message as long as the request's makes an answer. -/
theorem exists_answer (incoming : Ipv4Packet .In) (router : ProtocolRouter .Out)
    {data : List UInt8} (hlen : data.length ≤ ETHERNET_MTU)
    (hsize : 20 + router.size = data.length) (hproto : router.proto = incoming.router.proto)
    (hpair : router.getIpPair = incoming.ipv4Hdr.ipPair.swapped) :
    ∃ reply bytes, Ipv4Packet.tryFromRouter router = .ok reply
      ∧ Answer incoming data reply bytes ∧ bytes.drop 20 = router.bytes := by
  have hMTU : ETHERNET_MTU = 1500 := rfl
  obtain ⟨reply, hreply⟩ : ∃ reply, Ipv4Packet.tryFromRouter router = .ok reply :=
    Ipv4Packet.tryFromRouter_ok (by omega)
  obtain ⟨hrouter, htotal⟩ := Ipv4Packet.tryFromRouter_eq_ok hreply
  obtain ⟨len, -, hhdr⟩ := Ipv4Packet.hdr_of_tryFromRouter hreply
  obtain ⟨-, hhdrProto, hhdrPair⟩ := Ipv4Header.innerTryNew_eq_ok hhdr
  have hdrop : reply.bytes.drop 20 = router.bytes := by
    rw [Ipv4Packet.bytes, hrouter]
    exact List.drop_left' reply.ipv4Hdr.bytes_length
  have hheader : reply.ipv4Hdr
      = ⟨reply.totalLen, incoming.router.proto, incoming.ipv4Hdr.ipPair.swapped⟩ := by
    rw [← hproto, ← hpair, ← hhdrProto, ← hhdrPair]
    rfl
  refine ⟨reply, reply.bytes, hreply, ⟨?_, by omega, ?_, ?_, ?_⟩, hdrop⟩
  · intro buf hbuf
    obtain ⟨written, hwritten, -, htake⟩ := Ipv4Packet.writeInto_take hreply (by omega) hbuf
    exact ⟨written, hwritten, htake⟩
  · rw [Ipv4Packet.bytes, List.length_append, Ipv4Header.bytes_length,
      ProtocolRouter.bytes_length, hrouter]
    exact hsize
  · rw [Ipv4Packet.bytes, List.take_left' reply.ipv4Hdr.bytes_length]
    exact reply.ipv4Hdr.rfc1071_bytes
  · rw [hdrop, ← hheader, ← hrouter]
    exact reply.ipv4Hdr.innerParse_bytes reply.router.bytes

/-- An engine passes a created reply on. -/
theorem Engine.handlePacket_some (engine : Engine σ) {data : List UInt8}
    {incoming : Ipv4Packet .In} {reply : Ipv4Packet .Out} (randomU32 : TraceableResult UInt32)
    (now : Instant) (hparse : Ipv4Packet.parse data = .ok incoming)
    (hreply : (incoming.createReply A engine.app engine.tcpConnections randomU32 now).1
      = .ok (some reply)) :
    (engine.handlePacket A data randomU32 now).1 = .ok ⟨incoming, some reply⟩ := by
  rw [engine.handlePacket_parsed A randomU32 now hparse, hreply]
  rfl

/-- **Every accepted ICMP or UDP packet is answered correctly**, over every write buffer. -/
theorem Engine.answer_correct
    (hA : ∀ app payload, (A.handleUdp app payload).2.length = payload.length)
    (engine : Engine σ) {data : List UInt8} (hlen : data.length ≤ ETHERNET_MTU)
    (hihl : Ipv4Header.headerLen data = 20) {incoming : Ipv4Packet .In}
    (hparse : Ipv4Packet.parse data = .ok incoming) (hproto : incoming.router.proto ≠ .Tcp)
    (randomU32 : TraceableResult UInt32) (now : Instant) :
    ∃ reply bytes, (engine.handlePacket A data randomU32 now).1 = .ok ⟨incoming, some reply⟩
      ∧ Answer incoming data reply bytes
      ∧ (∀ msg, incoming.router = .Icmp msg → EchoesIcmp (data.drop 20) (bytes.drop 20))
      ∧ (∀ dgram, incoming.router = .Udp dgram → dgram.payload = data.drop 28
        ∧ AnswersUdp incoming.ipv4Hdr.ipPair.swapped (data.drop 20)
          (A.handleUdp engine.app dgram.payload).2 (bytes.drop 20)) := by
  have hMTU : ETHERNET_MTU = 1500 := rfl
  obtain ⟨payload, hhdr, hrouter⟩ := Ipv4Packet.parse_iff.mp hparse
  obtain ⟨h20, hpayload⟩ := Ipv4Header.innerParse_eq_ok hhdr
  rw [hihl] at hpayload
  have hrest : 20 + payload.length = data.length := by
    rw [hpayload, List.length_drop]
    omega
  -- the two protocols whose answers are as long as the requests
  obtain ⟨hdr, router⟩ := incoming
  cases router with
  | Icmp msg =>
    obtain ⟨-, hmsg⟩ := Ipv4Packet.parseRouter_icmp hrouter
    have hsize := IcmpEchoMsg.parse_payload hmsg
    have hechoes := IcmpEchoMsg.echoes hmsg
    have hpair : msg.ipPair = hdr.ipPair := IcmpEchoMsg.parse_ipPair hmsg
    obtain ⟨reply, bytes, hreply, hanswer, hdrop⟩ :=
      exists_answer ⟨hdr, .Icmp msg⟩ (.Icmp msg.createReply) hlen
        (by show 20 + (8 + msg.payload.length) = _; omega) rfl
        (congrArg Ipv4AddrPair.swapped hpair)
    refine ⟨reply, bytes, ?_, hanswer, ?_, ?_⟩
    · apply engine.handlePacket_some randomU32 now hparse
      show (Ipv4Packet.tryFromRouter (.Icmp msg.createReply)).map some = _
      rw [hreply]
      rfl
    · intro msg' _
      rw [hdrop, ← hpayload]
      exact hechoes
    · intro dgram heq
      cases heq
  | Tcp seg => exact absurd rfl hproto
  | Udp dgram =>
    obtain ⟨-, hdgram⟩ := Ipv4Packet.parseRouter_udp hrouter
    have hsize := UdpDatagram.parse_payload hdgram
    have happ := hA engine.app dgram.payload
    have hanswers := UdpDatagram.answers (A := A) engine.app hdgram (by omega)
    have hfields : dgram.ipPair = hdr.ipPair ∧ dgram.payload = payload.drop 8 :=
      UdpDatagram.parse_fields hdgram
    obtain ⟨reply, bytes, hreply, hanswer, hdrop⟩ :=
      exists_answer ⟨hdr, .Udp dgram⟩ (.Udp (dgram.createReply A engine.app).1) hlen
        (by show 20 + (8 + (A.handleUdp engine.app dgram.payload).2.length) = _; omega) rfl
        (congrArg Ipv4AddrPair.swapped hfields.1)
    refine ⟨reply, bytes, ?_, hanswer, ?_, ?_⟩
    · apply engine.handlePacket_some randomU32 now hparse
      show (Ipv4Packet.tryFromRouter (.Udp (dgram.createReply A engine.app).1)).map some = _
      rw [hreply]
      rfl
    · intro msg heq
      cases heq
    · intro dgram' heq
      obtain rfl := ProtocolRouter.Udp.inj heq
      rw [hdrop, ← hpayload]
      exact ⟨by rw [hfields.2, hpayload, List.drop_drop], hanswers⟩

/-- A UDP datagram of an odd number of bytes, without a UDP checksum. -/
def UDP_DATAGRAM : List UInt8 :=
  [0x45, 0, 0, 31, 0, 0, 0, 0, 64, 17, 102, 204, 10, 0, 0, 2, 10, 0, 0, 1,
    4, 210, 0, 7, 0, 11, 0, 0, 1, 2, 0xD0]

/-- What it is parsed as. -/
def UDP_INCOMING : Ipv4Packet .In where
  ipv4Hdr := ⟨31, .Udp, ⟨⟨10, 0, 0, 2⟩, ⟨10, 0, 0, 1⟩⟩⟩
  router := .Udp ⟨⟨⟨10, 0, 0, 2⟩, ⟨10, 0, 0, 1⟩⟩, ⟨1234, 7⟩, [1, 2, 0xD0]⟩

/-- An application that answers with what it is handed. -/
def MIRROR : Application Unit where
  handleUdp app payload := (app, payload)
  handleTcp app data := (app, data)

theorem answer_correct_udp : Ipv4Packet.parse UDP_DATAGRAM = .ok UDP_INCOMING
    ∧ ∃ reply bytes, ((Engine.new () 1000000000 3 0).handlePacket MIRROR UDP_DATAGRAM (.ok 0)
        ⟨0⟩).1 = .ok ⟨UDP_INCOMING, some reply⟩
      ∧ Answer UDP_INCOMING UDP_DATAGRAM reply bytes
      ∧ (∀ msg, UDP_INCOMING.router = .Icmp msg →
        EchoesIcmp (UDP_DATAGRAM.drop 20) (bytes.drop 20))
      ∧ (∀ dgram, UDP_INCOMING.router = .Udp dgram → dgram.payload = UDP_DATAGRAM.drop 28
        ∧ AnswersUdp UDP_INCOMING.ipv4Hdr.ipPair.swapped (UDP_DATAGRAM.drop 20)
          (MIRROR.handleUdp () dgram.payload).2 (bytes.drop 20)) :=
  have hparse : Ipv4Packet.parse UDP_DATAGRAM = .ok UDP_INCOMING := by decide +kernel
  ⟨hparse, Engine.answer_correct (fun _ _ => rfl) (Engine.new () 1000000000 3 0) (by decide)
    (by decide) hparse (by decide) (.ok 0) ⟨0⟩⟩

end Typenet

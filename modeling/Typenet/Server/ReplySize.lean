import Typenet.Connection.Handlers
import Typenet.Server.Application
import Typenet.Server.Server

namespace Typenet

/-!
# Which packets the server cannot answer

A TCP reply carries at most one payload of `MAX_PAYLOAD_LEN`, so it always fits.  An ICMP or
UDP reply of the server is as long as the message it answers, and that message is whatever
follows the header length the packet announces.  With a header length under 20 the message can
be longer than what the write buffer holds behind a header: the reply is created, but sending
it fails, and the server ends.
-/

open SendInfo

variable {σ : Type} {A : Application σ} {app : σ} {seg : TcpSegment .In} {now : Instant}
  {conn : ConnState} {data : List UInt8} {randomU32 : TraceableResult UInt32}

/-! ### TCP replies -/

/-- A handler's reply carries at most the payload of one packet. -/
theorem SendInfo.handleKnownConn_payload {reply : Option SendInfo} {removed : Bool}
    (h : (handleKnownConn A app seg conn now).result = .ok (reply, removed)) :
    ∀ info ∈ reply, TcpPayload.lenOrDefault info.payload ≤ 1460 := by
  rcases handleKnownConn_moves A app seg conn now with
    ⟨reply', hres, hq, -⟩ | ⟨-, -, slices, extra, -, hsend, -⟩
  · obtain ⟨rfl, -⟩ := Prod.mk.inj (Except.ok.inj (hres.symm.trans h))
    intro info hinfo
    rw [(hq info hinfo).1]
    exact Nat.zero_le _
  · rw [h] at hsend
    exact hsend.payload_le

namespace TcpConnections

/-- A segment of an unknown connection is answered without a payload. -/
theorem handleUnknownConn_payload {self : TcpConnections} {key : ConnKey}
    {reply : Option SendInfo}
    (h : (self.handleUnknownConn seg key randomU32 now).1 = .ok reply) :
    ∀ info ∈ reply, info.payload = none := by
  unfold handleUnknownConn at h
  split at h
  case h_1 =>
    cases randomU32 with
    | error e => cases h
    | ok isn => obtain rfl := Except.ok.inj h; rintro _ ⟨⟩; rfl
  case h_2 | h_3 => obtain rfl := Except.ok.inj h; nofun
  case h_4 | h_5 | h_6 => obtain rfl := Except.ok.inj h; rintro _ ⟨⟩; rfl

theorem decideReply_payload {self : TcpConnections} {reply : Option SendInfo}
    (h : (self.decideReply A app seg randomU32 now).1 = .ok reply) :
    ∀ info ∈ reply, TcpPayload.lenOrDefault info.payload ≤ 1460 := by
  unfold decideReply at h
  cases hget : self.get (ConnKey.ofSegment seg) with
  | none =>
    simp only [hget] at h
    intro info hinfo
    rw [handleUnknownConn_payload h info hinfo]
    exact Nat.zero_le _
  | some conn =>
    simp only [hget] at h
    cases hres : (handleKnownConn A app seg conn now).result with
    | error e => rw [hres] at h; cases h
    | ok v =>
      rw [hres] at h
      obtain rfl := Except.ok.inj h
      exact handleKnownConn_payload hres

/-- **A TCP reply fits a packet.** -/
theorem createReply_payload {self : TcpConnections} {reply : TcpSegment .Out}
    (h : (self.createReply A app seg randomU32 now).1 = .ok (some reply)) :
    TcpPayload.lenOrDefault reply.payload ≤ 1460 := by
  unfold createReply at h
  cases hres : (self.decideReply A app seg randomU32 now).1 with
  | error e => simp only [hres] at h; cases h
  | ok maybeInfo =>
    simp only [hres] at h
    cases maybeInfo with
    | none => cases h
    | some info =>
      obtain rfl := Option.some.inj (Except.ok.inj h)
      exact decideReply_payload hres info rfl

end TcpConnections

/-! ### Replies by protocol -/

/-- A packet whose message is ICMP or UDP and too long for a reply, given the header length
    it announces. -/
def Oversized (data : List UInt8) : Prop :=
  ∃ packet, Ipv4Packet.parse data = .ok packet ∧ packet.router.proto ≠ .Tcp ∧
    1480 + Ipv4Header.headerLen data < data.length

/-- A message outside TCP is answered by a message of its own size. -/
theorem createReply_router (self : ServerApp) (tcpConnections : TcpConnections)
    {packet : Ipv4Packet .In} (randomU32 : TraceableResult UInt32) (now : Instant)
    (hproto : packet.router.proto ≠ .Tcp) :
    ∃ router : ProtocolRouter .Out, router.size = packet.router.size ∧
      (packet.createReply ServerApp.application self tcpConnections randomU32 now).1
        = (Ipv4Packet.tryFromRouter router).map some := by
  -- an echo keeps the payload, and either application answers as many bytes as it is handed
  obtain ⟨hdr, router⟩ := packet
  cases router with
  | Icmp msg => exact ⟨.Icmp msg.createReply, rfl, rfl⟩
  | Tcp seg => exact absurd rfl hproto
  | Udp dgram =>
    refine ⟨.Udp (dgram.createReply ServerApp.application self).1, ?_, rfl⟩
    show 8 + (self.answer dgram.payload).length = 8 + dgram.payload.length
    rw [ServerApp.answer_length]

/-- **A message outside TCP is answered**, and the answer can be sent exactly when the message
    leaves room for a header. -/
theorem reply_sendable_iff (self : ServerApp) (tcpConnections : TcpConnections)
    {packet : Ipv4Packet .In} (randomU32 : TraceableResult UInt32) (now : Instant)
    (hproto : packet.router.proto ≠ .Tcp) (hsize : packet.router.size ≤ ETHERNET_MTU) :
    ∃ reply, (packet.createReply ServerApp.application self tcpConnections randomU32 now).1
        = .ok (some reply) ∧
      reply.router.size = packet.router.size ∧
      (reply.Sendable ↔ packet.router.size ≤ 1480) := by
  have hMTU : ETHERNET_MTU = 1500 := rfl
  obtain ⟨router, hrouter, hcreate⟩ :=
    createReply_router self tcpConnections randomU32 now hproto
  have hlt : 20 + router.size < 2 ^ 16 := by omega
  obtain ⟨reply, hreply⟩ := Ipv4Packet.tryFromRouter_ok hlt
  refine ⟨reply, by rw [hcreate, hreply]; rfl, ?_, ?_⟩
  · rw [(Ipv4Packet.tryFromRouter_eq_ok hreply).1, hrouter]
  · rw [Ipv4Packet.sendable_iff hreply, hrouter]

/-- **A TCP reply can be sent.** -/
theorem tcp_reply_sendable {tcpConnections : TcpConnections} {packet : Ipv4Packet .In}
    {reply : Ipv4Packet .Out} (hproto : packet.router.proto = .Tcp)
    (h : (packet.createReply A app tcpConnections randomU32 now).1 = .ok (some reply)) :
    reply.Sendable := by
  obtain ⟨seg, hseg⟩ : ∃ seg, packet.router = .Tcp seg := by
    cases hr : packet.router with
    | Tcp seg => exact ⟨seg, rfl⟩
    | _ => rw [hr] at hproto; cases hproto
  rw [Ipv4Packet.createReply_tcp A app tcpConnections randomU32 now hseg] at h
  cases hr : (tcpConnections.createReply A app seg randomU32 now).1 with
  | error e => simp only [hr] at h; cases h
  | ok maybeReply =>
    simp only [hr] at h
    cases maybeReply with
    | none => cases h
    | some out =>
      cases hbuild : Ipv4Packet.tryFromRouter (.Tcp out) with
      | error e =>
        rw [Except.bind, Ipv4Packet.ofReply, hbuild] at h
        cases h
      | ok p =>
        rw [Except.bind, Ipv4Packet.ofReply, hbuild] at h
        obtain rfl := Option.some.inj (Except.ok.inj h)
        apply (Ipv4Packet.sendable_iff hbuild).mpr
        have hle := TcpConnections.createReply_payload hr
        show 20 + TcpPayload.lenOrDefault out.payload ≤ 1480
        omega

/-! ### The packet as a whole -/

/-- What `handlePacket` answers to a packet that parses. -/
theorem Engine.handlePacket_reply_iff (A : Application σ) (engine : Engine σ)
    {packet : Ipv4Packet .In} (randomU32 : TraceableResult UInt32) (now : Instant)
    (hparse : Ipv4Packet.parse data = .ok packet) (reply : Ipv4Packet .Out) :
    (∃ outcome, (engine.handlePacket A data randomU32 now).1 = .ok outcome ∧
        outcome.reply = some reply) ↔
      (packet.createReply A engine.app engine.tcpConnections randomU32 now).1
        = .ok (some reply) := by
  rw [handlePacket_parsed A engine randomU32 now hparse]
  simp only
  generalize (packet.createReply A engine.app engine.tcpConnections randomU32 now).1 = r
  cases r with
  | error e => exact iff_of_false (fun ⟨_, h, _⟩ => by cases h) nofun
  | ok maybeReply =>
    constructor
    · rintro ⟨_, h, hreply⟩
      obtain rfl := Except.ok.inj h
      exact congrArg Except.ok hreply
    · intro h
      obtain rfl := Except.ok.inj h
      exact ⟨_, rfl, rfl⟩

/-- The reply to a message that is not oversized can be sent. -/
theorem Engine.reply_sendable (engine : Engine ServerApp) (randomU32 : TraceableResult UInt32)
    (now : Instant) {outcome : PacketOutcome} {reply : Ipv4Packet .Out}
    (hdata : data.length ≤ ETHERNET_MTU) (hsmall : ¬ Oversized data)
    (hok : (engine.handlePacket ServerApp.application data randomU32 now).1 = .ok outcome)
    (hreply : outcome.reply = some reply) : reply.Sendable := by
  cases hparse : Ipv4Packet.parse data with
  | error fault =>
    obtain ⟨fault', hskip⟩ :=
      engine.handlePacket_skipped ServerApp.application randomU32 now hparse
    rw [hskip] at hok; cases hok
  | ok packet =>
    have hcreate := (engine.handlePacket_reply_iff ServerApp.application randomU32 now hparse
      reply).mp ⟨outcome, hok, hreply⟩
    by_cases hproto : packet.router.proto = .Tcp
    · exact tcp_reply_sendable hproto hcreate
    -- outside TCP the reply is as long as the message
    · have hsize := Ipv4Packet.parse_size hparse hproto
      obtain ⟨reply', hcreate', -, hsend⟩ := reply_sendable_iff engine.app engine.tcpConnections
        randomU32 now hproto (by omega)
      obtain rfl := Option.some.inj (Except.ok.inj (hcreate'.symm.trans hcreate))
      apply hsend.mpr
      by_contra hbig
      exact hsmall ⟨packet, hparse, hproto, by omega⟩

/-- An oversized message is answered by a message too long to be sent. -/
theorem Engine.oversized_reply (engine : Engine ServerApp) (randomU32 : TraceableResult UInt32)
    (now : Instant) (hdata : data.length ≤ ETHERNET_MTU) (h : Oversized data) :
    ∃ outcome reply, (engine.handlePacket ServerApp.application data randomU32 now).1
        = .ok outcome ∧ outcome.reply = some reply ∧ 1480 < reply.router.size := by
  obtain ⟨packet, hparse, hproto, hlt⟩ := h
  have hsize := Ipv4Packet.parse_size hparse hproto
  obtain ⟨reply, hcreate, hrouter, -⟩ := reply_sendable_iff engine.app engine.tcpConnections
    randomU32 now hproto (by omega)
  obtain ⟨outcome, hok, hreply⟩ := (engine.handlePacket_reply_iff ServerApp.application randomU32
    now hparse reply).mpr hcreate
  exact ⟨outcome, reply, hok, hreply, by omega⟩

/-- **Which packets cannot stop the server**: for every engine and every packet the device can
    deliver, the reply, if there is one, can be encoded and sent, unless the packet is ICMP or
    UDP with a message too long for a reply. -/
theorem replies_sendable_iff (engine : Engine ServerApp) (data : List UInt8)
    (randomU32 : TraceableResult UInt32) (now : Instant) (hdata : data.length ≤ ETHERNET_MTU) :
    (∀ outcome reply, (engine.handlePacket ServerApp.application data randomU32 now).1
        = .ok outcome → outcome.reply = some reply → reply.Sendable) ↔ ¬ Oversized data := by
  constructor
  -- a reply to an oversized message is created, so it would have to be sendable
  · intro h hover
    obtain ⟨outcome, reply, hok, hreply, hbig⟩ := engine.oversized_reply randomU32 now hdata hover
    have hbuf : (List.replicate ETHERNET_MTU (0 : UInt8)).length = ETHERNET_MTU :=
      List.length_replicate
    obtain ⟨out, hsent, -⟩ := (h outcome reply hok hreply).sends _ hbuf
    exact Ipv4Packet.sendPkt_error hbig hbuf out hsent
  · intro hsmall outcome reply hok hreply
    exact engine.reply_sendable randomU32 now hdata hsmall hok hreply

/-- A UDP request for two bytes without a UDP checksum. -/
def UDP_REQUEST : List UInt8 :=
  [0x45, 0, 0, 30, 0, 0, 0, 0, 64, 17, 0x7A, 0xD0, 0, 0, 0, 0, 0, 0, 0, 0,
    0, 0, 0, 7, 0, 10, 0, 0, 0x68, 0x69]

/-- The reply to a small request can be sent. -/
theorem replies_sendable_request :
    ∃ outcome reply, ((Engine.new ServerApp.Echo 1000000000 3 0).handlePacket
        ServerApp.application UDP_REQUEST (.ok 0) ⟨0⟩).1 = .ok outcome ∧
      outcome.reply = some reply ∧ reply.Sendable := by
  have hsome : (((Engine.new ServerApp.Echo 1000000000 3 0).handlePacket
      ServerApp.application UDP_REQUEST (.ok 0) ⟨0⟩).1.toOption.bind (·.reply)).isSome = true := by
    decide +kernel
  have hsend := (replies_sendable_iff (Engine.new .Echo 1000000000 3 0) UDP_REQUEST (.ok 0) ⟨0⟩
    (by decide)).mpr fun ⟨_, _, _, hlt⟩ => absurd hlt (by decide)
  generalize ((Engine.new ServerApp.Echo 1000000000 3 0).handlePacket
    ServerApp.application UDP_REQUEST (.ok 0) ⟨0⟩).1 = r at hsome hsend ⊢
  cases r with
  | error fault => cases hsome
  | ok outcome =>
    obtain ⟨reply, hreply⟩ := Option.isSome_iff_exists.mp hsome
    exact ⟨outcome, reply, rfl, hreply, hsend outcome reply rfl hreply⟩

/-- An IPv4 header that announces a header length of 0, with a valid checksum; read again as
    a UDP header, it carries no checksum. -/
def ZERO_IHL_HDR : Vector UInt8 20 :=
  #v[0x40, 0, 0, 0, 0, 0, 0, 0, 0, 17, 0xBF, 0xEE, 0, 0, 0, 0, 0, 0, 0, 0]

/-- A packet of the largest size behind such a header. -/
def ZERO_IHL_PACKET : List UInt8 := ZERO_IHL_HDR.toList ++ List.replicate 1480 0

theorem zeroIhlPacket_length : ZERO_IHL_PACKET.length = 1500 := by
  rw [ZERO_IHL_PACKET, List.length_append, List.length_replicate, Vector.length_toList]

/-- The packet is accepted, its own header taken for the header of a UDP message. -/
theorem parse_zeroIhlPacket :
    ∃ packet, Ipv4Packet.parse ZERO_IHL_PACKET = .ok packet ∧ packet.router.proto = .Udp := by
  let ipPair : Ipv4AddrPair .In := ⟨⟨0, 0, 0, 0⟩, ⟨0, 0, 0, 0⟩⟩
  have hhdr : Ipv4Header.innerParse ZERO_IHL_PACKET
      = .ok ((⟨0, .Udp, ipPair⟩ : Ipv4Header .In), ZERO_IHL_PACKET) := by
    -- the announced length of 0 leaves all of the packet for the payload
    have hihl : Ipv4Header.ihlBytes (ZERO_IHL_HDR.get 0) = 0 := by decide
    have hproto : Protocol.tryFrom (ZERO_IHL_HDR.get 9) = .ok .Udp := by decide
    unfold Ipv4Header.innerParse
    rw [ZERO_IHL_PACKET, firstChunk_append]
    simp only
    rw [if_neg (by decide), if_neg (by decide), if_neg (by decide +kernel)]
    simp only [hihl, hproto, Nat.zero_le, if_true, List.drop_zero]
    rfl
  have hudp : ∃ dgram, UdpDatagram.parse ZERO_IHL_PACKET ipPair = .ok dgram := by
    -- its first eight bytes once more, as a UDP header without a checksum
    have hsplit : ZERO_IHL_PACKET = (#v[0x40, 0, 0, 0, 0, 0, 0, 0] : Vector UInt8 8).toList
        ++ ([0, 17, 0xBF, 0xEE, 0, 0, 0, 0, 0, 0, 0, 0] ++ List.replicate 1480 0) := by
      rw [← List.append_assoc]
      rfl
    rw [hsplit, UdpDatagram.parse, splitFirstChunk_append]
    exact ⟨_, if_pos (by decide)⟩
  obtain ⟨dgram, hdgram⟩ := hudp
  have hrouter : Ipv4Packet.parseRouter ⟨0, .Udp, ipPair⟩ ZERO_IHL_PACKET
      = .ok (.Udp dgram) := by
    rw [Ipv4Packet.parseRouter]
    simp only [hdgram, bind, Except.bind]
  exact ⟨_, Ipv4Packet.parse_ok hhdr hrouter, rfl⟩

/-- **A single packet stops the server**: the reply to it is created, but writing it fails. -/
theorem zero_ihl_reply_unsendable :
    ∃ data, data.length ≤ ETHERNET_MTU ∧
      ∃ outcome reply, ((Engine.new ServerApp.Echo 1000000000 3 0).handlePacket
          ServerApp.application data (.ok 0) ⟨0⟩).1 = .ok outcome ∧
        outcome.reply = some reply ∧ ¬ reply.Sendable ∧
        ∀ buf : List UInt8, buf.length = ETHERNET_MTU →
          ∀ out, Server.sendPkt buf reply ≠ .ok out := by
  obtain ⟨packet, hparse, hproto⟩ := parse_zeroIhlPacket
  have hne : packet.router.proto ≠ .Tcp := by rw [hproto]; decide
  have hlen := zeroIhlPacket_length
  have hMTU : ETHERNET_MTU = 1500 := rfl
  have hzero : Ipv4Header.headerLen ZERO_IHL_PACKET = 0 := by
    unfold Ipv4Header.headerLen
    rfl
  have hsize := Ipv4Packet.parse_size hparse hne
  obtain ⟨reply, hcreate, hreply, hsend⟩ := reply_sendable_iff .Echo
    (Engine.new ServerApp.Echo 1000000000 3 0).tcpConnections (.ok 0) ⟨0⟩ hne (by omega)
  obtain ⟨outcome, hok, hout⟩ := ((Engine.new ServerApp.Echo 1000000000 3 0).handlePacket_reply_iff
    ServerApp.application (.ok 0) ⟨0⟩ hparse reply).mpr hcreate
  refine ⟨ZERO_IHL_PACKET, by omega, outcome, reply, hok, hout, ?_, fun buf hbuf => ?_⟩
  · rw [hsend]; omega
  · exact Ipv4Packet.sendPkt_error (by omega) hbuf

end Typenet

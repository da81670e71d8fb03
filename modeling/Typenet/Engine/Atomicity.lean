import Typenet.Connection.HalfCircle
import Typenet.Engine.Runs
import Typenet.Server.ReplySize
import Typenet.Stack.Tcp.TestUtils

namespace Typenet

/-!
# Packets that fail

A packet can fail to parse, the random source can fail for a new connection, and a handler can
fail.  The first two leave the table alone.  A handler fails only with half the circle in
flight, and it may have changed its connection by then: `failed_packet_keeps_table_iff` says
for which packets the table is kept, and `antipodal_fin_tears_connection` is one for which it
is not.
-/

open SendInfo

variable {σ : Type} {A : Application σ} {app : σ} {seg : TcpSegment .In} {now : Instant}
  {data : List UInt8} {randomU32 : TraceableResult UInt32}

namespace TcpConnections

variable {self : TcpConnections}

/-- A failure to open a connection leaves the table alone. -/
theorem handleUnknownConn_failed {key : ConnKey}
    (h : failed (self.handleUnknownConn seg key randomU32 now).1 = true) :
    (self.handleUnknownConn seg key randomU32 now).2 = self := by
  unfold handleUnknownConn at h ⊢
  split at h
  case h_1 hsyn =>
    simp only
    cases randomU32 with
    | error e => rfl
    | ok isn => cases h
  all_goals cases h

/-- **Which segments fail with a changed table**: exactly those that fail with a changed
    connection. -/
theorem createReply_failed_iff
    (hinv : ∀ conn, self.get (ConnKey.ofSegment seg) = some conn → HalfInv conn) :
    (failed (self.createReply A app seg randomU32 now).1 = true →
        ∀ key, (self.createReply A app seg randomU32 now).2.2.get key = self.get key) ↔
      ¬ ∃ conn, self.get (ConnKey.ofSegment seg) = some conn ∧ Torn seg conn := by
  unfold createReply decideReply
  simp only [failed_map]
  cases hget : self.get (ConnKey.ofSegment seg) with
  | none =>
    refine iff_of_true (fun hf key => ?_) nofun
    simp only at hf ⊢
    rw [handleUnknownConn_failed hf]
  | some conn =>
    have hiff := failed_unchanged_iff seg (hinv conn hget) A app now
    have hexists : (∃ c, some conn = some c ∧ Torn seg c) ↔ Torn seg conn :=
      ⟨fun ⟨_, heq, ht⟩ => Option.some.inj heq ▸ ht, fun ht => ⟨conn, rfl, ht⟩⟩
    rw [hexists, ← hiff]
    simp only
    cases hres : (handleKnownConn A app seg conn now).result with
    | ok v => exact iff_of_true nofun nofun
    | error e =>
      simp only [failed, forall_const]
      constructor
      · intro hsame
        have h := hsame (ConnKey.ofSegment seg)
        rw [get_set_self, hget] at h
        exact Option.some.inj h
      · intro heq key
        by_cases hkey : key = ConnKey.ofSegment seg
        · rw [hkey, get_set_self, hget, heq]
        · exact get_set_ne self _ hkey

end TcpConnections

/-- The packet around a TCP reply exists. -/
theorem Ipv4Packet.ofReply_ok {tcpConnections : TcpConnections}
    {maybeReply : Option (TcpSegment .Out)}
    (h : (tcpConnections.createReply A app seg randomU32 now).1 = .ok maybeReply) :
    ∃ reply, ofReply maybeReply = .ok reply := by
  cases maybeReply with
  | none => exact ⟨none, rfl⟩
  | some out =>
    have hle := TcpConnections.createReply_payload h
    have hfit : 20 + (ProtocolRouter.Tcp out).size < 2 ^ 16 := by
      show 20 + (20 + TcpPayload.lenOrDefault out.payload) < 2 ^ 16
      omega
    obtain ⟨packet, hpacket⟩ := tryFromRouter_ok hfit
    exact ⟨some packet, by rw [ofReply, hpacket]; rfl⟩

namespace Engine

/-- A packet of a connection that the segment tears. -/
def TornPacket (engine : Engine σ) (data : List UInt8) : Prop :=
  ∃ packet seg conn, Ipv4Packet.parse data = .ok packet ∧ packet.router = .Tcp seg ∧
    engine.tcpConnections.get (ConnKey.ofSegment seg) = some conn ∧ Torn seg conn

/-- A TCP packet fails exactly when its segment does. -/
theorem handlePacket_tcp_error_iff {engine : Engine σ} {packet : Ipv4Packet .In}
    (hparse : Ipv4Packet.parse data = .ok packet) (hrouter : packet.router = .Tcp seg) :
    (∃ e, (engine.handlePacket A data randomU32 now).1 = .error (.err e)) ↔
      failed (engine.tcpConnections.createReply A engine.app seg randomU32 now).1 = true := by
  rw [handlePacket_parsed A engine randomU32 now hparse,
    Ipv4Packet.createReply_tcp A _ _ _ _ hrouter]
  simp only
  cases hres : (engine.tcpConnections.createReply A engine.app seg randomU32 now).1 with
  | error e => exact iff_of_true ⟨_, rfl⟩ rfl
  | ok maybeReply =>
    obtain ⟨reply, hreply⟩ := Ipv4Packet.ofReply_ok hres
    have hbind : (Except.ok maybeReply).bind Ipv4Packet.ofReply = .ok reply := hreply
    rw [hbind]
    exact iff_of_false (fun ⟨_, h⟩ => by cases h) nofun

/-- **When a failed packet leaves the table alone**: in every reachable engine exactly when it
    does not tear a connection. -/
theorem failed_packet_keeps_table_iff (A : Application σ) (app : σ) (initialRto : Duration)
    (maxRetries : UInt8) (grace : Duration) (es : List Event) (engine : Engine σ)
    (hrun : Runs.Run (step A) (fun _ _ => True) (new app initialRto maxRetries grace) es engine)
    (data : List UInt8) (randomU32 : TraceableResult UInt32) (now : Instant) :
    ((∃ e, (engine.handlePacket A data randomU32 now).1 = .error (.err e)) →
        ∀ key, (engine.handlePacket A data randomU32 now).2.tcpConnections.get key
          = engine.tcpConnections.get key) ↔ ¬ TornPacket engine data := by
  cases hparse : Ipv4Packet.parse data with
  | error fault =>
    obtain ⟨fault', hskip⟩ := handlePacket_skipped A engine randomU32 now hparse
    apply iff_of_true (fun _ key => by rw [hskip])
    rintro ⟨packet, seg, conn, h, -⟩
    rw [hparse] at h; cases h
  | ok packet =>
    have htorn : TornPacket engine data ↔ ∃ seg conn, packet.router = .Tcp seg ∧
        engine.tcpConnections.get (ConnKey.ofSegment seg) = some conn ∧ Torn seg conn := by
      constructor
      · rintro ⟨packet', seg, conn, h, hrest⟩
        obtain rfl := Except.ok.inj (hparse.symm.trans h)
        exact ⟨seg, conn, hrest⟩
      · rintro ⟨seg, conn, hrest⟩
        exact ⟨packet, seg, conn, hparse, hrest⟩
    rw [htorn]
    have htable : (engine.handlePacket A data randomU32 now).2.tcpConnections
        = (packet.createReply A engine.app engine.tcpConnections randomU32 now).2.2 := by
      rw [handlePacket_parsed A engine randomU32 now hparse]
    rw [htable]
    cases hrouter : packet.router with
    | Icmp msg | Udp dgram =>
      -- no other protocol touches the table
      refine iff_of_true (fun _ key => ?_) ?_
      · simp only [Ipv4Packet.createReply, hrouter]
      · rintro ⟨seg, conn, h, -⟩
        cases h
    | Tcp seg =>
      rw [handlePacket_tcp_error_iff hparse hrouter,
        Ipv4Packet.createReply_tcp A _ _ _ _ hrouter,
        TcpConnections.createReply_failed_iff fun conn hget =>
          conn_invariant halfInv_opened (fun _ _ _ _ _ _ hp hs => hp.step hs) hrun hget]
      simp

/-! ### Packets of the fixtures' client -/

/-- The IPv4 header of a packet of 40 bytes from the client. -/
def CLIENT_HDR : List UInt8 :=
  [0x45, 0, 0, 40, 0, 0, 0x40, 0, 64, 6, 0x26, 0xCE, 10, 0, 0, 2, 10, 0, 0, 1]

/-- `CLIENT_SYN` as a packet. -/
def SYN_PACKET : List UInt8 := CLIENT_HDR ++
  [0x04, 0xD2, 0, 80, 0, 0, 0, 100, 0, 0, 0, 0, 0x50, 0x02, 0xFF, 0xFF, 0x96, 0x5A, 0, 0]

/-- `CLIENT_ACK_COMPLETING_HANDSHAKE` as a packet. -/
def ACK_PACKET : List UInt8 := CLIENT_HDR ++
  [0x04, 0xD2, 0, 80, 0, 0, 0, 101, 0, 0, 0x01, 0x91, 0x50, 0x10, 0xFF, 0xFF, 0x94, 0xBA, 0, 0]

/-- A FIN-ACK in order whose SEG.ACK is the antipode of SND.NXT, as a packet. -/
def ANTIPODAL_FIN_PACKET : List UInt8 := CLIENT_HDR ++
  [0x04, 0xD2, 0, 80, 0, 0, 0, 101, 0x80, 0, 0x01, 0x91, 0x50, 0x11, 0xFF, 0xFF, 0x14, 0xB9, 0, 0]

/-- The client establishes a connection. -/
def establishedPackets : List Event :=
  [.packet SYN_PACKET (.ok 400) ⟨0⟩, .packet ACK_PACKET (.ok 0) ⟨1⟩]

/-- The engine after `establishedPackets`. -/
def establishedEngine : Engine ServerApp :=
  establishedPackets.foldl (step ServerApp.application) (new .Echo 1000000000 3 0)

theorem establishedEngine_run : Runs.Run (step ServerApp.application) (fun _ _ => True)
    (new .Echo 1000000000 3 0) establishedPackets establishedEngine := by
  unfold establishedEngine
  exact .of_foldl _ _

/-- A packet cut short fails and leaves an established connection alone. -/
theorem failed_packet_keeps_table_short :
    (∃ e, (establishedEngine.handlePacket ServerApp.application (ACK_PACKET.take 39) (.ok 0)
        ⟨2⟩).1 = .error (.err e)) ∧
      ∀ key, (establishedEngine.handlePacket ServerApp.application (ACK_PACKET.take 39) (.ok 0)
        ⟨2⟩).2.tcpConnections.get key = establishedEngine.tcpConnections.get key := by
  have herr : ∃ e, (establishedEngine.handlePacket ServerApp.application (ACK_PACKET.take 39)
      (.ok 0) ⟨2⟩).1 = .error (.err e) := ⟨_, rfl⟩
  refine ⟨herr, (failed_packet_keeps_table_iff ServerApp.application .Echo 1000000000 3 0
    establishedPackets establishedEngine establishedEngine_run (ACK_PACKET.take 39) (.ok 0) ⟨2⟩).mpr
    ?_ herr⟩
  rintro ⟨packet, -, -, h, -⟩
  have hno : (Ipv4Packet.parse (ACK_PACKET.take 39)).toBool = false := by decide +kernel
  rw [h] at hno
  cases hno

/-- **A FIN can fail half-way**: it is refused, and RCV.NXT has advanced past it. -/
theorem antipodal_fin_tears_connection :
    ∃ es engine data now, Runs.Run (step ServerApp.application) (fun _ _ => True)
        (new .Echo 1000000000 3 0) es engine ∧
      (∃ e, (engine.handlePacket ServerApp.application data (.ok 0) now).1 = .error (.err e)) ∧
      ∃ key, (engine.handlePacket ServerApp.application data (.ok 0) now).2.tcpConnections.get key
        ≠ engine.tcpConnections.get key := by
  refine ⟨establishedPackets, establishedEngine, ANTIPODAL_FIN_PACKET, ⟨2⟩,
    establishedEngine_run, ?_, KEY, fun heq => ?_⟩
  · have h : (match (establishedEngine.handlePacket ServerApp.application ANTIPODAL_FIN_PACKET
        (.ok 0) ⟨2⟩).1 with
      | .error (.err _) => true
      | _ => false) = true := by decide +kernel
    split at h
    case h_1 e he => exact ⟨e, he⟩
    case h_2 => cases h
  · have hbefore : (establishedEngine.tcpConnections.get KEY).map (·.rcvNxt)
        = some (CLIENT_ISN + 1) := by decide +kernel
    have hafter : ((establishedEngine.handlePacket ServerApp.application ANTIPODAL_FIN_PACKET
        (.ok 0) ⟨2⟩).2.tcpConnections.get KEY).map (·.rcvNxt) = some (CLIENT_ISN + 2) := by
      decide +kernel
    rw [heq, hbefore] at hafter
    cases hafter

end Engine

end Typenet

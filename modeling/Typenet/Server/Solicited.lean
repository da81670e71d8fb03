import Typenet.Server.Refinement

namespace Typenet

/-!
# The server only answers

Every packet that a worker puts on the wire goes back to where an earlier packet came from: a reply
answers the packet it was created for, and a retransmission or a FIN belongs to a connection, which
a SYN has opened.

* `Engine.occasion_of_handedOver` — what an engine hands over has been asked for;
* `only_answers` — so nothing a running server sends is unasked for.
-/

variable {σ : Type} {A : Application σ}

/-! ### Answers -/

/-- The ports of a message, if its protocol has ports. -/
def ProtocolRouter.portPair {D : Direction} : ProtocolRouter D → Option (PortPair D)
  | .Icmp _ => none
  | .Tcp seg => some seg.ports
  | .Udp dgram => some dgram.ports

/-- A packet that goes back to where `request` came from, from where it was sent to. -/
structure Ipv4Packet.Answers (self : Ipv4Packet .Out) (request : Ipv4Packet .In) : Prop where
  ipPair : self.ipv4Hdr.ipPair = request.ipv4Hdr.ipPair.swapped
  proto : self.router.proto = request.router.proto
  ports : self.router.portPair = request.router.portPair.map PortPair.swapped

namespace Ipv4Packet

/-- A packet is addressed as its message is. -/
theorem tryFromRouter_ipPair {router : ProtocolRouter .Out} {packet : Ipv4Packet .Out}
    (h : tryFromRouter router = .ok packet) :
    packet.router = router ∧ packet.ipv4Hdr.ipPair = router.getIpPair := by
  refine ⟨(tryFromRouter_eq_ok h).1, ?_⟩
  unfold tryFromRouter at h
  cases hlen : router.protoLen with
  | error e =>
    rw [hlen] at h
    cases h
  | ok len =>
    rw [hlen] at h
    simp only [bind, Except.bind] at h
    split at h
    case h_1 => cases h
    case h_2 hdr hhdr =>
      obtain rfl := Except.ok.inj h
      exact (Ipv4Header.innerTryNew_eq_ok hhdr).2.2

/-- The message of an accepted packet is addressed as its header is. -/
theorem parse_ipPair {data : List UInt8} {hdr : Ipv4Header .In} {router : ProtocolRouter .In}
    (h : parse data = .ok ⟨hdr, router⟩) :
    (match router with
      | .Icmp msg => msg.ipPair
      | .Tcp seg => seg.ipPair
      | .Udp dgram => dgram.ipPair) = hdr.ipPair := by
  obtain ⟨payload, -, hrouter⟩ := parse_iff.mp h
  simp only at hrouter
  cases router with
  | Icmp msg => exact IcmpEchoMsg.parse_ipPair (parseRouter_icmp hrouter).2
  | Udp dgram => exact (UdpDatagram.parse_fields (parseRouter_udp hrouter).2).1
  | Tcp seg =>
    unfold parseRouter at hrouter
    split at hrouter
    case h_1 =>
      obtain ⟨msg, -, hmsg⟩ := Res.bind_eq_ok.mp hrouter
      cases Except.ok.inj hmsg
    case h_2 =>
      obtain ⟨seg', hseg, hok⟩ := Res.bind_eq_ok.mp hrouter
      obtain rfl := ProtocolRouter.Tcp.inj (Except.ok.inj hok)
      obtain ⟨tcpHdr, -, -, -, -, hfields⟩ := TcpSegment.innerParse_iff.mp hseg
      exact congrArg TcpSegment.ipPair hfields
    case h_3 =>
      obtain ⟨dgram, -, hdgram⟩ := Res.bind_eq_ok.mp hrouter
      cases Except.ok.inj hdgram

/-- A segment of a connection answers every segment that has arrived for it. -/
theorem answers_of_key {packet : Ipv4Packet .Out} {out : TcpSegment .Out} {data : List UInt8}
    {hdr : Ipv4Header .In} {seg : TcpSegment .In} (hout : tryFrom out = .ok packet)
    (hparse : parse data = .ok ⟨hdr, .Tcp seg⟩)
    (hkey : ConnKey.ofSegment seg = ConnKey.ofOutgoing out) : packet.Answers ⟨hdr, .Tcp seg⟩ := by
  obtain ⟨hrouter, hpair⟩ := tryFromRouter_ipPair hout
  have hip : seg.ipPair = hdr.ipPair := parse_ipPair hparse
  obtain ⟨hclient, hcport, hserver, hsport⟩ := ConnKey.mk.inj hkey
  refine ⟨hpair.trans ?_, by rw [hrouter]; rfl, ?_⟩
  · show out.ipPair = _
    rw [← hip]
    exact congrArg₂ Ipv4AddrPair.mk hserver.symm hclient.symm
  · rw [hrouter]
    exact congrArg some (congrArg₂ PortPair.mk hsport.symm hcport.symm)

/-- A reply answers the packet it is created for. -/
theorem answers_of_createReply {data : List UInt8} {request : Ipv4Packet .In} {app : σ}
    {tcpConnections : TcpConnections} {randomU32 : TraceableResult UInt32} {now : Instant}
    {reply : Ipv4Packet .Out} (hparse : parse data = .ok request)
    (h : (request.createReply A app tcpConnections randomU32 now).1 = .ok (some reply)) :
    reply.Answers request := by
  obtain ⟨hdr, router⟩ := request
  have hip := parse_ipPair hparse
  -- outside TCP the reply is the packet around a message with swapped addresses
  have hcreated : ∀ out : ProtocolRouter .Out, (tryFromRouter out).map some = .ok (some reply) →
      tryFromRouter out = .ok reply := by
    intro out hout
    cases hpacket : tryFromRouter out with
    | error e => rw [hpacket] at hout; cases hout
    | ok packet =>
      rw [hpacket] at hout
      rw [Option.some.inj (Except.ok.inj hout)]
  cases router with
  | Icmp msg =>
    obtain ⟨hrouter, hpair⟩ := tryFromRouter_ipPair (hcreated _ h)
    exact ⟨hpair.trans (congrArg Ipv4AddrPair.swapped hip), by rw [hrouter]; rfl,
      by rw [hrouter]; rfl⟩
  | Udp dgram =>
    obtain ⟨hrouter, hpair⟩ := tryFromRouter_ipPair (hcreated _ h)
    exact ⟨hpair.trans (congrArg Ipv4AddrPair.swapped hip), by rw [hrouter]; rfl,
      by rw [hrouter]; rfl⟩
  | Tcp seg =>
    rw [createReply_tcp A app tcpConnections randomU32 now rfl] at h
    simp only [TcpConnections.createReply] at h
    rcases hres : (tcpConnections.decideReply A app seg randomU32 now).1 with e | _ | info
    · rw [hres] at h
      cases h
    · rw [hres] at h
      cases h
    · rw [hres] at h
      exact answers_of_key (hcreated _ h) hparse rfl

end Ipv4Packet

/-! ### What an engine hands over -/

/-- Each of the packets has been made from one of the segments. -/
theorem exists_segment_of_packet {segs : List (TcpSegment .Out)} {packets : List (Ipv4Packet .Out)}
    (h : List.Forall₂ (fun seg packet => Ipv4Packet.tryFrom seg = .ok packet) segs packets)
    {packet : Ipv4Packet .Out} (hpacket : packet ∈ packets) :
    ∃ seg ∈ segs, Ipv4Packet.tryFrom seg = .ok packet := by
  induction h with
  | nil => cases hpacket
  | @cons seg packet' segs packets hseg _ ih =>
    rcases List.mem_cons.mp hpacket with rfl | hrest
    · exact ⟨seg, List.mem_cons_self, hseg⟩
    · obtain ⟨seg', hseg', heq⟩ := ih hrest
      exact ⟨seg', List.mem_cons_of_mem _ hseg', heq⟩

namespace Engine

/-- What is handed over answers the packet of the event, or is a segment of a connection. -/
theorem answers_or_conn {self : Engine σ} {ev : Event} {reply : Ipv4Packet .Out}
    (h : reply ∈ self.handedOver A ev) :
    (∃ data ∈ ev.data, ∃ request, Ipv4Packet.parse data = .ok request ∧ reply.Answers request) ∨
      ∃ out conn, Ipv4Packet.tryFrom out = .ok reply ∧
        self.tcpConnections.get (ConnKey.ofOutgoing out) = some conn := by
  cases ev with
  | packet data randomU32 now =>
    left
    cases hparse : Ipv4Packet.parse data with
    | error fault =>
      obtain ⟨fault', hskip⟩ := handlePacket_skipped A self randomU32 now hparse
      have hreply : reply ∈ replies (self.handlePacket A data randomU32 now).1 := h
      rw [hskip] at hreply
      cases hreply
    | ok request =>
      rw [self.handedOver_parsed randomU32 now hparse] at h
      rcases hres : (request.createReply A self.app self.tcpConnections randomU32 now).1 with
        e | _ | reply'
      · rw [hres] at h
        cases h
      · rw [hres] at h
        cases h
      · rw [hres] at h
        obtain rfl := List.mem_singleton.mp h
        exact ⟨data, rfl, request, hparse, Ipv4Packet.answers_of_createReply hparse hres⟩
  | retransmit now late =>
    obtain ⟨item, hitem, hok⟩ := List.mem_filterMap.mp h
    obtain ⟨seg, hseg, rfl⟩ := List.mem_map.mp hitem
    obtain ⟨key, conn, p, hget, -, rfl⟩ := TcpConnections.mem_makeRetransmissions hseg
    refine .inr ⟨key.outgoing p.sendInfo, conn, ?_, hget⟩
    cases hpacket : Ipv4Packet.tryFrom (key.outgoing p.sendInfo) with
    | error e => rw [hpacket] at hok; cases hok
    | ok packet =>
      rw [hpacket] at hok
      rw [Option.some.inj hok]
  | shutdown now sentAt =>
    right
    have hreply : reply ∈ fins (self.handleShutdown now sentAt).1 := h
    rcases hres : (self.handleShutdown now sentAt).1 with e | (timeLeft | toSend | _)
    · rw [hres] at hreply
      cases hreply
    · rw [hres] at hreply
      cases hreply
    · -- a FIN of the closing sweep
      rw [hres] at hreply
      obtain ⟨t, hclose⟩ := handleShutdown_began hres
      obtain ⟨list, hall, -, hkeys⟩ := TcpConnections.closeEstablished_of_ok
        (congrArg Prod.snd hclose)
      obtain ⟨out, hout, hpacket⟩ := exists_segment_of_packet hall hreply
      obtain ⟨-, hsent⟩ := hkeys (ConnKey.ofOutgoing out)
      have hown : out ∈ segmentsOf (ConnKey.ofOutgoing out) list :=
        List.mem_filter.mpr ⟨hout, by simp⟩
      rw [hsent] at hown
      cases hget : self.tcpConnections.get (ConnKey.ofOutgoing out) with
      | none =>
        rw [hget] at hown
        cases hown
      | some conn => exact ⟨out, conn, hpacket, hget⟩
    · rw [hres] at hreply
      cases hreply

/-- A SYN of the host has come in a packet. -/
theorem exists_packet_of_opens {self : Engine σ} {evs : List Event} {e : HostEvent σ} {key : ConnKey}
    (he : e ∈ self.hostEvents A evs) (h : e.Opens key) : ∃ ev ∈ evs, ∃ data ∈ ev.data,
      ∃ hdr seg, Ipv4Packet.parse data = .ok ⟨hdr, .Tcp seg⟩ ∧ ConnKey.ofSegment seg = key := by
  obtain ⟨front, ev, hpre, hmem⟩ := Mealy.mem_translate he
  obtain rfl := List.mem_singleton.mp hmem
  obtain ⟨seg, hin, hkey, -⟩ := h
  have hev : ev ∈ evs := hpre.subset (List.mem_append_right _ List.mem_cons_self)
  cases ev with
  | packet data randomU32 now =>
    cases hseg : segmentOf data with
    | none =>
      rw [hostEvent_elsewhere A _ hseg] at hin
      cases hin
    | some seg' =>
      rw [hostEvent_segment A _ hseg] at hin
      obtain rfl := Option.some.inj hin
      obtain ⟨hdr, hparse⟩ := parse_of_segmentOf hseg
      exact ⟨_, hev, data, rfl, hdr, seg', hparse, hkey⟩
  | retransmit now late => cases hin
  | shutdown now sentAt =>
    unfold hostEvent at hin
    simp only at hin
    split at hin <;> cases hin

/-- **Everything handed over has been asked for** by the packet of the event or by one before it. -/
theorem occasion_of_handedOver {engine : Engine σ} (hnew : ∀ key, engine.host.get key = none)
    {evs : List Event} {ev : Event} {reply : Ipv4Packet .Out}
    (h : reply ∈ (evs.foldl (step A) engine).handedOver A ev) :
    ∃ ev' ∈ evs ++ [ev], ∃ data ∈ ev'.data, ∃ request,
      Ipv4Packet.parse data = .ok request ∧ reply.Answers request := by
  rcases answers_or_conn h with ⟨data, hdata, request, hparse, hanswers⟩ | ⟨out, conn, hout, hget⟩
  · exact ⟨ev, List.mem_append_right _ List.mem_cons_self, data, hdata, request, hparse, hanswers⟩
  · have hhost : (evs.foldl (step A) engine).host.get (ConnKey.ofOutgoing out) = some conn := hget
    rw [host_foldl] at hhost
    obtain ⟨e, he, hopens⟩ := Host.exists_opens (hnew _) hhost
    obtain ⟨ev', hev', data, hdata, hdr, seg, hparse, hkey⟩ := exists_packet_of_opens he hopens
    exact ⟨ev', List.mem_append_left _ hev', data, hdata, _, hparse,
      Ipv4Packet.answers_of_key hout hparse hkey⟩

end Engine

/-! ### What a server sends -/

namespace Server

variable {self : Server} {e : Iteration}

/-- A packet that comes to the engine has been read. -/
theorem readFrom_of_events {ev : Engine.Event} (hev : ev ∈ self.events e) {data : List UInt8}
    (hdata : data ∈ ev.data) : self.readFrom e = some data := by
  have hmem : data ∈ (self.events e).filterMap Engine.Event.data :=
    List.mem_filterMap.mpr ⟨ev, hev, hdata⟩
  rw [data_events] at hmem
  exact Option.mem_toList.mp hmem

/-- The events of the engine in a run of the loop. -/
def engineRun (self : Server) (es : List Iteration) : List Engine.Event :=
  Mealy.translate act events es self

/-- The engine of a running server is the one that these events lead to. -/
theorem engine_foldl {es : List Iteration} (hrun : Runs.Admits step GoesOn self es) :
    (es.foldl step self).engine
      = (self.engineRun es).foldl (Engine.step ServerApp.application) self.engine := by
  have hstate := (refines_engine.run trivial hrun).1
  rw [Mealy.run_state, Mealy.run_state] at hstate
  exact hstate.symm

/-- A packet among the events of a run has been read in it. -/
theorem read_of_engineRun {es : List Iteration} {ev : Engine.Event} (hev : ev ∈ self.engineRun es)
    {data : List UInt8} (hdata : data ∈ ev.data) :
    ∃ front e, front ++ [e] <+: es ∧ (front.foldl step self).readFrom e = some data := by
  obtain ⟨front, e, hfront, hmem⟩ := Mealy.mem_translate hev
  rw [Mealy.run_state] at hmem
  exact ⟨front, e, hfront, readFrom_of_events hmem hdata⟩

/-- **Everything that is sent has been asked for**, by a packet read in the same iteration or in one
    before it. -/
theorem occasion_of_sent (hnew : ∀ key, self.engine.host.get key = none) {es : List Iteration}
    {e : Iteration} (hrun : Runs.Admits step GoesOn self es) {t : Transmission}
    (ht : t ∈ ((es.foldl step self).turn e).sent) :
    ∃ front e', front ++ [e'] <+: es ++ [e] ∧ ∃ data request,
      (front.foldl step self).readFrom e' = some data ∧ Ipv4Packet.parse data = .ok request ∧
        t.packet.Answers request := by
  have hsent := (turn_sent_isPrefix _ e).subset (List.mem_map_of_mem ht)
  obtain ⟨evs, ev, hpre, hmem⟩ := Mealy.mem_outputs hsent
  rw [Mealy.run_state] at hmem
  -- the event is one of a run of the engine
  have hfold : evs.foldl (fun engine ev => (Engine.act ServerApp.application engine ev).2)
      (es.foldl step self).engine
      = (self.engineRun es ++ evs).foldl (Engine.step ServerApp.application) self.engine := by
    rw [List.foldl_append, ← engine_foldl hrun]
    rfl
  rw [hfold] at hmem
  obtain ⟨ev', hev', data, hdata, request, hparse, hanswers⟩ :=
    Engine.occasion_of_handedOver hnew hmem
  have hall : ev' ∈ self.engineRun (es ++ [e]) := by
    unfold engineRun
    rw [Mealy.translate_append, Mealy.run_state]
    rw [List.append_assoc] at hev'
    rcases List.mem_append.mp hev' with hold | hlast
    · exact List.mem_append_left _ hold
    · apply List.mem_append_right
      rw [Mealy.translate, Mealy.translate, List.append_nil]
      exact hpre.subset hlast
  obtain ⟨front, e', hfront, hread⟩ := read_of_engineRun hall hdata
  exact ⟨front, e', hfront, data, request, hread, hparse, hanswers⟩

end Server

/-- **The server only answers.**  Whatever a server sends in a run of its loop, in the last turn as
    well, even if that one ends it: some packet has been read by then, in that turn or in an earlier
    one, to whose sender the server's packet goes back, under the same protocol, from the address
    and port that the packet was sent to. -/
theorem only_answers (app : ServerApp) (initialRto : Duration) (maxRetries : UInt8)
    (gracePeriod : Duration) (es : List Iteration) (e : Iteration)
    (hrun : Runs.Admits Server.step Server.GoesOn
      (Server.new app initialRto maxRetries gracePeriod) es)
    (t : Transmission)
    (ht : t ∈ ((es.foldl Server.step
      (Server.new app initialRto maxRetries gracePeriod)).turn e).sent) :
    ∃ front e', front ++ [e'] <+: es ++ [e] ∧ ∃ data request,
      (front.foldl Server.step
        (Server.new app initialRto maxRetries gracePeriod)).readFrom e' = some data ∧
      Ipv4Packet.parse data = .ok request ∧ t.packet.Answers request :=
  Server.occasion_of_sent (fun _ => rfl) hrun ht

/-- The FIN that a shutdown signal sends goes to a client that has written before. -/
theorem only_answers_shutdown :
    ∃ t ∈ (((ECHO_SERVER.step SYN_ITERATION).step ACK_ITERATION).turn SHUTDOWN_ITERATION).sent,
      ∃ data request, Ipv4Packet.parse data = .ok request ∧ t.packet.Answers request := by
  have hsent : (((ECHO_SERVER.step SYN_ITERATION).step ACK_ITERATION).turn
      SHUTDOWN_ITERATION).sent.length = 1 := by decide +kernel
  obtain ⟨t, ht⟩ := List.exists_mem_of_length_pos (by rw [hsent]; decide)
  obtain ⟨hsyn, hack, -⟩ := drainingServer_run
  obtain ⟨-, -, -, data, request, -, hparse, hanswers⟩ := only_answers .Echo 1000000000 3 0
    [SYN_ITERATION, ACK_ITERATION] SHUTDOWN_ITERATION ⟨hsyn, hack, trivial⟩ t ht
  exact ⟨t, ht, data, request, hparse, hanswers⟩

end Typenet

import Typenet.Server.Conversation
import Typenet.Server.Sharding

namespace Typenet

/-!
# Datagrams

ICMP and UDP are stateless: what a worker answers to such a message depends on the message alone.
Neither the connections nor a shutdown nor the choice of the worker shows in the answers.

* `Server.turn_datagrams` — an iteration answers the datagram that it reads, and sends no other;
* `process_answers_datagrams` — what all workers send outside TCP is the answer to what they read,
  one message at a time.
-/

/-- The packets that carry no segment. -/
def datagrams (packets : List (Ipv4Packet .Out)) : List (Ipv4Packet .Out) :=
  packets.filter fun packet => packet.router.asTcp.isNone

theorem datagrams_append (packets packets' : List (Ipv4Packet .Out)) :
    datagrams (packets ++ packets') = datagrams packets ++ datagrams packets' :=
  List.filter_append ..

namespace ServerApp

/-- The reply to a message that is no segment. -/
def reply (self : ServerApp) : ProtocolRouter .In → Option (ProtocolRouter .Out)
  | .Icmp msg => some (.Icmp msg.createReply)
  | .Udp dgram => some (.Udp (dgram.createReply application self).1)
  | .Tcp _ => none

/-- The packet around the reply. -/
def replyPacket (self : ServerApp) (data : List UInt8) : Option (Ipv4Packet .Out) :=
  (Ipv4Packet.parse data).toOption.bind fun packet =>
    (self.reply packet.router).bind fun router => (Ipv4Packet.tryFromRouter router).toOption

/-- **The answer to a packet by itself.**  A reply that leaves no room for a header is not sent. -/
def answerTo (self : ServerApp) (data : List UInt8) : Option (Ipv4Packet .Out) :=
  (self.replyPacket data).filter fun packet => decide (packet.router.size ≤ 1480)

end ServerApp

/-! ### What the engine hands over -/

namespace Engine

/-- Outside TCP a request is answered by the application alone. -/
theorem createReply_datagram (self : ServerApp) (tcpConnections : TcpConnections)
    {request : Ipv4Packet .In} (randomU32 : TraceableResult UInt32) (now : Instant) :
    datagrams (outSegments
      (request.createReply ServerApp.application self tcpConnections randomU32 now).1)
      = ((self.reply request.router).bind fun router =>
          (Ipv4Packet.tryFromRouter router).toOption).toList := by
  have hmade : ∀ router : ProtocolRouter .Out, router.asTcp = none →
      datagrams (outSegments ((Ipv4Packet.tryFromRouter router).map some))
        = (Ipv4Packet.tryFromRouter router).toOption.toList := by
    intro router hrouter
    cases hpacket : Ipv4Packet.tryFromRouter router with
    | error e => rfl
    | ok packet =>
      show [packet].filter _ = [packet]
      simp [(Ipv4Packet.tryFromRouter_eq_ok hpacket).1, hrouter]
  obtain ⟨hdr, router⟩ := request
  cases router with
  | Icmp msg => exact hmade (.Icmp msg.createReply) rfl
  | Udp dgram => exact hmade (.Udp (dgram.createReply ServerApp.application self).1) rfl
  | Tcp seg =>
    rw [Ipv4Packet.createReply_tcp _ _ _ _ _ rfl]
    apply List.filter_eq_nil_iff.mpr
    rcases (tcpConnections.createReply ServerApp.application self seg randomU32 now).1 with
      e | _ | out
    · simp [outSegments, Except.bind]
    · simp [outSegments, Except.bind, Ipv4Packet.ofReply]
    · intro packet hpacket
      cases hout : Ipv4Packet.tryFromRouter (.Tcp out) with
      | error e => simp [outSegments, Except.bind, Ipv4Packet.ofReply, hout, Except.map] at hpacket
      | ok packet' =>
        have heq : packet = packet' := by
          simpa [outSegments, Except.bind, Ipv4Packet.ofReply, hout, Except.map] using hpacket
        rw [heq, (Ipv4Packet.tryFromRouter_eq_ok hout).1]
        simp [ProtocolRouter.asTcp]

/-- **A packet** is answered outside TCP by the application alone. -/
theorem datagrams_packet (self : Engine ServerApp) (data : List UInt8)
    (randomU32 : TraceableResult UInt32) (now : Instant) :
    datagrams (self.handedOver ServerApp.application (.packet data randomU32 now))
      = (self.app.replyPacket data).toList := by
  unfold ServerApp.replyPacket
  cases hparse : Ipv4Packet.parse data with
  | error fault =>
    obtain ⟨fault', hskip⟩ := handlePacket_skipped ServerApp.application self randomU32 now hparse
    show datagrams (replies (self.handlePacket ServerApp.application data randomU32 now).1) = []
    rw [hskip]
    rfl
  | ok request =>
    rw [self.handedOver_parsed randomU32 now hparse]
    exact createReply_datagram self.app self.tcpConnections randomU32 now

/-- Whatever else happens, only segments are handed over. -/
theorem datagrams_of_data {σ : Type} {A : Application σ} {self : Engine σ} {ev : Event}
    (h : ev.data = none) : datagrams (self.handedOver A ev) = [] := by
  apply List.filter_eq_nil_iff.mpr
  intro packet hpacket
  rcases answers_or_conn hpacket with ⟨data, hdata, -⟩ | ⟨out, conn, hout, -⟩
  · cases h.symm.trans hdata
  · rw [(Ipv4Packet.tryFromRouter_eq_ok hout).1]
    simp [ProtocolRouter.asTcp]

end Engine

/-! ### What an iteration sends -/

namespace Server

variable {self : Server} {e : Iteration}

/-- An exchange sends the reply exactly if it leaves room for a header. -/
theorem exchange_packets (hbuf : self.Buffered) (e : Iteration) (data : List UInt8) :
    (self.exchange e data).sent.map Transmission.packet
      = (self.engine.handedOver ServerApp.application (.packet data e.randomU32 e.handledAt)).filter
          fun packet => decide (packet.router.size ≤ 1480) := by
  have hreplies : ∀ packet ∈ Engine.replies (self.engine.handlePacket ServerApp.application data
      e.randomU32 e.handledAt).1, Ipv4Packet.tryFromRouter packet.router = .ok packet :=
    fun packet hpacket => @Engine.handedOver_router _ _ _ (.packet data e.randomU32 e.handledAt)
      packet hpacket
  show _ = (Engine.replies (self.engine.handlePacket ServerApp.application data e.randomU32
    e.handledAt).1).filter _
  unfold exchange
  generalize self.engine.handlePacket ServerApp.application data e.randomU32 e.handledAt = r
    at hreplies ⊢
  obtain ⟨(err | _) | outcome, engine⟩ := r
  · rfl
  · rfl
  · have hreply : ∀ packet ∈ outcome.reply, Ipv4Packet.tryFromRouter packet.router = .ok packet :=
      fun packet hpacket => hreplies packet (Option.mem_toList.mpr hpacket)
    show _ = outcome.reply.toList.filter _
    simp only
    cases hout : outcome.reply with
    | none => rfl
    | some reply =>
      have hsendable := Ipv4Packet.sendable_iff (hreply reply hout)
      simp only
      by_cases hfit : reply.router.size ≤ 1480
      · obtain ⟨out, hsent, -⟩ := (hsendable.mpr hfit).sends self.writeBuf hbuf
        rw [hsent]
        simp [Transmission.packet, hfit]
      · have hfail := Ipv4Packet.sendPkt_error (Nat.lt_of_not_le hfit) hbuf
        cases hsent : sendPkt self.writeBuf reply with
        | error fault => simp [hfit]
        | ok out => exact absurd hsent (hfail out)

/-- An exchange answers the datagram. -/
theorem exchange_datagrams (hbuf : self.Buffered) (e : Iteration) (data : List UInt8) :
    datagrams ((self.exchange e data).sent.map Transmission.packet)
      = (self.engine.app.answerTo data).toList := by
  rw [exchange_packets hbuf, datagrams, List.filter_comm]
  have hanswer := self.engine.datagrams_packet data e.randomU32 e.handledAt
  unfold datagrams at hanswer
  rw [hanswer]
  unfold ServerApp.answerTo
  cases self.engine.app.replyPacket data with
  | none => rfl
  | some packet => by_cases hfit : packet.router.size ≤ 1480 <;> simp [Option.filter, hfit]

/-- What is handed over without a packet is no datagram. -/
theorem datagrams_of_outputs {engine : Engine ServerApp} {evs : List Engine.Event}
    {packets : List (Ipv4Packet .Out)} (h : ∀ ev ∈ evs, ev.data = none)
    (hpre : packets <+: Mealy.outputs (Engine.act ServerApp.application) evs engine) :
    datagrams packets = [] := by
  apply List.filter_eq_nil_iff.mpr
  intro packet hpacket
  obtain ⟨front, ev, hfront, hmem⟩ := Mealy.mem_outputs (hpre.subset hpacket)
  have hev : ev.data = none := h ev (hfront.subset (List.mem_append_right _ List.mem_cons_self))
  exact List.filter_eq_nil_iff.mp (Engine.datagrams_of_data hev) packet hmem

/-- A signal brings no packet. -/
theorem signals_data (e : Iteration) : ∀ ev ∈ signals e, ev.data = none :=
  List.filterMap_eq_nil_iff.mp (data_signals e)

/-- A check for shutdown sends no datagram. -/
theorem checkShutdown_datagrams (self : Server) (e : Iteration) :
    datagrams ((self.checkShutdown e).sent.map Transmission.packet) = [] :=
  datagrams_of_outputs (signals_data e) (self.checkShutdown_takes e).sent

/-- A second part of a turn that sends no datagram does not show. -/
theorem andThen_datagrams (t : Turn) {f : Server → Turn}
    (h : datagrams ((f t.server).sent.map Transmission.packet) = []) :
    datagrams ((t.andThen f).sent.map Transmission.packet)
      = datagrams (t.sent.map Transmission.packet) := by
  rcases t.andThen_sent f with hsent | ⟨-, hsent⟩
  · rw [hsent]
  · rw [hsent, List.map_append, datagrams_append, h, List.append_nil]

/-- An iteration that reads a packet answers it, and what it sends after that is no datagram. -/
theorem readAndReply_datagrams (hbuf : self.Buffered) (e : Iteration) (outcome : PollOutcome) :
    datagrams ((self.readAndReply e outcome).sent.map Transmission.packet)
      = (e.read.bind self.engine.app.answerTo).toList := by
  unfold readAndReply
  cases e.read with
  | none => exact self.checkShutdown_datagrams e
  | some data =>
    simp only
    rw [andThen_datagrams _ rfl, andThen_datagrams, exchange_datagrams hbuf, Option.bind_some]
    unfold afterPacket
    split
    · exact checkShutdown_datagrams _ e
    · rfl

/-- **An iteration** answers the datagram that it reads, and sends no other. -/
theorem turn_datagrams (hbuf : self.Buffered) (e : Iteration) :
    datagrams ((self.turn e).sent.map Transmission.packet)
      = ((self.readFrom e).bind self.engine.app.answerTo).toList := by
  unfold turn readFrom
  cases self.poll e with
  | Interrupted => exact self.checkShutdown_datagrams e
  | Reported outcome =>
    cases outcome with
    | Shutdown => exact self.checkShutdown_datagrams e
    | Readable | Both => exact readAndReply_datagrams hbuf e _
    | Timeout =>
      simp only
      split
      · rfl
      · refine datagrams_of_outputs (fun ev hev => ?_) (self.retransmit_takes e).sent
        rw [List.mem_singleton.mp hev]
        rfl

/-! ### What every iteration keeps -/

/-- The server runs `app`, and its write buffer is whole. -/
structure Ready (app : ServerApp) (server : Server) : Prop where
  buffered : server.Buffered
  app : server.engine.app = app

variable {app : ServerApp}

/-- A new server is ready. -/
theorem ready_new (app : ServerApp) (initialRto : Duration) (maxRetries : UInt8)
    (gracePeriod : Duration) : (new app initialRto maxRetries gracePeriod).Ready app :=
  ⟨List.length_replicate, rfl⟩

/-- A check for shutdown leaves a server ready. -/
theorem Ready.checkShutdown (h : self.Ready app) (e : Iteration) :
    (self.checkShutdown e).server.Ready app := by
  refine ⟨buffered_checkShutdown h.buffered e, ?_⟩
  obtain ⟨evs, hevs⟩ := self.checkShutdown_events e
  rw [hevs, Engine.foldl_app]
  exact h.app

/-- So does reading and replying. -/
theorem Ready.readAndReply (h : self.Ready app) (e : Iteration) (outcome : PollOutcome) :
    (self.readAndReply e outcome).server.Ready app := by
  unfold Server.readAndReply
  cases e.read with
  | none => exact h.checkShutdown e
  | some data =>
    have hx : (self.exchange e data).server.Ready app := by
      refine ⟨buffered_exchange h.buffered e data, ?_⟩
      rw [exchange_engine]
      exact (self.engine.step_app (.packet data e.randomU32 e.handledAt)).trans h.app
    have hafter : ((self.exchange e data).server.afterPacket e outcome).server.Ready app := by
      unfold afterPacket
      split
      · exact hx.checkShutdown e
      · exact hx
    simp only [Turn.andThen_server]
    split
    · split
      · exact hafter
      · exact hx
    · split
      · exact hafter
      · exact hx

/-- **Every iteration**, also the last one, leaves a server ready. -/
theorem Ready.turn (h : self.Ready app) (e : Iteration) : (self.turn e).server.Ready app := by
  unfold Server.turn
  cases self.poll e with
  | Interrupted => exact h.checkShutdown e
  | Reported outcome =>
    cases outcome with
    | Shutdown => exact h.checkShutdown e
    | Readable | Both => exact h.readAndReply e _
    | Timeout =>
      simp only
      split
      · exact h
      · refine ⟨?_, ?_⟩
        · have hbuf : { self with
              engine := (self.engine.makeRetransmissions e.sweptAt e.sweptLate).2 }.Buffered :=
            h.buffered
          exact buffered_sending hbuf
        · rw [retransmit_engine]
          exact (self.engine.step_app (.retransmit e.sweptAt e.sweptLate)).trans h.app

end Server

/-! ### What all workers send -/

namespace Process

variable {ι : Type} [DecidableEq ι]

/-- What the event reads from a device. -/
def read (self : Process ι) : Event ι → Option (List UInt8)
  | .turn w e => (self.workers w).server.readFrom e
  | .sigint _ | .store _ | .write _ _ _ | .wake _ _ => none

/-- What the workers read from their devices, in order. -/
def packetsRead (self : Process ι) (es : List (Event ι)) : List (List UInt8) :=
  Mealy.outputs (fun self ev => ((self.read ev).toList, self.step ev)) es self

/-- Every worker is ready. -/
def Ready (app : ServerApp) (self : Process ι) : Prop := ∀ w, (self.workers w).server.Ready app

/-- A process stays ready. -/
theorem Ready.step {app : ServerApp} {self : Process ι} (h : self.Ready app) (ev : Event ι) :
    (self.step ev).Ready app := by
  intro w
  rw [step_server]
  cases ev with
  | sigint | store | write | wake => exact h w
  | turn w' e =>
    simp only [Event.iteration]
    split
    · exact (h w).turn e
    · exact h w

omit [DecidableEq ι] in
/-- One step of a process answers the datagram that it reads, and sends no other. -/
theorem sent_datagrams {app : ServerApp} {self : Process ι} (h : self.Ready app) (ev : Event ι) :
    datagrams ((self.sent ev).map fun x => x.2.packet)
      = (self.read ev).toList.filterMap app.answerTo := by
  cases ev with
  | sigint | store | write | wake => rfl
  | turn w e =>
    have hturn := Server.turn_datagrams (h w).buffered e
    rw [(h w).app] at hturn
    show datagrams ((((self.workers w).server.turn e).sent.map fun t => (w, t)).map _) = _
    rw [List.map_map]
    refine hturn.trans ?_
    show _ = ((self.workers w).server.readFrom e).toList.filterMap app.answerTo
    cases (self.workers w).server.readFrom e with
    | none => rfl
    | some data => cases hanswer : app.answerTo data <;> simp [hanswer]

end Process

/-- **Datagrams are answered one by one, by any worker.**  Whatever happens to a process, what its
    workers send outside TCP is, in order, the answer to each message they read, which depends on
    that message alone: not on the connections, on a shutdown, or on the worker that reads it. -/
theorem process_answers_datagrams {ι : Type} [DecidableEq ι] (app : ServerApp)
    (initialRto : Duration) (maxRetries : UInt8) (gracePeriod : Duration)
    (es : List (Process.Event ι)) :
    datagrams ((Process.new (Server.new app initialRto maxRetries gracePeriod)).packetsSent es)
      = ((Process.new (Server.new app initialRto maxRetries gracePeriod)).packetsRead es).filterMap
          app.answerTo := by
  have hready : (Process.new (Server.new app initialRto maxRetries gracePeriod)
      : Process ι).Ready app := fun _ => Server.ready_new app initialRto maxRetries gracePeriod
  generalize (Process.new (Server.new app initialRto maxRetries gracePeriod) : Process ι) = process
    at hready
  unfold Process.packetsSent Process.packetsRead
  induction es generalizing process with
  | nil => rfl
  | cons ev es ih =>
    rw [Mealy.outputs_cons, Mealy.outputs_cons, List.map_append, datagrams_append,
      List.filterMap_append]
    exact congrArg₂ _ (Process.sent_datagrams hready ev) (ih _ (hready.step ev))

end Typenet

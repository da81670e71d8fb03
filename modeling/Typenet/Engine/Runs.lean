import Typenet.Stack.Engine
import Typenet.Table.Runs

namespace Typenet

/-!
# Runs of the engine

What an engine's event does to its application and its table is what one event of a host
does: the engine adds packets, errors and a deadline, but no other way to change them.  So
the table of every reachable engine is the table of a reachable host (`Engine.host_run`), and
what holds of the connections of hosts holds of the connections of engines
(`Engine.conn_invariant`).
-/

variable {σ : Type} {A : Application σ}

namespace Engine

/-- The application and the table of an engine. -/
def host (self : Engine σ) : Host σ := ⟨self.app, self.tcpConnections⟩

/-- **A packet is at most one segment.** -/
theorem host_handlePacket (A : Application σ) (self : Engine σ) (data : List UInt8)
    (randomU32 : TraceableResult UInt32) (now : Instant) :
    ∃ e, (self.handlePacket A data randomU32 now).2.host = self.host.step A e := by
  cases hparse : Ipv4Packet.parse data with
  | error fault =>
    obtain ⟨fault', hskip⟩ := handlePacket_skipped A self randomU32 now hparse
    exact ⟨.elsewhere self.app, by rw [hskip]; rfl⟩
  | ok packet =>
    rw [handlePacket_parsed A self randomU32 now hparse]
    cases hrouter : packet.router with
    | Icmp msg =>
      exact ⟨.elsewhere self.app, by simp only [Ipv4Packet.createReply, hrouter]; rfl⟩
    | Tcp seg =>
      exact ⟨.segment seg randomU32 now, by
        rw [Ipv4Packet.createReply_tcp A _ _ _ _ hrouter]; rfl⟩
    | Udp dgram =>
      exact ⟨.elsewhere (dgram.createReply A self.app).2, by
        simp only [Ipv4Packet.createReply, hrouter]; rfl⟩

/-- The TCP segment that a packet carries. -/
def segmentOf (data : List UInt8) : Option (TcpSegment .In) :=
  match Ipv4Packet.parse data with
  | .ok ⟨_, .Tcp seg⟩ => some seg
  | _ => none

/-- The table a packet leaves behind. -/
theorem handlePacket_table (A : Application σ) (self : Engine σ) (data : List UInt8)
    (randomU32 : TraceableResult UInt32) (now : Instant) :
    (self.handlePacket A data randomU32 now).2.tcpConnections = match segmentOf data with
      | some seg => (self.host.step A (.segment seg randomU32 now)).connections
      | none => self.tcpConnections := by
  unfold segmentOf
  cases hparse : Ipv4Packet.parse data with
  | error fault =>
    obtain ⟨fault', hskip⟩ := handlePacket_skipped A self randomU32 now hparse
    rw [hskip]
  | ok packet =>
    rw [handlePacket_parsed A self randomU32 now hparse]
    obtain ⟨hdr, router⟩ := packet
    cases router with
    | Icmp msg => rfl
    | Tcp seg =>
      have hrouter : (⟨hdr, .Tcp seg⟩ : Ipv4Packet .In).router = .Tcp seg := rfl
      rw [Ipv4Packet.createReply_tcp A _ _ _ _ hrouter]
      rfl
    | Udp dgram => rfl

/-- A shutdown signal is at most one closing sweep. -/
theorem host_handleShutdown (A : Application σ) (self : Engine σ) (now sentAt : Instant) :
    ∃ e, (self.handleShutdown now sentAt).2.host = self.host.step A e := by
  unfold handleShutdown
  cases self.shutdownDeadline with
  | some deadline => exact ⟨.elsewhere self.app, rfl⟩
  | none =>
    refine ⟨.close (fun seg => (Ipv4Packet.tryFrom seg).map fun _ => ()) sentAt, ?_⟩
    have htable : (self.host.step A (.close
        (fun seg => (Ipv4Packet.tryFrom seg).map fun _ => ()) sentAt)).connections
        = (self.tcpConnections.closeEstablished Ipv4Packet.tryFrom sentAt).1 :=
      TcpConnections.closeKeys_table _ _ _ _
    simp only
    rcases hclose : self.tcpConnections.closeEstablished Ipv4Packet.tryFrom sentAt with ⟨t, r⟩
    rw [hclose] at htable
    cases r with
    | error e => exact congrArg (Host.mk self.app) htable.symm
    | ok toSend =>
      simp only
      split
      · split <;> exact congrArg (Host.mk self.app) htable.symm
      · exact congrArg (Host.mk self.app) htable.symm

/-- **An event of the engine is an event of its host.** -/
theorem host_step (A : Application σ) (self : Engine σ) (ev : Event) :
    ∃ e, (self.step A ev).host = self.host.step A e := by
  cases ev with
  | packet data randomU32 now => exact self.host_handlePacket A data randomU32 now
  | retransmit now late => exact ⟨.retransmit now late, rfl⟩
  | shutdown now sentAt => exact self.host_handleShutdown A now sentAt

/-- The host of a reachable engine is reachable. -/
theorem host_run {app : σ} {initialRto : Duration} {maxRetries : UInt8} {grace : Duration}
    {es : List Event} {engine : Engine σ}
    (hrun : Runs.Run (step A) (fun _ _ => True) (new app initialRto maxRetries grace) es engine) :
    ∃ es', Runs.Run (Host.step A) (fun _ _ => True) (Host.new app initialRto maxRetries) es'
      engine.host := by
  refine hrun.state_invariant (I := fun engine => ∃ es', Runs.Run (Host.step A) (fun _ _ => True)
    (Host.new app initialRto maxRetries) es' engine.host) ⟨[], .nil⟩ ?_
  rintro engine ev ⟨es', hrun'⟩ -
  obtain ⟨e, heq⟩ := engine.host_step A ev
  rw [heq]
  exact ⟨_, .snoc hrun' trivial⟩

/-- **Invariant rule for engines**: what every connection has when it is opened, and every step
    keeps, holds of every connection of a reachable engine. -/
theorem conn_invariant {P : ConnState → Prop}
    (h0 : ∀ iss irs now, P (ConnState.opened iss irs now))
    (hstep : ∀ rto maxRetries app conn ev conn', P conn →
      (conn.step A rto maxRetries app ev).conn = some conn' → P conn')
    {app : σ} {initialRto : Duration} {maxRetries : UInt8} {grace : Duration} {es : List Event}
    {engine : Engine σ}
    (hrun : Runs.Run (step A) (fun _ _ => True) (new app initialRto maxRetries grace) es engine)
    {key : ConnKey} {conn : ConnState} (hconn : engine.tcpConnections.get key = some conn) :
    P conn := by
  obtain ⟨es', hrun'⟩ := host_run hrun
  have hguard : Runs.Run (Host.step A) (Host.Guard fun _ _ => True)
      (Host.new app initialRto maxRetries) es' engine.host :=
    hrun'.imp fun _ _ _ _ _ _ _ _ => trivial
  exact Host.conn_invariant h0 (fun _ _ _ _ _ _ hp _ => hstep _ _ _ _ _ _ hp) hguard hconn

end Engine

end Typenet

import Typenet.Stack.Ipv4Packet

namespace Typenet

/-!
# The engine

An engine owns the application, the connection table and the shutdown deadline.  Its three
entry points take whatever they read from the outside as arguments: the random number drawn
for a new connection, and the readings of the clock.  Each returns its result together with
the engine it leaves behind, on the error paths as well.  Three more functions answer the event
loop: how long to poll, and the two conditions under which draining ends.
-/

/-- The result of handling one incoming packet. -/
structure PacketOutcome where
  incoming : Ipv4Packet .In
  reply : Option (Ipv4Packet .Out)

/-- The result of deciding how to react to a shutdown signal. -/
inductive ShutdownOutcome
  /-- A previous call already started draining. -/
  | AlreadyDraining (timeLeft : Duration)
  /-- Active close has begun, and at least one connection is still closing. -/
  | BeganDraining (toSend : List (Ipv4Packet .Out))
  /-- No connection needed to finish closing. -/
  | NoConnections

/-- Owns all protocol state and decision logic, independent of any I/O. -/
structure Engine (σ : Type) where
  app : σ
  tcpConnections : TcpConnections
  shutdownGracePeriod : Duration
  /-- Bounds how long to wait for connections to finish closing, once draining. -/
  shutdownDeadline : Option Instant

namespace Engine

variable {σ : Type}

/-- `Engine::new`. -/
def new (app : σ) (initialRto : Duration) (maxRetries : UInt8) (shutdownGracePeriod : Duration) :
    Engine σ where
  app := app
  tcpConnections := TcpConnections.new initialRto maxRetries
  shutdownGracePeriod := shutdownGracePeriod
  shutdownDeadline := none

/-- The error of a packet that cannot be parsed. -/
def skipping (e : TraceableError) : TraceableError := .dynamic s!"Skipping packet: {e.display}"

/-- The error of a reply that cannot be created. -/
def creatingReply (e : TraceableError) : TraceableError :=
  .dynamic s!"Error creating reply: {e.display}"

/-- `Engine::handle_packet`. -/
def handlePacket (A : Application σ) (self : Engine σ) (data : List UInt8)
    (randomU32 : TraceableResult UInt32) (now : Instant) : Res PacketOutcome × Engine σ :=
  -- a packet that does not parse reaches neither the application nor the table
  match (Ipv4Packet.parse data).mapErr skipping with
  | .error fault => (.error fault, self)
  | .ok incoming =>
    let (reply, app, tcpConnections) :=
      incoming.createReply A self.app self.tcpConnections randomU32 now
    -- the handler has run by now: its error leaves what it has changed
    (((Res.ofResult reply).mapErr creatingReply).map fun reply => ⟨incoming, reply⟩,
      { self with app := app, tcpConnections := tcpConnections })

/-- `Engine::make_retransmissions`. -/
def makeRetransmissions (self : Engine σ) (now late : Instant) :
    List (TraceableResult (Ipv4Packet .Out)) × Engine σ :=
  let (tcpConnections, segments) := self.tcpConnections.makeRetransmissions now late
  (segments.map Ipv4Packet.tryFrom, { self with tcpConnections := tcpConnections })

/-- `Engine::handle_shutdown` at time `now`; `sentAt` is the clock's reading in the closing
    sweep. -/
def handleShutdown (self : Engine σ) (now sentAt : Instant) :
    TraceableResult ShutdownOutcome × Engine σ :=
  match self.shutdownDeadline with
  -- a second signal neither sweeps again nor moves the deadline
  | some deadline => (.ok (.AlreadyDraining (deadline.saturatingDurationSince now)), self)
  | none =>
    match self.tcpConnections.closeEstablished Ipv4Packet.tryFrom sentAt with
    -- an error stops the sweep: the connections it has closed stay closed
    | (tcpConnections, .error e) => (.error e, { self with tcpConnections := tcpConnections })
    | (tcpConnections, .ok toSend) =>
      let self := { self with tcpConnections := tcpConnections }
      if self.tcpConnections.closingInProgress then
        -- the deadline can overflow after the sweep, and then none is set
        match now.tryAdd self.shutdownGracePeriod with
        | .error e => (.error e, self)
        | .ok deadline =>
          (.ok (.BeganDraining toSend), { self with shutdownDeadline := some deadline })
      else (.ok .NoConnections, self)

/-- `Engine::poll_timeout`: the time left until the earlier of the shutdown deadline and the
    next retransmission. -/
def pollTimeout (self : Engine σ) (now late : Instant) : Option Duration :=
  ([self.shutdownDeadline, self.tcpConnections.nextRetransmitDeadline late].filterMap id).min?.map
    fun deadline => deadline.saturatingDurationSince now

/-- `Engine::grace_period_elapsed`. -/
def gracePeriodElapsed (self : Engine σ) (now : Instant) : Bool :=
  self.shutdownDeadline.any fun deadline => decide (deadline ≤ now)

/-- `Engine::draining_complete`. -/
def drainingComplete (self : Engine σ) : Bool :=
  self.shutdownDeadline.isSome && !self.tcpConnections.closingInProgress

/-! ### Events -/

/-- What can happen to an engine. -/
inductive Event
  | packet (data : List UInt8) (randomU32 : TraceableResult UInt32) (now : Instant)
  | retransmit (now late : Instant)
  | shutdown (now sentAt : Instant)

def step (A : Application σ) (self : Engine σ) : Event → Engine σ
  | .packet data randomU32 now => (self.handlePacket A data randomU32 now).2
  | .retransmit now late => (self.makeRetransmissions now late).2
  | .shutdown now sentAt => (self.handleShutdown now sentAt).2

/-! ### Packets by protocol -/

variable {data : List UInt8} {packet : Ipv4Packet .In}

/-- A packet that cannot be parsed changes nothing. -/
theorem handlePacket_skipped (A : Application σ) (self : Engine σ) {fault : Fault}
    (randomU32 : TraceableResult UInt32) (now : Instant)
    (h : Ipv4Packet.parse data = .error fault) :
    ∃ fault', self.handlePacket A data randomU32 now = (.error fault', self) := by
  unfold handlePacket
  rw [h]
  cases fault with
  | err e => exact ⟨_, rfl⟩
  | panic => exact ⟨_, rfl⟩

theorem handlePacket_parsed (A : Application σ) (self : Engine σ)
    (randomU32 : TraceableResult UInt32) (now : Instant) (h : Ipv4Packet.parse data = .ok packet) :
    self.handlePacket A data randomU32 now =
      (((Res.ofResult (packet.createReply A self.app self.tcpConnections randomU32 now).1).mapErr
          creatingReply).map fun reply => ⟨packet, reply⟩,
        { self with
          app := (packet.createReply A self.app self.tcpConnections randomU32 now).2.1
          tcpConnections :=
            (packet.createReply A self.app self.tcpConnections randomU32 now).2.2 }) := by
  unfold handlePacket
  rw [h]
  rfl

/-- **No packet makes the engine panic.** -/
theorem handlePacket_ne_panic (A : Application σ) (self : Engine σ) (data : List UInt8)
    (randomU32 : TraceableResult UInt32) (now : Instant) :
    (self.handlePacket A data randomU32 now).1 ≠ .error .panic := by
  have hparse := Ipv4Packet.parse_ne_panic data
  unfold handlePacket
  rcases hp : Ipv4Packet.parse data with (e | _) | packet
  · simp [Res.mapErr]
  · exact absurd hp hparse
  · simp only [Res.mapErr]
    rcases packet.createReply A self.app self.tcpConnections randomU32 now with ⟨_ | _, _⟩ <;>
      simp [Res.ofResult, Except.map]

end Engine

end Typenet

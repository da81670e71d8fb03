import Typenet.Engine.Runs
import Typenet.Server.Application
import Typenet.Server.Server

namespace Typenet

/-!
# The event loop

A worker polls its device, reacts to what the poll reports, and polls again.  One turn of the
loop is `Server.turn`; everything it takes from outside is an `Iteration`: the answer of the
poll, what is read from the device, whether a shutdown has been signalled, and the readings of
the clock.  I/O on the device, the poll and the log succeeds, except that polling and reading may
be interrupted by a signal.

A turn says what has been put on the wire and whether the loop goes on.  It moves the engine by
events of the engine only (`Server.engine_events`), so what holds of every reachable engine holds
of a running server's (`Server.EngineReached.step`).
-/

/-! ### What comes from outside -/

/-- The result of polling the device and, optionally, the shutdown eventfd. -/
inductive PollOutcome
  /-- The device became readable and the eventfd did not. -/
  | Readable
  /-- The eventfd became readable and the device did not. -/
  | Shutdown
  | Both
  /-- The timeout elapsed with neither becoming readable. -/
  | Timeout
  deriving DecidableEq, Repr

/-- What `poll_readable` returns. -/
inductive Polled
  | Interrupted
  | Reported (outcome : PollOutcome)
  deriving DecidableEq, Repr

/-- Everything one iteration of the loop takes from outside. -/
structure Iteration where
  /-- `poll_readable`, given the timeout and whether to watch for shutdown. -/
  pollReadable : Option Duration → Bool → Polled
  shutdownCheck : Bool
  /-- What `read` delivers; `none` is an interrupted read. -/
  read : Option (List UInt8)
  read_le : ∀ data ∈ read, data.length ≤ ETHERNET_MTU
  randomU32 : TraceableResult UInt32
  /-- The reading for the poll timeout, and one where a due time overflows. -/
  start : Instant
  startLate : Instant
  /-- The reading for the grace period. -/
  checkedAt : Instant
  /-- The reading for the retransmission sweep, and one where a due time overflows. -/
  sweptAt : Instant
  sweptLate : Instant
  /-- The reading for the packet. -/
  handledAt : Instant
  /-- The readings for the shutdown signal and for the closing sweep. -/
  signalledAt : Instant
  sentAt : Instant
  /-- The clock never goes back; no iteration takes more than some of its readings. -/
  ordered : [start, startLate, checkedAt, sweptAt, sweptLate, handledAt, signalledAt,
    sentAt].Pairwise (· ≤ ·)

/-! ### What a turn leaves behind -/

/-- A packet put on the wire, as the logger is told of it. -/
inductive Transmission
  | reply (packet : Ipv4Packet .Out)
  | nonReply (packet : Ipv4Packet .Out) (retransmission : Bool)
  deriving DecidableEq

/-- Whether the loop goes on, and if not, how it ends. -/
inductive LoopControl
  | Continue
  | Done
  | Failed (fault : Fault)
  deriving DecidableEq

/-- A worker: its engine, its write buffer, and whether it has reacted to a shutdown signal. -/
structure Server where
  writeBuf : List UInt8
  engine : Engine ServerApp
  draining : Bool

/-- A server after a turn, the packets it has sent, and whether it goes on. -/
structure Turn where
  server : Server
  sent : List Transmission
  control : LoopControl

/-- Goes on with `f` where the loop goes on. -/
def Turn.andThen (t : Turn) (f : Server → Turn) : Turn :=
  match t.control with
  | .Continue => ⟨(f t.server).server, t.sent ++ (f t.server).sent, (f t.server).control⟩
  | _ => t

/-- Sends packets one after the other; the first failure ends it. -/
def sendEach (retransmission : Bool) : List (TraceableResult (Ipv4Packet .Out)) → List UInt8 →
    List Transmission × Res (List UInt8)
  | [], writeBuf => ([], .ok writeBuf)
  -- a packet that could not be created ends the loop as a failed write does
  | .error e :: _, _ => ([], .error (.err e))
  | .ok packet :: rest, writeBuf =>
    match Server.sendPkt writeBuf packet with
    | .error fault => ([], .error fault)
    | .ok (writeBuf, _) =>
      let (sent, result) := sendEach retransmission rest writeBuf
      (.nonReply packet retransmission :: sent, result)

namespace Server

/-! ### One turn -/

/-- A server before its first poll. -/
def new (app : ServerApp) (initialRto : Duration) (maxRetries : UInt8) (gracePeriod : Duration) :
    Server where
  writeBuf := List.replicate ETHERNET_MTU 0
  engine := Engine.new app initialRto maxRetries gracePeriod
  draining := false

/-- Goes on unless sending has failed. -/
def sending (self : Server) : List Transmission × Res (List UInt8) → Turn
  | (sent, .ok writeBuf) => ⟨{ self with writeBuf := writeBuf }, sent, .Continue⟩
  | (sent, .error fault) => ⟨self, sent, .Failed fault⟩

/-- `Server::handle_shutdown_interrupt`. -/
def handleShutdownInterrupt (self : Server) (now sentAt : Instant) : Turn :=
  let (outcome, engine) := self.engine.handleShutdown now sentAt
  -- the eventfd is polled no more once draining has begun
  let self := { self with engine := engine, draining := true }
  match outcome with
  | .error e => ⟨self, [], .Failed (.err e)⟩
  | .ok (.AlreadyDraining _) => ⟨self, [], .Continue⟩
  | .ok (.BeganDraining toSend) => self.sending (sendEach false (toSend.map .ok) self.writeBuf)
  | .ok .NoConnections => ⟨self, [], .Done⟩

/-- Checks for a shutdown signal and reacts to it. -/
def checkShutdown (self : Server) (e : Iteration) : Turn :=
  if e.shutdownCheck then self.handleShutdownInterrupt e.signalledAt e.sentAt
  else ⟨self, [], .Continue⟩

/-- Retransmits all expired segments. -/
def retransmit (self : Server) (e : Iteration) : Turn :=
  let (retransmissions, engine) := self.engine.makeRetransmissions e.sweptAt e.sweptLate
  let self := { self with engine := engine }
  self.sending (sendEach true retransmissions self.writeBuf)

/-- Handles a packet and sends the reply, if there is one.  An error of the packet is logged. -/
def exchange (self : Server) (e : Iteration) (data : List UInt8) : Turn :=
  let (outcome, engine) :=
    self.engine.handlePacket ServerApp.application data e.randomU32 e.handledAt
  let self := { self with engine := engine }
  match outcome with
  | .error .panic => ⟨self, [], .Failed .panic⟩
  -- logged
  | .error (.err _) => ⟨self, [], .Continue⟩
  | .ok outcome =>
    match outcome.reply with
    | none => ⟨self, [], .Continue⟩
    | some reply =>
      match sendPkt self.writeBuf reply with
      | .error fault => ⟨self, [], .Failed fault⟩
      | .ok (writeBuf, _) => ⟨{ self with writeBuf := writeBuf }, [.reply reply], .Continue⟩

/-- Ends the loop once draining is complete. -/
def checkDrained (self : Server) : Turn :=
  ⟨self, [], if self.engine.drainingComplete then .Done else .Continue⟩

/-- After a packet, checks for shutdown if the eventfd became readable as well. -/
def afterPacket (self : Server) (e : Iteration) (outcome : PollOutcome) : Turn :=
  if outcome = .Both then self.checkShutdown e else ⟨self, [], .Continue⟩

/-- The device became readable: read and reply. -/
def readAndReply (self : Server) (e : Iteration) (outcome : PollOutcome) : Turn :=
  match e.read with
  | none => self.checkShutdown e
  | some data =>
    ((self.exchange e data).andThen fun self => self.afterPacket e outcome).andThen checkDrained

/-- What the poll of an iteration returns. -/
def poll (self : Server) (e : Iteration) : Polled :=
  e.pollReadable (self.engine.pollTimeout e.start e.startLate) (!self.draining)

/-- **One iteration of `Server::run`.** -/
def turn (self : Server) (e : Iteration) : Turn :=
  match self.poll e with
  -- no packet is read and no segment swept
  | .Interrupted | .Reported .Shutdown => self.checkShutdown e
  | .Reported .Timeout =>
    -- grace period ended with connections left: forcefully exit
    if self.engine.gracePeriodElapsed e.checkedAt then ⟨self, [], .Done⟩ else self.retransmit e
  | .Reported .Readable => self.readAndReply e .Readable
  | .Reported .Both => self.readAndReply e .Both

/-- The server after an iteration. -/
def step (self : Server) (e : Iteration) : Server := (self.turn e).server

/-- The loop goes on after the iteration. -/
def GoesOn (self : Server) (e : Iteration) : Prop := (self.turn e).control = .Continue

instance (self : Server) (e : Iteration) : Decidable (self.GoesOn e) :=
  inferInstanceAs (Decidable (_ = _))

end Server

/-! ### Turns that go on -/

/-- A turn of two parts goes on only if both of them do. -/
theorem Turn.andThen_continue {t : Turn} {f : Server → Turn}
    (h : (t.andThen f).control = .Continue) :
    t.control = .Continue ∧ (f t.server).control = .Continue ∧
      t.andThen f = ⟨(f t.server).server, t.sent ++ (f t.server).sent, .Continue⟩ := by
  unfold andThen at h ⊢
  cases hc : t.control with
  | Continue =>
    rw [hc] at h
    exact ⟨rfl, h, congrArg _ h⟩
  | Done | Failed => rw [hc] at h; exact absurd (hc.symm.trans h) (by simp)

/-- Sending that does not fail sends its first packet and then the others. -/
theorem sendEach_cons {retransmission : Bool} {item : TraceableResult (Ipv4Packet .Out)}
    {rest : List (TraceableResult (Ipv4Packet .Out))} {writeBuf buf : List UInt8}
    {sent : List Transmission}
    (h : sendEach retransmission (item :: rest) writeBuf = (sent, .ok buf)) :
    ∃ packet out sent', item = .ok packet ∧ Server.sendPkt writeBuf packet = .ok out ∧
      sendEach retransmission rest out.1 = (sent', .ok buf) ∧
      sent = .nonReply packet retransmission :: sent' := by
  cases item with
  | error e => cases (Prod.mk.inj h).2
  | ok packet =>
    unfold sendEach at h
    cases hsend : Server.sendPkt writeBuf packet with
    | error fault => rw [hsend] at h; cases (Prod.mk.inj h).2
    | ok out =>
      rw [hsend] at h
      obtain ⟨hsent, hrest⟩ := Prod.mk.inj h
      exact ⟨packet, out, _, rfl, hsend, Prod.ext rfl hrest, hsent.symm⟩

/-- Packets that have all been sent are all reported. -/
theorem sendEach_ok {retransmission : Bool} {items : List (TraceableResult (Ipv4Packet .Out))}
    {writeBuf buf : List UInt8} {sent : List Transmission}
    (h : sendEach retransmission items writeBuf = (sent, .ok buf)) (packet : Ipv4Packet .Out) :
    .nonReply packet retransmission ∈ sent ↔ .ok packet ∈ items := by
  induction items generalizing writeBuf sent with
  | nil =>
    obtain ⟨rfl, -⟩ := Prod.mk.inj h
    exact iff_of_false List.not_mem_nil List.not_mem_nil
  | cons item rest ih =>
    obtain ⟨packet', out, sent', rfl, -, hrest, rfl⟩ := sendEach_cons h
    rw [List.mem_cons, List.mem_cons, ih hrest, Transmission.nonReply.injEq, Except.ok.injEq,
      and_iff_left rfl]

/-- Packets that have all been sent could all be created. -/
theorem sendEach_created {retransmission : Bool}
    {items : List (TraceableResult (Ipv4Packet .Out))} {writeBuf buf : List UInt8}
    {sent : List Transmission} (h : sendEach retransmission items writeBuf = (sent, .ok buf)) :
    ∀ item ∈ items, ∃ packet, item = .ok packet := by
  induction items generalizing writeBuf sent with
  | nil => exact fun item hitem => absurd hitem List.not_mem_nil
  | cons item rest ih =>
    obtain ⟨packet', out, sent', rfl, -, hrest, -⟩ := sendEach_cons h
    intro item hitem
    rcases List.mem_cons.mp hitem with rfl | hmem
    · exact ⟨packet', rfl⟩
    · exact ih hrest item hmem

/-- Nothing sent in a closing sweep is a retransmission. -/
theorem sendEach_closing (items : List (TraceableResult (Ipv4Packet .Out)))
    (writeBuf : List UInt8) (packet : Ipv4Packet .Out) :
    .nonReply packet true ∉ (sendEach false items writeBuf).1 := by
  induction items generalizing writeBuf with
  | nil => exact List.not_mem_nil
  | cons item rest ih =>
    unfold sendEach
    cases item with
    | error e => exact List.not_mem_nil
    | ok packet' =>
      simp only
      cases Server.sendPkt writeBuf packet' with
      | error fault => exact List.not_mem_nil
      | ok out =>
        intro h
        rcases List.mem_cons.mp h with heq | hmem
        · cases heq
        · exact ih _ hmem

namespace Server

variable {self : Server} {e : Iteration}

/-! ### What a turn does to the engine -/

@[simp] theorem sending_engine (self : Server) (r : List Transmission × Res (List UInt8)) :
    (self.sending r).server.engine = self.engine := by
  obtain ⟨sent, _ | _⟩ := r <;> rfl

/-- Sending that goes on has sent everything. -/
theorem sending_continue {r : List Transmission × Res (List UInt8)}
    (h : (self.sending r).control = .Continue) :
    ∃ writeBuf, r = ((self.sending r).sent, .ok writeBuf) := by
  obtain ⟨sent, fault | writeBuf⟩ := r
  · cases h
  · exact ⟨writeBuf, rfl⟩

/-- A sweep is the sweep of the engine. -/
theorem retransmit_engine (self : Server) (e : Iteration) : (self.retransmit e).server.engine
    = (self.engine.makeRetransmissions e.sweptAt e.sweptLate).2 := sending_engine _ _

/-- An exchange hands the packet to the engine. -/
theorem exchange_engine (self : Server) (e : Iteration) (data : List UInt8) :
    (self.exchange e data).server.engine = (self.engine.handlePacket ServerApp.application data
      e.randomU32 e.handledAt).2 := by
  unfold exchange
  rcases self.engine.handlePacket ServerApp.application data e.randomU32 e.handledAt with
    ⟨(_ | _) | outcome, engine⟩
  · rfl
  · rfl
  · simp only
    cases outcome.reply with
    | none => rfl
    | some reply =>
      simp only
      cases sendPkt self.writeBuf reply <;> rfl

/-- Reacting to a signal hands it to the engine. -/
theorem handleShutdownInterrupt_engine (self : Server) (now sentAt : Instant) :
    (self.handleShutdownInterrupt now sentAt).server.engine
      = (self.engine.handleShutdown now sentAt).2 := by
  unfold handleShutdownInterrupt
  rcases self.engine.handleShutdown now sentAt with ⟨_ | (_ | _ | _), engine⟩
  · rfl
  · rfl
  · exact sending_engine _ _
  · rfl

/-- A check for shutdown hands the signal to the engine if it has been seen. -/
theorem checkShutdown_engine (self : Server) (e : Iteration) : (self.checkShutdown e).server.engine
    = if e.shutdownCheck then (self.engine.handleShutdown e.signalledAt e.sentAt).2
      else self.engine := by
  unfold checkShutdown
  split
  · exact handleShutdownInterrupt_engine self _ _
  · rfl

/-- After a packet the engine sees the signal only if the poll has reported both. -/
theorem afterPacket_engine (self : Server) (e : Iteration) (outcome : PollOutcome) :
    (self.afterPacket e outcome).server.engine
      = if outcome = .Both then (self.checkShutdown e).server.engine else self.engine := by
  unfold afterPacket
  split <;> rfl

/-- A check for shutdown is at most one event of the engine. -/
theorem checkShutdown_events (self : Server) (e : Iteration) : ∃ evs : List Engine.Event,
    (self.checkShutdown e).server.engine
      = evs.foldl (Engine.step ServerApp.application) self.engine := by
  rw [checkShutdown_engine]
  split
  · exact ⟨[.shutdown e.signalledAt e.sentAt], rfl⟩
  · exact ⟨[], rfl⟩

/-! ### Turns that go on, by what they did -/

/-- The poll has reported the device readable. -/
def DeviceReadable (self : Server) (e : Iteration) (outcome : PollOutcome) : Prop :=
  self.poll e = .Reported outcome ∧ (outcome = .Readable ∨ outcome = .Both)

/-- **What an iteration that goes on has done**: swept the table for retransmissions, handled a
    packet, or only checked for shutdown. -/
inductive Went (self : Server) (e : Iteration) : Turn → Prop
  | swept : self.poll e = .Reported .Timeout → (self.retransmit e).control = .Continue →
      Went self e (self.retransmit e)
  | exchanged {outcome : PollOutcome} {data : List UInt8} {x : Turn} :
      self.DeviceReadable e outcome → e.read = some data → x = self.exchange e data →
      x.control = .Continue → (x.server.afterPacket e outcome).control = .Continue →
      (x.server.afterPacket e outcome).server.engine.drainingComplete = false →
      Went self e ⟨(x.server.afterPacket e outcome).server,
        x.sent ++ (x.server.afterPacket e outcome).sent, .Continue⟩
  | signalled : self.poll e ≠ .Reported .Timeout →
      (∀ outcome, self.DeviceReadable e outcome → e.read = none) →
      (self.checkShutdown e).control = .Continue → Went self e (self.checkShutdown e)

/-- The loop goes on while draining is not complete. -/
theorem checkDrained_continue (self : Server) :
    self.checkDrained.control = .Continue ↔ self.engine.drainingComplete = false := by
  unfold checkDrained
  cases self.engine.drainingComplete <;> simp

/-- A readable device that lets the loop go on has led to an exchange or to a check. -/
theorem went_readAndReply {outcome : PollOutcome} (hread : self.DeviceReadable e outcome)
    (h : (self.readAndReply e outcome).control = .Continue) :
    Went self e (self.readAndReply e outcome) := by
  unfold readAndReply at h ⊢
  cases hdata : e.read with
  | none =>
    rw [hdata] at h
    -- the read would have blocked
    refine .signalled ?_ (fun _ _ => hdata) h
    rw [hread.1]
    rcases hread.2 with rfl | rfl <;> decide
  | some data =>
    rw [hdata] at h
    -- each of the three parts of the turn has gone on
    obtain ⟨hmid, hdrained, heq⟩ := Turn.andThen_continue h
    obtain ⟨hx, hafter, heq'⟩ := Turn.andThen_continue hmid
    rw [heq', checkDrained_continue] at hdrained
    simp only
    rw [heq, heq']
    simp only [checkDrained, List.append_nil]
    exact .exchanged hread hdata rfl hx hafter hdrained

/-- **An iteration that goes on** has done one of three things. -/
theorem went_turn (h : self.GoesOn e) : Went self e (self.turn e) := by
  unfold GoesOn turn at h
  unfold turn
  cases hpoll : self.poll e with
  | Interrupted =>
    rw [hpoll] at h
    refine .signalled (by rw [hpoll]; decide) (fun _ hr => ?_) h
    cases hpoll.symm.trans hr.1
  | Reported outcome =>
    rw [hpoll] at h
    cases outcome with
    | Readable => exact went_readAndReply ⟨hpoll, .inl rfl⟩ h
    | Both => exact went_readAndReply ⟨hpoll, .inr rfl⟩ h
    | Shutdown =>
      refine .signalled (by rw [hpoll]; decide) (fun _ hr => ?_) h
      obtain rfl := Polled.Reported.inj (hpoll.symm.trans hr.1)
      rcases hr.2 with h' | h' <;> cases h'
    | Timeout =>
      simp only at h ⊢
      split at h
      -- past the deadline the loop ends
      case isTrue => cases h
      case isFalse hgrace =>
        rw [if_neg hgrace]
        exact .swept hpoll h

/-- An iteration that goes on moves the engine by events of the engine. -/
theorem engine_events (h : self.GoesOn e) : ∃ evs : List Engine.Event,
    (self.step e).engine = evs.foldl (Engine.step ServerApp.application) self.engine := by
  have hwent := went_turn h
  unfold step
  generalize self.turn e = t at hwent
  cases hwent with
  | swept => exact ⟨[.retransmit e.sweptAt e.sweptLate], retransmit_engine self e⟩
  | @exchanged outcome data x hread hdata hx =>
    -- the packet, and after it a signal if the poll reported both
    have hpkt : x.server.engine = [Engine.Event.packet data e.randomU32 e.handledAt].foldl
        (Engine.step ServerApp.application) self.engine := by
      rw [hx]
      exact exchange_engine self e data
    by_cases hboth : outcome = .Both
    · obtain ⟨evs, hevs⟩ := x.server.checkShutdown_events e
      refine ⟨[.packet data e.randomU32 e.handledAt] ++ evs, ?_⟩
      rw [List.foldl_append, ← hpkt, ← hevs]
      simp only [afterPacket_engine, hboth, if_true]
    · refine ⟨[.packet data e.randomU32 e.handledAt], ?_⟩
      rw [← hpkt]
      simp only [afterPacket_engine, hboth, if_false]
  | signalled => exact self.checkShutdown_events e

/-- The engine is one that events can lead a new engine to. -/
def EngineReached (app : ServerApp) (initialRto : Duration) (maxRetries : UInt8)
    (gracePeriod : Duration) (self : Server) : Prop :=
  ∃ evs, Runs.Run (Engine.step ServerApp.application) (fun _ _ => True)
    (Engine.new app initialRto maxRetries gracePeriod) evs self.engine

/-- **The engine of a running server is reachable.** -/
theorem EngineReached.step {app : ServerApp} {initialRto : Duration} {maxRetries : UInt8}
    {gracePeriod : Duration} (h : self.EngineReached app initialRto maxRetries gracePeriod)
    (hgoes : self.GoesOn e) :
    (self.step e).EngineReached app initialRto maxRetries gracePeriod := by
  obtain ⟨evs, hevs⟩ := h
  obtain ⟨evs', heq⟩ := engine_events hgoes
  rw [hevs.eq_foldl, ← List.foldl_append] at heq
  exact ⟨evs ++ evs', by rw [heq]; exact .of_foldl _ _⟩

end Server

end Typenet

import Typenet.Engine.Refinement
import Typenet.Server.Draining

namespace Typenet

/-!
# The loop and the table

What a worker puts on the wire for TCP is what its connection table emits, and what it hands to the
table is what it reads from the device.  The loop refines the engine, the engine refines the host,
and refinements compose:

* `Server.turn_takes` — an iteration takes at most two events of the engine and sends the packets
  they hand over; one that ends the loop may take only the first, and one that fails may send only
  a front part of the packets;
* `Server.refines_engine`, `Server.refines_table` — so the iterations that go on refine the engine
  and its host;
* `loop_refines_table` — a run of the loop, with the iteration that ends it, is a run of the host,
  segment by segment.
-/

/-! ### Turns, in terms of the engine -/

/-- The packet that has been put on the wire. -/
def Transmission.packet : Transmission → Ipv4Packet .Out
  | .reply packet => packet
  | .nonReply packet _ => packet

/-- Packets that have all been sent are those that were handed over. -/
theorem sendEach_packets {retransmission : Bool}
    {items : List (TraceableResult (Ipv4Packet .Out))} {writeBuf buf : List UInt8}
    {sent : List Transmission} (h : sendEach retransmission items writeBuf = (sent, .ok buf)) :
    sent.map Transmission.packet = createdPackets items := by
  induction items generalizing writeBuf sent with
  | nil =>
    obtain ⟨rfl, -⟩ := Prod.mk.inj h
    rfl
  | cons item rest ih =>
    obtain ⟨packet, out, sent', rfl, -, hrest, rfl⟩ := sendEach_cons h
    unfold createdPackets at ih ⊢
    rw [List.map_cons, ih hrest, List.filterMap_cons]
    rfl

/-- Packets that exist are all among the created ones. -/
theorem createdPackets_ok (packets : List (Ipv4Packet .Out)) :
    createdPackets (packets.map .ok) = packets := by
  unfold createdPackets
  rw [List.filterMap_map]
  exact List.filterMap_some

/-- Sending that fails has sent a front part. -/
theorem sendEach_isPrefix (retransmission : Bool) (items : List (TraceableResult (Ipv4Packet .Out)))
    (writeBuf : List UInt8) :
    (sendEach retransmission items writeBuf).1.map Transmission.packet
      <+: createdPackets items := by
  induction items generalizing writeBuf with
  | nil => exact List.nil_prefix
  | cons item rest ih =>
    unfold sendEach
    cases item with
    | error e => exact List.nil_prefix
    | ok packet =>
      simp only
      cases Server.sendPkt writeBuf packet with
      | error fault => exact List.nil_prefix
      | ok out => exact List.cons_prefix_cons.mpr ⟨rfl, ih out.1⟩

namespace Turn

/-- The loop fails. -/
def Fails (t : Turn) : Prop := ∃ fault, t.control = .Failed fault

/-- A turn that goes on does not fail. -/
theorem not_fails_of_continue {t : Turn} (h : t.control = .Continue) : ¬ t.Fails := by
  rintro ⟨fault, hfault⟩
  cases h.symm.trans hfault

/-- **What a turn comes to.**  A turn of a server with the given engine has taken these events of
    it; one that does not fail has sent all that they hand over, and none of them has failed. -/
structure Takes (t : Turn) (engine : Engine ServerApp) (evs : List Engine.Event) : Prop where
  state : t.server.engine = (Mealy.run (Engine.act ServerApp.application) evs engine).2
  /-- What the turn has sent is a front part of what the events hand over. -/
  sent : t.sent.map Transmission.packet
    <+: Mealy.outputs (Engine.act ServerApp.application) evs engine
  /-- Only a failure keeps packets back. -/
  whole : ¬ t.Fails →
    t.sent.map Transmission.packet = Mealy.outputs (Engine.act ServerApp.application) evs engine
  succeeds : ¬ t.Fails →
    Runs.Admits (Engine.step ServerApp.application) Engine.Succeeds engine evs

variable {t : Turn} {engine : Engine ServerApp} {evs evs' : List Engine.Event}

/-- A turn that does nothing. -/
theorem takes_nil (self : Server) (control : LoopControl) :
    Takes ⟨self, [], control⟩ self.engine [] :=
  ⟨rfl, List.nil_prefix, fun _ => rfl, fun _ => trivial⟩

/-- A turn that takes a single event. -/
theorem takes_single {ev : Engine.Event}
    (hstate : t.server.engine = engine.step ServerApp.application ev)
    (hsent : t.sent.map Transmission.packet <+: engine.handedOver ServerApp.application ev)
    (hwhole : ¬ t.Fails →
      t.sent.map Transmission.packet = engine.handedOver ServerApp.application ev)
    (hsucceeds : ¬ t.Fails → engine.Succeeds ev) : t.Takes engine [ev] := by
  have hout : Mealy.outputs (Engine.act ServerApp.application) [ev] engine
      = engine.handedOver ServerApp.application ev := by
    rw [Mealy.outputs_cons, Mealy.outputs_nil, List.append_nil]
    rfl
  refine ⟨hstate, ?_, ?_, fun h => ⟨hsucceeds h, trivial⟩⟩
  · rw [hout]
    exact hsent
  · rw [hout]
    exact hwhole

/-- The second part of a turn comes only after a first part that goes on. -/
theorem Takes.andThen_stop (h : t.Takes engine evs) (hstop : t.control ≠ .Continue)
    (f : Server → Turn) : (t.andThen f).Takes engine evs := by
  have heq : t.andThen f = t := by
    unfold Turn.andThen
    cases hc : t.control with
    | Continue => exact absurd hc hstop
    | Done | Failed => rfl
  rw [heq]
  exact h

/-- **Two parts of a turn** take their events one after the other. -/
theorem Takes.andThen (h : t.Takes engine evs) (hgoes : t.control = .Continue)
    {f : Server → Turn} (hf : (f t.server).Takes t.server.engine evs') :
    (t.andThen f).Takes engine (evs ++ evs') := by
  have heq : t.andThen f
      = ⟨(f t.server).server, t.sent ++ (f t.server).sent, (f t.server).control⟩ := by
    unfold Turn.andThen
    rw [hgoes]
  have hfirst := h.whole (not_fails_of_continue hgoes)
  have hsucceeds := h.succeeds (not_fails_of_continue hgoes)
  rw [heq]
  refine ⟨?_, ?_, fun hnot => ?_, fun hnot => ?_⟩
  · rw [Mealy.run_append, ← h.state]
    exact hf.state
  · rw [List.map_append, hfirst, Mealy.outputs_append, ← h.state]
    exact (List.prefix_append_right_inj _).mpr hf.sent
  · rw [List.map_append, hfirst, Mealy.outputs_append, ← h.state]
    exact congrArg _ (hf.whole hnot)
  · have hstate : evs.foldl (Engine.step ServerApp.application) engine = t.server.engine := by
      rw [h.state, Mealy.run_state]
      rfl
    refine Runs.admits_append.mpr ⟨hsucceeds, ?_⟩
    rw [hstate]
    exact hf.succeeds hnot

/-- What is sent by two parts of a turn, of which the second comes only after a first that went
    on. -/
theorem andThen_sent (t : Turn) (f : Server → Turn) :
    (t.andThen f).sent = t.sent ∨
      (t.control = .Continue ∧ (t.andThen f).sent = t.sent ++ (f t.server).sent) := by
  unfold Turn.andThen
  cases hc : t.control with
  | Continue => exact .inr ⟨rfl, rfl⟩
  | Done | Failed => exact .inl rfl

end Turn

namespace Server

variable {self : Server} {e : Iteration}

/-- A signal that has been seen is an event of the engine. -/
def signals (e : Iteration) : List Engine.Event :=
  if e.shutdownCheck then [.shutdown e.signalledAt e.sentAt] else []

/-- What an iteration reads from its device: nothing unless the poll reports it readable. -/
def readFrom (self : Server) (e : Iteration) : Option (List UInt8) :=
  match self.poll e with
  | .Reported .Readable | .Reported .Both => e.read
  | .Reported .Shutdown | .Reported .Timeout | .Interrupted => none

/-- The events of the engine that an iteration comes to. -/
def events (self : Server) (e : Iteration) : List Engine.Event :=
  match self.readFrom e with
  | some data => .packet data e.randomU32 e.handledAt ::
      -- a signal is looked for after the packet only where the poll has reported it
      if self.poll e = .Reported .Both then signals e else []
  | none =>
    if self.poll e = .Reported .Timeout then [.retransmit e.sweptAt e.sweptLate] else signals e

/-- Sending puts a front part of the packets on the wire, and all of them if it does not fail. -/
theorem sending_sent (self : Server) (retransmission : Bool)
    (items : List (TraceableResult (Ipv4Packet .Out))) (writeBuf : List UInt8) :
    (self.sending (sendEach retransmission items writeBuf)).sent.map Transmission.packet
        <+: createdPackets items ∧
      (¬ (self.sending (sendEach retransmission items writeBuf)).Fails →
        (self.sending (sendEach retransmission items writeBuf)).sent.map Transmission.packet
          = createdPackets items) := by
  have hpre := sendEach_isPrefix retransmission items writeBuf
  cases hsend : sendEach retransmission items writeBuf with
  | mk sent result =>
    rw [hsend] at hpre
    cases result with
    | error fault => exact ⟨hpre, fun hnot => absurd ⟨fault, rfl⟩ hnot⟩
    | ok buf => exact ⟨hpre, fun _ => sendEach_packets hsend⟩

/-- Reacting to a signal takes it. -/
theorem handleShutdownInterrupt_takes (self : Server) (now sentAt : Instant) :
    (self.handleShutdownInterrupt now sentAt).Takes self.engine [.shutdown now sentAt] := by
  have hstate := self.handleShutdownInterrupt_engine now sentAt
  have hall : (self.handleShutdownInterrupt now sentAt).sent.map Transmission.packet
        <+: Engine.fins (self.engine.handleShutdown now sentAt).1 ∧
      (¬ (self.handleShutdownInterrupt now sentAt).Fails →
        (self.handleShutdownInterrupt now sentAt).sent.map Transmission.packet
          = Engine.fins (self.engine.handleShutdown now sentAt).1 ∧
        ∀ err, (self.engine.handleShutdown now sentAt).1 ≠ .error err) := by
    unfold handleShutdownInterrupt
    rcases self.engine.handleShutdown now sentAt with
      ⟨err | (timeLeft | toSend | _), engine⟩
    · exact ⟨List.nil_prefix, fun hnot => absurd ⟨_, rfl⟩ hnot⟩
    · exact ⟨List.nil_prefix, fun _ => ⟨rfl, fun _ h => by cases h⟩⟩
    · -- the FINs go out one by one
      have hsent := sending_sent { self with engine := engine, draining := true } false
        (toSend.map .ok) self.writeBuf
      rw [createdPackets_ok] at hsent
      exact ⟨hsent.1, fun hnot => ⟨hsent.2 hnot, fun _ h => by cases h⟩⟩
    · exact ⟨List.nil_prefix, fun _ => ⟨rfl, fun _ h => by cases h⟩⟩
  exact Turn.takes_single hstate hall.1 (fun hnot => (hall.2 hnot).1) fun hnot => (hall.2 hnot).2

/-- A check for shutdown takes the signal, if one has been seen. -/
theorem checkShutdown_takes (self : Server) (e : Iteration) :
    (self.checkShutdown e).Takes self.engine (signals e) := by
  unfold checkShutdown signals
  split
  · exact self.handleShutdownInterrupt_takes e.signalledAt e.sentAt
  · exact Turn.takes_nil self _

/-- A sweep takes the sweep of the engine. -/
theorem retransmit_takes (self : Server) (e : Iteration) :
    (self.retransmit e).Takes self.engine [.retransmit e.sweptAt e.sweptLate] := by
  have hsent := sending_sent
    { self with engine := (self.engine.makeRetransmissions e.sweptAt e.sweptLate).2 } true
    (self.engine.makeRetransmissions e.sweptAt e.sweptLate).1 self.writeBuf
  exact Turn.takes_single (self.retransmit_engine e) hsent.1 hsent.2 fun _ => trivial

/-- An exchange takes the packet, whether or not the reply can be sent. -/
theorem exchange_takes (self : Server) (e : Iteration) (data : List UInt8) :
    (self.exchange e data).Takes self.engine [.packet data e.randomU32 e.handledAt] := by
  have hstate := self.exchange_engine e data
  have hall : (self.exchange e data).sent.map Transmission.packet
        <+: Engine.replies (self.engine.handlePacket ServerApp.application data e.randomU32
          e.handledAt).1 ∧
      (¬ (self.exchange e data).Fails → (self.exchange e data).sent.map Transmission.packet
        = Engine.replies (self.engine.handlePacket ServerApp.application data e.randomU32
          e.handledAt).1) := by
    unfold exchange
    rcases self.engine.handlePacket ServerApp.application data e.randomU32 e.handledAt with
      ⟨(err | _) | outcome, engine⟩
    · exact ⟨List.nil_prefix, fun _ => rfl⟩
    · exact ⟨List.nil_prefix, fun _ => rfl⟩
    · simp only [Engine.replies]
      cases outcome.reply with
      | none => exact ⟨List.nil_prefix, fun _ => rfl⟩
      | some reply =>
        simp only
        cases sendPkt self.writeBuf reply with
        | error fault => exact ⟨List.nil_prefix, fun hnot => absurd ⟨fault, rfl⟩ hnot⟩
        | ok out => exact ⟨List.prefix_refl _, fun _ => rfl⟩
  exact Turn.takes_single hstate hall.1 hall.2 fun _ => trivial

/-- After a packet the signal is taken, if the poll has reported it. -/
theorem afterPacket_takes (self : Server) (e : Iteration) (outcome : PollOutcome) :
    (self.afterPacket e outcome).Takes self.engine (if outcome = .Both then signals e else []) := by
  unfold afterPacket
  split
  · exact self.checkShutdown_takes e
  · exact Turn.takes_nil self _

/-- Looking for the end of draining takes no event. -/
theorem takes_checkDrained {t : Turn} {engine : Engine ServerApp} {evs : List Engine.Event}
    (h : t.Takes engine evs) : (t.andThen checkDrained).Takes engine evs := by
  by_cases hgoes : t.control = .Continue
  · have hboth := h.andThen hgoes (f := checkDrained) (Turn.takes_nil t.server _)
    rw [List.append_nil] at hboth
    exact hboth
  · exact h.andThen_stop hgoes _

/-- A signal brings no packet. -/
theorem data_signals (e : Iteration) : (signals e).filterMap Engine.Event.data = [] := by
  unfold signals
  split <;> rfl

/-- **The turn of an iteration that reads a packet** takes the packet, and after an exchange that
    goes on the signal that the poll has reported with it. -/
theorem readAndReply_takes (self : Server) {outcome : PollOutcome} {data : List UInt8}
    (hdata : e.read = some data) : ∃ taken,
      taken <+: .packet data e.randomU32 e.handledAt ::
        (if outcome = .Both then signals e else []) ∧
      (self.readAndReply e outcome).Takes self.engine taken ∧
      ((self.readAndReply e outcome).control = .Continue →
        taken = .packet data e.randomU32 e.handledAt ::
          (if outcome = .Both then signals e else [])) ∧
      taken.filterMap Engine.Event.data = [data] := by
  have hturn : self.readAndReply e outcome
      = ((self.exchange e data).andThen fun self => self.afterPacket e outcome).andThen
          checkDrained := by
    simp only [readAndReply, hdata]
  have hfirst := self.exchange_takes e data
  rw [hturn]
  by_cases hgoes : (self.exchange e data).control = .Continue
  · have hsecond := (self.exchange e data).server.afterPacket_takes e outcome
    refine ⟨_, List.prefix_refl _, takes_checkDrained (hfirst.andThen hgoes hsecond), fun _ => rfl,
      ?_⟩
    show data :: _ = [data]
    split
    · exact congrArg _ (data_signals e)
    · rfl
  · refine ⟨_, List.cons_prefix_cons.mpr ⟨rfl, List.nil_prefix⟩,
      takes_checkDrained (hfirst.andThen_stop hgoes _), fun h => ?_, rfl⟩
    exact absurd (Turn.andThen_continue (Turn.andThen_continue h).1).1 hgoes

/-- **Every turn**, in terms of the engine: it takes the events of its iteration, all of them if the
    loop goes on, and in any case the packet that it reads. -/
theorem turn_takes (self : Server) (e : Iteration) : ∃ taken, taken <+: self.events e ∧
    (self.turn e).Takes self.engine taken ∧ (self.GoesOn e → taken = self.events e) ∧
    taken.filterMap Engine.Event.data = (self.readFrom e).toList := by
  -- where nothing is read and nothing swept, only a signal is looked for
  have hcheck : self.turn e = self.checkShutdown e → self.events e = signals e →
      self.readFrom e = none → ∃ taken, taken <+: self.events e ∧
        (self.turn e).Takes self.engine taken ∧ (self.GoesOn e → taken = self.events e) ∧
        taken.filterMap Engine.Event.data = (self.readFrom e).toList := by
    intro hturn hevents hread
    rw [hturn, hevents, hread]
    exact ⟨_, List.prefix_refl _, self.checkShutdown_takes e, fun _ => rfl, data_signals e⟩
  cases hpoll : self.poll e with
  | Interrupted =>
    exact hcheck (by simp only [turn, hpoll]) (by simp [events, readFrom, hpoll])
      (by simp only [readFrom, hpoll])
  | Reported outcome =>
    cases outcome with
    | Shutdown =>
      exact hcheck (by simp only [turn, hpoll]) (by simp [events, readFrom, hpoll])
        (by simp only [readFrom, hpoll])
    | Timeout =>
      have hread : self.readFrom e = none := by simp only [readFrom, hpoll]
      have hevents : self.events e = [.retransmit e.sweptAt e.sweptLate] := by
        simp [events, readFrom, hpoll]
      unfold GoesOn
      rw [hread, hevents]
      simp only [turn, hpoll]
      split
      · exact ⟨[], List.nil_prefix, Turn.takes_nil self _, by simp, rfl⟩
      · exact ⟨_, List.prefix_refl _, self.retransmit_takes e, fun _ => rfl, rfl⟩
    | Readable | Both =>
      cases hdata : e.read with
      | none =>
        -- the read would have blocked
        exact hcheck (by simp only [turn, hpoll, readAndReply, hdata])
          (by simp [events, readFrom, hpoll, hdata]) (by simp only [readFrom, hpoll, hdata])
      | some data =>
        obtain ⟨taken, hpre, htakes, hgoes, hread⟩ := self.readAndReply_takes hdata
        unfold GoesOn
        simp only [turn, events, readFrom, hpoll, hdata]
        exact ⟨taken, by simpa using hpre, htakes, by simpa using hgoes, hread⟩

/-- **Every turn** sends a front part of what the events of its iteration hand over. -/
theorem turn_sent_isPrefix (self : Server) (e : Iteration) :
    (self.turn e).sent.map Transmission.packet
      <+: Mealy.outputs (Engine.act ServerApp.application) (self.events e) self.engine := by
  obtain ⟨taken, hpre, htakes, -⟩ := self.turn_takes e
  exact htakes.sent.trans (Mealy.outputs_isPrefix _ hpre _)

/-- **An iteration that goes on** takes all its events. -/
theorem turn_events (h : self.GoesOn e) : (self.turn e).Takes self.engine (self.events e) := by
  obtain ⟨taken, -, htakes, hall, -⟩ := self.turn_takes e
  exact hall h ▸ htakes

/-! ### The loop and the engine -/

/-- The loop as a machine that answers an iteration by what it puts on the wire. -/
def act (self : Server) (e : Iteration) : List Transmission × Server :=
  ((self.turn e).sent, self.step e)

/-- **The loop refines the engine.** -/
theorem refines_engine : Mealy.Refines act (Engine.act ServerApp.application) GoesOn
    (fun _ => True) engine events (fun t => some t.packet) where
  keeps _ _ _ _ := trivial
  state self e _ h := (turn_events h).state.symm
  outputs self e _ h := by
    rw [← (turn_events h).whole (Turn.not_fails_of_continue h)]
    exact (List.filterMap_eq_map (f := Transmission.packet)).symm ▸ rfl

end Server

/-! ### The loop and the table -/

namespace Server

variable {self : Server} {e : Iteration}

/-- What an iteration comes to for the table. -/
def tableEvents (self : Server) (e : Iteration) : List (HostEvent ServerApp) :=
  Mealy.translate (Engine.act ServerApp.application)
    (fun engine ev => [engine.hostEvent ServerApp.application ev]) (self.events e) self.engine

/-- The segment that an iteration reads, if it reads one. -/
def segmentRead (self : Server) (e : Iteration) : List (TcpSegment .In) :=
  ((self.readFrom e).bind Engine.segmentOf).toList

/-- **The loop refines the table.** -/
theorem refines_table : Mealy.Refines act (Host.act ServerApp.application) GoesOn
    (fun self => True ∧ self.engine.QueuesFit) (Engine.host ∘ engine) tableEvents
    (fun t => t.packet.router.asTcp) :=
  refines_engine.comp (Engine.refines_host ServerApp.application)
    fun _ _ _ hgoes => (turn_events hgoes).succeeds (Turn.not_fails_of_continue hgoes)

/-- A packet is read, or no event brings one. -/
theorem data_events (self : Server) (e : Iteration) :
    (self.events e).filterMap Engine.Event.data = (self.readFrom e).toList := by
  unfold events
  cases self.readFrom e with
  | none =>
    simp only
    split
    · rfl
    · exact data_signals e
  | some data =>
    show data :: _ = [data]
    split
    · exact congrArg _ (data_signals e)
    · rfl

/-- The segment that an iteration reads is the one in the packets of its events. -/
theorem segmentRead_eq {evs : List Engine.Event}
    (h : evs.filterMap Engine.Event.data = (self.readFrom e).toList) :
    (self.engine.hostEvents ServerApp.application evs).filterMap HostEvent.incoming
      = self.segmentRead e := by
  rw [Engine.incoming_hostEvents, h]
  unfold segmentRead
  cases self.readFrom e with
  | none => rfl
  | some data => cases hseg : Engine.segmentOf data <;> simp [hseg]

/-- The table is handed the segment that the iteration reads, and no other. -/
theorem incoming_tableEvents (self : Server) (e : Iteration) :
    (self.tableEvents e).filterMap HostEvent.incoming = self.segmentRead e :=
  segmentRead_eq (self.data_events e)

/-- The events of the table in a run of the loop. -/
def tableRun (self : Server) (es : List Iteration) : List (HostEvent ServerApp) :=
  Mealy.translate act tableEvents es self

/-- The segments that a run of the loop reads from its device, in order. -/
def segmentsRead (self : Server) (es : List Iteration) : List (TcpSegment .In) :=
  Mealy.translate act segmentRead es self

/-- The packets that a run of the loop puts on the wire, in order. -/
def packetsSent (self : Server) (es : List Iteration) : List (Ipv4Packet .Out) :=
  (Mealy.outputs act es self).map Transmission.packet

/-- The table is handed the segments that a run reads, in order. -/
theorem incoming_tableRun (self : Server) (es : List Iteration) :
    (self.tableRun es).filterMap HostEvent.incoming = self.segmentsRead es := by
  unfold tableRun segmentsRead
  induction es generalizing self with
  | nil => rfl
  | cons e es ih =>
    rw [Mealy.translate, Mealy.translate, List.filterMap_append, incoming_tableEvents, ih]

/-! ### The iteration that ends the loop -/

/-- Only the last event of an iteration can fail. -/
theorem succeeds_events (self : Server) (e : Iteration) :
    Runs.Admits (Engine.step ServerApp.application) Engine.Succeeds self.engine
      (self.events e).dropLast := by
  have hsignals : (signals e).dropLast = [] := by
    unfold signals
    split <;> rfl
  unfold events
  cases self.readFrom e with
  | none =>
    simp only
    split
    · trivial
    · rw [hsignals]
      trivial
  | some data =>
    simp only
    split
    · -- the signal that may follow the packet is the last event
      unfold signals
      split
      · exact ⟨trivial, trivial⟩
      · trivial
    · trivial

/-- **Every iteration**, in terms of the table: it takes the table's events, all of them if the loop
    goes on, and only if it fails may segments that the table emits for them not be sent. -/
theorem turn_table (hfit : self.engine.QueuesFit) (e : Iteration) :
    ∃ events, events <+: self.tableEvents e ∧ (self.GoesOn e → events = self.tableEvents e) ∧
      events.foldl (Host.step ServerApp.application) self.engine.host
        = (self.step e).engine.host ∧
      tcpSegments ((self.turn e).sent.map Transmission.packet)
        <+: Mealy.outputs (Host.act ServerApp.application) events self.engine.host ∧
      (¬ (self.turn e).Fails → tcpSegments ((self.turn e).sent.map Transmission.packet)
        = Mealy.outputs (Host.act ServerApp.application) events self.engine.host) ∧
      events.filterMap HostEvent.incoming = self.segmentRead e := by
  obtain ⟨taken, hpre, htakes, hgoes, hdata⟩ := self.turn_takes e
  refine ⟨self.engine.hostEvents ServerApp.application taken,
    Engine.hostEvents_isPrefix _ _ hpre, fun h => ?_, ?_, ?_, fun hnot => ?_, segmentRead_eq hdata⟩
  · rw [hgoes h]
    rfl
  · rw [← Engine.host_foldl]
    refine congrArg Engine.host (Eq.trans ?_ htakes.state.symm)
    rw [Mealy.run_state]
    rfl
  · -- an event before the last one of the iteration has not failed
    have hevents := self.succeeds_events e
    have hok := hevents.of_prefix (Runs.dropLast_isPrefix hpre)
    exact (htakes.sent.filterMap _).trans (Engine.outputs_isPrefix hfit hok)
  · rw [htakes.whole hnot]
    exact ((Engine.refines_host ServerApp.application).run hfit (htakes.succeeds hnot)).2.1.symm

/-- What the last iteration sends comes last. -/
theorem packetsSent_concat (self : Server) (es : List Iteration) (e : Iteration) :
    self.packetsSent (es ++ [e])
      = self.packetsSent es ++ ((es.foldl step self).turn e).sent.map Transmission.packet := by
  unfold packetsSent
  rw [Mealy.outputs_append, Mealy.outputs_cons, Mealy.outputs_nil, List.append_nil,
    List.map_append, Mealy.run_state]
  rfl

/-- So do the events it comes to for the table. -/
theorem tableRun_concat (self : Server) (es : List Iteration) (e : Iteration) :
    self.tableRun (es ++ [e]) = self.tableRun es ++ (es.foldl step self).tableEvents e := by
  unfold tableRun
  rw [Mealy.translate_append, Mealy.translate, Mealy.translate, List.append_nil, Mealy.run_state]
  rfl

/-- And so does the segment it reads. -/
theorem segmentsRead_concat (self : Server) (es : List Iteration) (e : Iteration) :
    self.segmentsRead (es ++ [e])
      = self.segmentsRead es ++ (es.foldl step self).segmentRead e := by
  unfold segmentsRead
  rw [Mealy.translate_append, Mealy.translate, Mealy.translate, List.append_nil, Mealy.run_state]
  rfl

/-- The table of a running server is the one that the table's events lead to. -/
theorem host_foldl {es : List Iteration} (hfit : self.engine.QueuesFit)
    (hrun : Runs.Admits step GoesOn self es) :
    (self.tableRun es).foldl (Host.step ServerApp.application) self.engine.host
      = (es.foldl step self).engine.host := by
  have hstate := (refines_table.run ⟨trivial, hfit⟩ hrun).1
  rw [Mealy.run_state, Mealy.run_state] at hstate
  exact hstate

/-- A running server keeps what is pending small enough. -/
theorem queuesFit_foldl {es : List Iteration} (hfit : self.engine.QueuesFit)
    (hrun : Runs.Admits step GoesOn self es) : (es.foldl step self).engine.QueuesFit := by
  have hkept := (refines_table.run ⟨trivial, hfit⟩ hrun).2.2.2
  rw [Mealy.run_state] at hkept
  exact hkept

/-- The TCP segments on the wire are those that the table emits. -/
theorem tcpSegments_packetsSent {es : List Iteration} (hfit : self.engine.QueuesFit)
    (hrun : Runs.Admits step GoesOn self es) :
    tcpSegments (self.packetsSent es)
      = Mealy.outputs (Host.act ServerApp.application) (self.tableRun es) self.engine.host := by
  have hout := (refines_table.run ⟨trivial, hfit⟩ hrun).2.1
  unfold tcpSegments packetsSent
  rw [List.filterMap_map]
  exact hout.symm

end Server

/-- **A run of the loop is a run of the table**, with the last iteration, even if that one ends the
    loop.  The table is handed exactly the TCP segments that the loop reads, in order, among its own
    sweeps; it ends as the table of the loop; and the TCP segments that the loop puts on the wire,
    replies, retransmissions and FINs, are exactly those that the table emits, in order.  If the last
    iteration fails, they are a front part of those. -/
theorem loop_refines_table (app : ServerApp) (initialRto : Duration) (maxRetries : UInt8)
    (gracePeriod : Duration) (es : List Iteration)
    (hrun : Runs.Admits Server.step Server.GoesOn
      (Server.new app initialRto maxRetries gracePeriod) es) (e : Iteration) (server : Server)
    (hserver : es.foldl Server.step (Server.new app initialRto maxRetries gracePeriod) = server) :
    ∃ events, events <+: server.tableEvents e ∧
      (server.GoesOn e → events = server.tableEvents e) ∧
      ((Server.new app initialRto maxRetries gracePeriod).tableRun es ++ events).foldl
          (Host.step ServerApp.application) (Host.new app initialRto maxRetries)
        = (server.step e).engine.host ∧
      tcpSegments ((Server.new app initialRto maxRetries gracePeriod).packetsSent (es ++ [e]))
        <+: Mealy.outputs (Host.act ServerApp.application)
          ((Server.new app initialRto maxRetries gracePeriod).tableRun es ++ events)
          (Host.new app initialRto maxRetries) ∧
      (¬ (server.turn e).Fails →
        tcpSegments ((Server.new app initialRto maxRetries gracePeriod).packetsSent (es ++ [e]))
          = Mealy.outputs (Host.act ServerApp.application)
            ((Server.new app initialRto maxRetries gracePeriod).tableRun es ++ events)
            (Host.new app initialRto maxRetries)) ∧
      ((Server.new app initialRto maxRetries gracePeriod).tableRun es ++ events).filterMap
          HostEvent.incoming
        = (Server.new app initialRto maxRetries gracePeriod).segmentsRead (es ++ [e]) := by
  have hnew := Engine.queuesFit_new app initialRto maxRetries gracePeriod
  have hstate := Server.host_foldl hnew hrun
  have hfit := Server.queuesFit_foldl hnew hrun
  have hout := Server.tcpSegments_packetsSent hnew hrun
  subst hserver
  obtain ⟨events, hpre, hgoes, hlast, hsent, hwhole, hread⟩ := Server.turn_table hfit e
  -- the table goes on from where the iterations before the last one have led it
  have hlater : Mealy.outputs (Host.act ServerApp.application)
      ((Server.new app initialRto maxRetries gracePeriod).tableRun es ++ events)
      (Host.new app initialRto maxRetries)
    = tcpSegments ((Server.new app initialRto maxRetries gracePeriod).packetsSent es) ++
      Mealy.outputs (Host.act ServerApp.application) events
        (es.foldl Server.step (Server.new app initialRto maxRetries gracePeriod)).engine.host := by
    rw [Mealy.outputs_append, hout, Mealy.run_state]
    exact congrArg (fun h => _ ++ Mealy.outputs _ events h) hstate
  refine ⟨events, hpre, hgoes, ?_, ?_, fun hnot => ?_, ?_⟩
  · rw [List.foldl_append]
    exact (congrArg (events.foldl _) hstate).trans hlast
  · rw [hlater, Server.packetsSent_concat, tcpSegments_append]
    exact (List.prefix_append_right_inj _).mpr hsent
  · rw [hlater, Server.packetsSent_concat, tcpSegments_append, hwhole hnot]
  · rw [List.filterMap_append, Server.incoming_tableRun, hread, Server.segmentsRead_concat]

/-- A handshake and a shutdown: two segments are read, and a SYN-ACK and a FIN go out. -/
theorem loop_refines_table_shutdown :
    (ECHO_SERVER.segmentsRead [SYN_ITERATION, ACK_ITERATION, SHUTDOWN_ITERATION]).length = 2 ∧
    (Mealy.outputs (Host.act ServerApp.application)
        (ECHO_SERVER.tableRun [SYN_ITERATION, ACK_ITERATION, SHUTDOWN_ITERATION])
        (Host.new .Echo 1000000000 3)).map (·.flags) = [.SynAck, .FinAck] := by
  obtain ⟨hsyn, hack, hshutdown, -⟩ := drainingServer_run
  obtain ⟨events, -, hgoes, -, -, hout, -⟩ := loop_refines_table .Echo 1000000000 3 0
    [SYN_ITERATION, ACK_ITERATION] ⟨hsyn, hack, trivial⟩ SHUTDOWN_ITERATION _ rfl
  have hwhole := hout (Turn.not_fails_of_continue hshutdown)
  rw [hgoes hshutdown, ← Server.tableRun_concat] at hwhole
  have hsent : (tcpSegments (ECHO_SERVER.packetsSent
      ([SYN_ITERATION, ACK_ITERATION] ++ [SHUTDOWN_ITERATION]))).map (·.flags)
        = [.SynAck, .FinAck] := by
    decide +kernel
  refine ⟨by decide +kernel, ?_⟩
  show (Mealy.outputs _ (ECHO_SERVER.tableRun
    ([SYN_ITERATION, ACK_ITERATION] ++ [SHUTDOWN_ITERATION])) _).map _ = _
  unfold ECHO_SERVER at hsent ⊢
  rw [← hwhole]
  exact hsent

end Typenet

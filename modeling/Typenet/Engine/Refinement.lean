import Typenet.Lib.Refinement
import Typenet.Engine.Shutdown
import Typenet.Server.Sending
import Typenet.Table.Solicited

namespace Typenet

/-!
# The engine and the table

An engine hands packets over to be sent, and those that carry segments are what its table emits: an
event of the engine is one event of its host.

* `Engine.refines_host` — every event that does not fail hands over the segments that the host
  emits for it;
* `Engine.outputs_isPrefix` — a signal that fails hands over none of them.
-/

variable {σ : Type} {A : Application σ}

/-! ### Packets and events -/

/-- The packets among some results. -/
def createdPackets (items : List (TraceableResult (Ipv4Packet .Out))) : List (Ipv4Packet .Out) :=
  items.filterMap Except.toOption

/-- The segments among some packets. -/
def tcpSegments (packets : List (Ipv4Packet .Out)) : List (TcpSegment .Out) :=
  packets.filterMap fun packet => packet.router.asTcp

/-- Segments are read off one list after the other. -/
theorem tcpSegments_append (packets packets' : List (Ipv4Packet .Out)) :
    tcpSegments (packets ++ packets') = tcpSegments packets ++ tcpSegments packets' :=
  List.filterMap_append

/-- Segments that all fit a packet are those of the packets made from them. -/
theorem tcpSegments_created {segs : List (TcpSegment .Out)}
    (h : ∀ seg ∈ segs, ∃ packet, Ipv4Packet.tryFrom seg = .ok packet) :
    tcpSegments (createdPackets (segs.map Ipv4Packet.tryFrom)) = segs := by
  induction segs with
  | nil => rfl
  | cons seg segs ih =>
    obtain ⟨packet, hpacket⟩ := h seg List.mem_cons_self
    have hrest := ih fun seg hseg => h seg (List.mem_cons_of_mem _ hseg)
    unfold tcpSegments createdPackets at hrest ⊢
    rw [List.map_cons, hpacket, List.filterMap_cons]
    simp only [Except.toOption]
    rw [List.filterMap_cons, (Ipv4Packet.tryFromRouter_eq_ok hpacket).1, hrest]
    rfl

namespace Engine

/-- The reply among the outcome of a packet. -/
def replies : Res PacketOutcome → List (Ipv4Packet .Out)
  | .ok outcome => outcome.reply.toList
  | .error _ => []

/-- The FINs among the outcome of a signal. -/
def fins : TraceableResult ShutdownOutcome → List (Ipv4Packet .Out)
  | .ok (.BeganDraining toSend) => toSend
  | .ok (.AlreadyDraining _) | .ok .NoConnections | .error _ => []

/-- The packets that an event hands over to be sent. -/
def handedOver (A : Application σ) (self : Engine σ) : Event → List (Ipv4Packet .Out)
  | .packet data randomU32 now => replies (self.handlePacket A data randomU32 now).1
  | .retransmit now late => createdPackets (self.makeRetransmissions now late).1
  | .shutdown now sentAt => fins (self.handleShutdown now sentAt).1

/-- An engine as a machine that answers an event by the packets it hands over. -/
def act (A : Application σ) (self : Engine σ) (ev : Event) : List (Ipv4Packet .Out) × Engine σ :=
  (self.handedOver A ev, self.step A ev)

/-- What an event of the engine is to its host: a packet that carries no segment only concerns the
    application, and so does a signal once draining has begun. -/
def hostEvent (A : Application σ) (self : Engine σ) : Event → HostEvent σ
  | .packet data randomU32 now =>
    match segmentOf data with
    | some seg => .segment seg randomU32 now
    | none => .elsewhere (self.handlePacket A data randomU32 now).2.app
  | .retransmit now late => .retransmit now late
  | .shutdown _ sentAt =>
    match self.shutdownDeadline with
    | some _ => .elsewhere self.app
    | none => .close (fun seg => (Ipv4Packet.tryFrom seg).map fun _ => ()) sentAt

/-- The event does not end the loop: only a signal can fail. -/
def Succeeds (self : Engine σ) : Event → Prop
  | .packet _ _ _ | .retransmit _ _ => True
  | .shutdown now sentAt => ∀ e, (self.handleShutdown now sentAt).1 ≠ .error e

/-- All that any connection has pending fits a packet. -/
def QueuesFit (self : Engine σ) : Prop :=
  ∀ key conn, self.tcpConnections.get key = some conn → PendingFits conn

/-- A packet that carries a segment. -/
theorem parse_of_segmentOf {data : List UInt8} {seg : TcpSegment .In}
    (h : segmentOf data = some seg) : ∃ hdr, Ipv4Packet.parse data = .ok ⟨hdr, .Tcp seg⟩ := by
  unfold segmentOf at h
  split at h
  case h_1 hdr seg' hparse =>
    obtain rfl := Option.some.inj h
    exact ⟨hdr, hparse⟩
  case h_2 => cases h

/-- A packet that carries a segment brings it to the host. -/
theorem hostEvent_segment (A : Application σ) (self : Engine σ) {data : List UInt8}
    {seg : TcpSegment .In} (h : segmentOf data = some seg) (randomU32 : TraceableResult UInt32)
    (now : Instant) :
    self.hostEvent A (.packet data randomU32 now) = .segment seg randomU32 now := by
  simp only [hostEvent, h]

/-- Any other packet only concerns the application. -/
theorem hostEvent_elsewhere (A : Application σ) (self : Engine σ) {data : List UInt8}
    (h : segmentOf data = none) (randomU32 : TraceableResult UInt32) (now : Instant) :
    self.hostEvent A (.packet data randomU32 now)
      = .elsewhere (self.handlePacket A data randomU32 now).2.app := by
  simp only [hostEvent, h]

/-- **The host after an event of the engine.** -/
theorem host_step_eq (A : Application σ) (self : Engine σ) (ev : Event) :
    (self.step A ev).host = self.host.step A (self.hostEvent A ev) := by
  cases ev with
  | packet data randomU32 now =>
    have htable := self.handlePacket_table A data randomU32 now
    cases hseg : segmentOf data with
    | none =>
      rw [hseg] at htable
      rw [self.hostEvent_elsewhere A hseg]
      exact congrArg (Host.mk _) htable
    | some seg =>
      obtain ⟨hdr, hparse⟩ := parse_of_segmentOf hseg
      rw [self.hostEvent_segment A hseg]
      show (self.handlePacket A data randomU32 now).2.host = _
      rw [handlePacket_parsed A self randomU32 now hparse,
        Ipv4Packet.createReply_tcp A _ _ _ _ rfl]
      rfl
  | retransmit now late => rfl
  | shutdown now sentAt =>
    show (self.handleShutdown now sentAt).2.host = _
    unfold hostEvent handleShutdown
    cases self.shutdownDeadline with
    | some deadline => rfl
    | none =>
      -- what is done with the FINs matters to the table only by where it fails
      have htable : (self.host.step A (.close
          (fun seg => (Ipv4Packet.tryFrom seg).map fun _ => ()) sentAt)).connections
          = (self.tcpConnections.closeEstablished Ipv4Packet.tryFrom sentAt).1 :=
        TcpConnections.closeKeys_table _ _ _ _
      simp only
      rcases hclose : self.tcpConnections.closeEstablished Ipv4Packet.tryFrom sentAt with ⟨t, r⟩
      rw [hclose] at htable
      cases r with
      | error e => exact congrArg (Host.mk self.app) htable.symm
      | ok toSend =>
        simp only
        split
        · split <;> exact congrArg (Host.mk self.app) htable.symm
        · exact congrArg (Host.mk self.app) htable.symm

/-- An event keeps what is pending small enough. -/
theorem QueuesFit.step {self : Engine σ} (h : self.QueuesFit) (A : Application σ) (ev : Event) :
    (self.step A ev).QueuesFit := by
  intro key conn' hconn'
  have hget : (self.host.step A (self.hostEvent A ev)).get key = some conn' := by
    rw [← self.host_step_eq A ev]
    exact hconn'
  cases (self.host.step_get (self.hostEvent A ev) key).2 conn' hget with
  | unchanged hsame => exact h key conn' hsame
  | stepped hold _ hstep => exact (h key _ hold).step hstep
  | opened _ heq =>
    rw [heq]
    exact pendingFits_opened _ _ _

/-- Nothing is pending in a new engine. -/
theorem queuesFit_new (app : σ) (initialRto : Duration) (maxRetries : UInt8) (grace : Duration) :
    (new app initialRto maxRetries grace).QueuesFit := by
  intro key conn h
  cases h

/-! ### What an event hands over -/

/-- The segment of a message that a packet can be made around. -/
theorem tcpSegments_tryFromRouter {router : ProtocolRouter .Out} (h : router.asTcp = none) :
    tcpSegments (outSegments ((Ipv4Packet.tryFromRouter router).map some)) = [] := by
  cases hpacket : Ipv4Packet.tryFromRouter router with
  | error e => rfl
  | ok packet =>
    show [packet].filterMap _ = []
    rw [List.filterMap_cons, (Ipv4Packet.tryFromRouter_eq_ok hpacket).1, h]
    rfl

/-- The packet around a segment that fits carries that segment. -/
theorem tcpSegments_ofReply {result : TraceableResult (Option (TcpSegment .Out))}
    (h : ∀ reply, result = .ok (some reply) → TcpPayload.lenOrDefault reply.payload ≤ 1460) :
    tcpSegments (outSegments (result.bind Ipv4Packet.ofReply)) = outSegments result := by
  rcases result with e | _ | reply
  · rfl
  · rfl
  · obtain ⟨packet, hpacket, -⟩ := Ipv4Packet.tryFrom_sendable (h reply rfl)
    have hall : ∀ seg ∈ [reply], ∃ packet, Ipv4Packet.tryFrom seg = .ok packet := by
      rintro seg hseg
      rw [List.mem_singleton.mp hseg]
      exact ⟨packet, hpacket⟩
    have hcreated := tcpSegments_created hall
    have hrouter : Ipv4Packet.tryFromRouter (.Tcp reply) = .ok packet := hpacket
    rw [List.map_singleton, hpacket] at hcreated
    show tcpSegments (outSegments (Ipv4Packet.ofReply (some reply))) = [reply]
    rw [Ipv4Packet.ofReply, hrouter]
    exact hcreated

/-- What a packet hands over is the reply to it. -/
theorem handedOver_parsed (self : Engine σ) {data : List UInt8} {packet : Ipv4Packet .In}
    (randomU32 : TraceableResult UInt32) (now : Instant) (h : Ipv4Packet.parse data = .ok packet) :
    self.handedOver A (.packet data randomU32 now)
      = outSegments (packet.createReply A self.app self.tcpConnections randomU32 now).1 := by
  show replies (self.handlePacket A data randomU32 now).1 = _
  rw [handlePacket_parsed A self randomU32 now h]
  cases (packet.createReply A self.app self.tcpConnections randomU32 now).1 <;> rfl

/-- **A packet** hands over the segment that the table emits for it, if it carries one. -/
theorem tcpSegments_packet (self : Engine σ) (data : List UInt8)
    (randomU32 : TraceableResult UInt32) (now : Instant) :
    tcpSegments (self.handedOver A (.packet data randomU32 now))
      = self.host.emitted A (self.hostEvent A (.packet data randomU32 now)) := by
  cases hparse : Ipv4Packet.parse data with
  | error fault =>
    obtain ⟨fault', hskip⟩ := handlePacket_skipped A self randomU32 now hparse
    have hseg : segmentOf data = none := by simp only [segmentOf, hparse]
    rw [self.hostEvent_elsewhere A hseg]
    show tcpSegments (replies (self.handlePacket A data randomU32 now).1) = []
    rw [hskip]
    rfl
  | ok packet =>
    rw [self.handedOver_parsed randomU32 now hparse]
    obtain ⟨hdr, router⟩ := packet
    cases router with
    | Icmp msg =>
      rw [self.hostEvent_elsewhere A (by simp only [segmentOf, hparse])]
      exact tcpSegments_tryFromRouter rfl
    | Udp dgram =>
      rw [self.hostEvent_elsewhere A (by simp only [segmentOf, hparse])]
      exact tcpSegments_tryFromRouter rfl
    | Tcp seg =>
      have hseg : segmentOf data = some seg := by simp only [segmentOf, hparse]
      rw [self.hostEvent_segment A hseg, Ipv4Packet.createReply_tcp A _ _ _ _ rfl]
      exact tcpSegments_ofReply fun _ => TcpConnections.createReply_payload

/-- **A sweep** hands over a packet for each segment that the table sends again. -/
theorem tcpSegments_retransmit {self : Engine σ} (h : self.QueuesFit) (now late : Instant) :
    tcpSegments (self.handedOver A (.retransmit now late))
      = self.host.emitted A (.retransmit now late) := by
  apply tcpSegments_created
  intro seg hseg
  obtain ⟨key, conn, p, hget, hp, rfl⟩ := TcpConnections.mem_makeRetransmissions hseg
  have hfits : TcpPayload.lenOrDefault (key.outgoing p.sendInfo).payload ≤ 1460 :=
    h key conn hget p hp
  obtain ⟨packet, hpacket, -⟩ := Ipv4Packet.tryFrom_sendable hfits
  exact ⟨packet, hpacket⟩

/-- The closing sweep emits the segments of the packets it hands over. -/
theorem emitted_close {self : Engine σ} {sentAt : Instant} {t : TcpConnections}
    {toSend : List (Ipv4Packet .Out)}
    (h : self.tcpConnections.closeEstablished Ipv4Packet.tryFrom sentAt = (t, .ok toSend)) :
    self.host.emitted A (.close (fun seg => (Ipv4Packet.tryFrom seg).map fun _ => ()) sentAt)
      = tcpSegments toSend := by
  obtain ⟨list, hok, hall⟩ := TcpConnections.closeKeys_of_ok (congrArg Prod.snd h)
  have hlist : tcpSegments toSend = list := (TcpConnections.segments_of_tryFrom hall).2
  unfold Host.emitted
  simp only
  cases hitems : (self.tcpConnections.closeEstablished (fun seg =>
      ((Ipv4Packet.tryFrom seg).map fun _ => ()).map fun _ => seg) sentAt).2 with
  | error e =>
    -- every FIN fits a packet
    have hfits : ∀ (key : ConnKey) (info : SendInfo), info.payload = none →
        ∃ item, (((Ipv4Packet.tryFrom (key.outgoing info)).map fun _ => ()).map
          fun _ => key.outgoing info) = .ok item := by
      intro key info hinfo
      obtain ⟨packet, hpacket⟩ := TcpConnections.exists_finAck_packet key hinfo
      exact ⟨key.outgoing info, by rw [hpacket]; rfl⟩
    obtain ⟨items, hitems'⟩ := @TcpConnections.closeKeys_ok _ (fun seg =>
      ((Ipv4Packet.tryFrom seg).map fun _ => ()).map fun _ => seg) hfits sentAt
      self.tcpConnections.table.keys self.tcpConnections
    cases hitems.symm.trans hitems'
  | ok items =>
    obtain ⟨list', hok', hall'⟩ := TcpConnections.closeKeys_of_ok hitems
    have hsame : list' = list := Except.ok.inj (congrArg Prod.snd (hok'.symm.trans hok))
    have hitem : list' = items := by
      rw [← List.forall₂_eq_eq_eq]
      refine hall'.imp fun seg item hitem => ?_
      cases hseg : Ipv4Packet.tryFrom seg with
      | error e => rw [hseg] at hitem; cases hitem
      | ok packet => rw [hseg] at hitem; exact Except.ok.inj hitem
    have hhost : (self.host.connections.closeEstablished (fun seg =>
      ((Ipv4Packet.tryFrom seg).map fun _ => ()).map fun _ => seg) sentAt).2 = .ok items := hitems
    rw [hhost, hlist, ← hsame, hitem]

/-- A signal that begins draining hands over what comes of the closing sweep. -/
theorem handleShutdown_began {self : Engine σ} {now sentAt : Instant}
    {toSend : List (Ipv4Packet .Out)}
    (h : (self.handleShutdown now sentAt).1 = .ok (.BeganDraining toSend)) :
    ∃ t, self.tcpConnections.closeEstablished Ipv4Packet.tryFrom sentAt = (t, .ok toSend) := by
  unfold handleShutdown at h
  split at h
  · cases h
  · rcases hclose : self.tcpConnections.closeEstablished Ipv4Packet.tryFrom sentAt with ⟨t, e | sent⟩
    · rw [hclose] at h
      cases h
    · rw [hclose] at h
      simp only at h
      split at h
      · split at h
        · cases h
        · rw [ShutdownOutcome.BeganDraining.inj (Except.ok.inj h)]
          exact ⟨t, rfl⟩
      · cases h

/-- **A signal** that does not fail hands over the FINs of the closing sweep, if it is the first. -/
theorem tcpSegments_shutdown {self : Engine σ} {now sentAt : Instant}
    (h : self.Succeeds (.shutdown now sentAt)) :
    tcpSegments (self.handedOver A (.shutdown now sentAt))
      = self.host.emitted A (self.hostEvent A (.shutdown now sentAt)) := by
  show tcpSegments (fins (self.handleShutdown now sentAt).1) = _
  cases hdeadline : self.shutdownDeadline with
  | some deadline =>
    simp only [hostEvent, handleShutdown, hdeadline]
    rfl
  | none =>
    obtain ⟨toSend, hok⟩ := TcpConnections.closeKeys_ok
      (fun key info => TcpConnections.exists_finAck_packet key) sentAt
      self.tcpConnections.table.keys self.tcpConnections
    obtain ⟨t, hclose⟩ : ∃ t, self.tcpConnections.closeEstablished Ipv4Packet.tryFrom sentAt
        = (t, .ok toSend) := ⟨_, Prod.ext rfl hok⟩
    simp only [hostEvent, hdeadline]
    rw [emitted_close hclose]
    apply congrArg tcpSegments
    obtain ⟨after, toSend', hcloses, -, hout⟩ := handleShutdown_first hdeadline now sentAt
    rcases hout with ⟨hclosing, hout⟩ | ⟨-, -, hout⟩ | ⟨-, -, e, hout⟩
    · -- nothing is mid-close, so nothing was in ESTABLISHED
      have hno : ¬ self.tcpConnections.AnyEstablished := fun hany => by
        rw [(hcloses.of_established hany).2] at hclosing
        cases hclosing
      have hidle := TcpConnections.closeKeys_idle Ipv4Packet.tryFrom sentAt
        self.tcpConnections.table.keys hno
      rw [hout]
      exact (Except.ok.inj (hok.symm.trans (congrArg Prod.snd hidle))).symm
    · obtain ⟨t', hclose'⟩ := handleShutdown_began (congrArg Prod.fst hout)
      rw [hout]
      exact Except.ok.inj (congrArg Prod.snd (hclose'.symm.trans hclose))
    · exact absurd (congrArg Prod.fst hout) (h e)

/-- **The engine refines its host.** -/
theorem refines_host (A : Application σ) : Mealy.Refines (act A) (Host.act A) Succeeds QueuesFit host
    (fun self ev => [self.hostEvent A ev]) (fun packet => packet.router.asTcp) where
  keeps self ev h _ := h.step A ev
  state self ev _ _ := (self.host_step_eq A ev).symm
  outputs self ev h hok := by
    rw [Mealy.outputs_cons, Mealy.outputs_nil, List.append_nil]
    symm
    cases ev with
    | packet data randomU32 now => exact self.tcpSegments_packet data randomU32 now
    | retransmit now late => exact tcpSegments_retransmit (A := A) h now late
    | shutdown now sentAt => exact tcpSegments_shutdown hok

/-! ### Runs of the engine -/

/-- The events of the host that a run of the engine comes to. -/
def hostEvents (A : Application σ) (self : Engine σ) (evs : List Event) : List (HostEvent σ) :=
  Mealy.translate (act A) (fun self ev => [self.hostEvent A ev]) evs self

/-- The host of an engine is the one that the host's events lead to. -/
theorem host_foldl (A : Application σ) (self : Engine σ) (evs : List Event) :
    (evs.foldl (step A) self).host = (self.hostEvents A evs).foldl (Host.step A) self.host := by
  induction evs generalizing self with
  | nil => rfl
  | cons ev evs ih =>
    rw [List.foldl_cons, ih, host_step_eq]
    rfl

/-- A front part of a run of the engine is a front part of the host's. -/
theorem hostEvents_isPrefix (A : Application σ) (self : Engine σ) {evs evs' : List Event}
    (h : evs <+: evs') : self.hostEvents A evs <+: self.hostEvents A evs' :=
  Mealy.translate_isPrefix _ _ h self

/-- The bytes of a packet that an event brings. -/
def Event.data : Event → Option (List UInt8)
  | .packet data _ _ => some data
  | .retransmit _ _ | .shutdown _ _ => none

/-- The segment that an event brings to the host is the one in its packet. -/
theorem incoming_hostEvent (A : Application σ) (self : Engine σ) (ev : Event) :
    (self.hostEvent A ev).incoming = ev.data.bind segmentOf := by
  cases ev with
  | packet data randomU32 now =>
    cases hseg : segmentOf data with
    | none => rw [self.hostEvent_elsewhere A hseg]; exact hseg.symm
    | some seg => rw [self.hostEvent_segment A hseg]; exact hseg.symm
  | retransmit now late => rfl
  | shutdown now sentAt =>
    unfold hostEvent
    simp only
    split <;> rfl

/-- The host is handed the segments of the packets that come, and no others. -/
theorem incoming_hostEvents (A : Application σ) (self : Engine σ) (evs : List Event) :
    (self.hostEvents A evs).filterMap HostEvent.incoming
      = (evs.filterMap Event.data).filterMap segmentOf := by
  induction evs generalizing self with
  | nil => rfl
  | cons ev evs ih =>
    show (self.hostEvent A ev :: (self.step A ev).hostEvents A evs).filterMap _ = _
    rw [List.filterMap_cons, List.filterMap_cons, self.incoming_hostEvent A ev, ih]
    cases ev.data with
    | none => rfl
    | some data => rw [Option.bind_some, List.filterMap_cons]

/-- What an event hands over begins what the host emits for it. -/
theorem handedOver_isPrefix {self : Engine σ} (h : self.QueuesFit) (ev : Event) :
    tcpSegments (self.handedOver A ev) <+: self.host.emitted A (self.hostEvent A ev) := by
  cases ev with
  | packet data randomU32 now => rw [self.tcpSegments_packet]
  | retransmit now late =>
    rw [tcpSegments_retransmit h]
    exact List.prefix_refl _
  | shutdown now sentAt =>
    show tcpSegments (fins (self.handleShutdown now sentAt).1) <+: _
    rcases hres : (self.handleShutdown now sentAt).1 with e | outcome
    · -- its FINs are dropped with the error
      exact List.nil_prefix
    · have hok : self.Succeeds (.shutdown now sentAt) := fun e he => by
        rw [hres] at he
        cases he
      rw [← tcpSegments_shutdown hok, ← hres]
      exact List.prefix_refl _

/-- **Only the last event fails**: what is handed over begins what the host emits. -/
theorem outputs_isPrefix {self : Engine σ} (h : self.QueuesFit) {evs : List Event}
    (hok : Runs.Admits (step A) Succeeds self evs.dropLast) :
    tcpSegments (Mealy.outputs (act A) evs self)
      <+: Mealy.outputs (Host.act A) (self.hostEvents A evs) self.host := by
  refine (refines_host A).isPrefix (fun self ev h => ?_) h hok
  rw [Mealy.outputs_cons, Mealy.outputs_nil, List.append_nil]
  exact handedOver_isPrefix h ev

end Engine

end Typenet

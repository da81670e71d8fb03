import Typenet.Connection.Lifecycle
import Typenet.Server.Loop
import Typenet.Server.ReplySize
import Typenet.Table.Calls

namespace Typenet

/-!
# What the loop can always send

What the stack sends on its own account, a retransmission or a FIN, carries at most the payload
of one packet, and a running server has a whole write buffer.  So nothing it sends fails but the
reply to an oversized message: `Server.retransmit_continue` and `Server.exchange_continue_iff`.
-/

variable {σ : Type} {A : Application σ} {rto : RtoConfig} {maxRetries : UInt8} {app : σ}
  {conn conn' : ConnState} {ev : ConnEvent}

/-! ### What is pending fits a packet -/

/-- A step sends at most the payload of one packet at a time. -/
theorem StepMove.sent_payload {out : Stepped σ} (h : StepMove A app conn ev out conn') :
    ∀ info ∈ out.sent, TcpPayload.lenOrDefault info.payload ≤ 1460 := by
  cases h with
  | segment hfeed hsend hrecv =>
    intro info hinfo
    exact hsend.payload_le info (Option.mem_toList.mp hinfo)
  | retransmit => exact fun info hinfo => absurd hinfo List.not_mem_nil
  | close hst hinfo =>
    intro info hmem
    rw [List.mem_singleton.mp hmem, hinfo]
    exact Nat.zero_le _
  | closeIdle => exact fun info hinfo => absurd hinfo List.not_mem_nil

/-- Every pending segment fits a packet. -/
def PendingFits (conn : ConnState) : Prop :=
  ∀ p ∈ conn.pending, TcpPayload.lenOrDefault p.sendInfo.payload ≤ 1460

/-- The SYN-ACK of an opened connection fits a packet. -/
theorem pendingFits_opened (iss : SeqPoint .Out) (irs : SeqPoint .In) (now : Instant) :
    PendingFits (ConnState.opened iss irs now) := by
  intro p hp
  rw [List.mem_singleton.mp hp]
  exact Nat.zero_le _

/-- A step keeps what is pending small enough. -/
theorem PendingFits.step (h : PendingFits conn)
    (hs : (conn.step A rto maxRetries app ev).conn = some conn') : PendingFits conn' := by
  have hmove := ConnState.step_move hs
  have hsent := hmove.sent_payload
  intro p hp
  -- what is pending was pending, or has just been sent
  have hold : ∀ q ∈ conn.pending, q.sendInfo ∈ conn.pending.map (·.sendInfo) :=
    fun q hq => List.mem_map_of_mem hq
  rcases List.mem_append.mp (hmove.pending_sent hold p hp) with hold | hnew
  · obtain ⟨q, hq, heq⟩ := List.mem_map.mp hold
    rw [← heq]
    exact h q hq
  · exact hsent _ hnew

/-- What the sweep sends again was pending. -/
theorem TcpConnections.mem_makeRetransmissions {self : TcpConnections} {now late : Instant}
    {seg : TcpSegment .Out} (h : seg ∈ (self.makeRetransmissions now late).2) :
    ∃ key conn p, self.get key = some conn ∧ p ∈ conn.pending ∧
      seg = key.outgoing p.sendInfo := by
  obtain ⟨-, -, hsegs⟩ := self.makeRetransmissions_get now late (ConnKey.ofOutgoing seg)
  have hown : seg ∈ segmentsOf (ConnKey.ofOutgoing seg) (self.makeRetransmissions now late).2 :=
    List.mem_filter.mpr ⟨h, by simp⟩
  rw [hsegs] at hown
  generalize ConnKey.ofOutgoing seg = key at hown
  obtain ⟨info, hinfo, rfl⟩ := List.mem_map.mp hown
  unfold resentFor at hinfo
  cases hget : self.get key with
  | none => rw [hget] at hinfo; cases hinfo
  | some conn =>
    rw [hget, Option.bind_some] at hinfo
    rcases conn.retransmit_cases self.rtoConfig self.maxRetries now late with hno |
      ⟨f, resent, hsome, -, hres⟩
    · rw [hno] at hinfo; cases hinfo
    · rw [hsome] at hinfo
      obtain ⟨p, hp, rfl⟩ := hres info hinfo
      exact ⟨key, conn, p, hget, hp, rfl⟩

/-! ### Sending -/

/-- A segment that fits can be sent. -/
theorem Ipv4Packet.tryFrom_sendable {seg : TcpSegment .Out}
    (h : TcpPayload.lenOrDefault seg.payload ≤ 1460) :
    ∃ packet, Ipv4Packet.tryFrom seg = .ok packet ∧ packet.Sendable := by
  have hsize : (ProtocolRouter.Tcp seg).size ≤ 1480 := by
    show 20 + TcpPayload.lenOrDefault seg.payload ≤ 1480
    omega
  have hlt : 20 + (ProtocolRouter.Tcp seg).size < 2 ^ 16 := by omega
  obtain ⟨packet, hpacket⟩ := Ipv4Packet.tryFromRouter_ok hlt
  exact ⟨packet, hpacket, (Ipv4Packet.sendable_iff hpacket).mpr hsize⟩

namespace Server

/-- Sending leaves a whole write buffer behind. -/
theorem sendPkt_length {buf buf' bytes : List UInt8} {packet : Ipv4Packet .Out}
    (hbuf : buf.length = ETHERNET_MTU) (h : sendPkt buf packet = .ok (buf', bytes)) :
    buf'.length = ETHERNET_MTU := by
  obtain ⟨writeBuf, hw, hrest⟩ := Res.bind_eq_ok.mp h
  obtain ⟨bytes', -, heq⟩ := Res.bind_eq_ok.mp hrest
  obtain ⟨rfl, -⟩ := Prod.mk.inj (Except.ok.inj heq)
  obtain ⟨b, hb, hlen⟩ := Ipv4Packet.yields_writeInto (Ipv4Packet.fits_of_writeInto hbuf hw) hbuf
  rw [← Except.ok.inj (hb.symm.trans hw)]
  exact hlen

end Server

/-- Packets that can be sent are all sent. -/
theorem sendEach_sendable (retransmission : Bool)
    {items : List (TraceableResult (Ipv4Packet .Out))} {writeBuf : List UInt8}
    (hbuf : writeBuf.length = ETHERNET_MTU)
    (hitems : ∀ item ∈ items, ∃ packet, item = .ok packet ∧ packet.Sendable) :
    ∃ sent buf, sendEach retransmission items writeBuf = (sent, .ok buf) := by
  induction items generalizing writeBuf with
  | nil => exact ⟨[], writeBuf, rfl⟩
  | cons item rest ih =>
    obtain ⟨packet, rfl, hpacket⟩ := hitems item List.mem_cons_self
    obtain ⟨⟨buf, bytes⟩, hsend, -⟩ := hpacket.sends writeBuf hbuf
    obtain ⟨sent, buf', hrest⟩ := ih (Server.sendPkt_length hbuf hsend)
      fun item hitem => hitems item (List.mem_cons_of_mem _ hitem)
    unfold sendEach
    rw [hsend]
    simp only [hrest]
    exact ⟨_, _, rfl⟩

/-- Sending packets leaves a whole write buffer behind. -/
theorem sendEach_length {retransmission : Bool}
    {items : List (TraceableResult (Ipv4Packet .Out))} {writeBuf buf : List UInt8}
    {sent : List Transmission} (hbuf : writeBuf.length = ETHERNET_MTU)
    (h : sendEach retransmission items writeBuf = (sent, .ok buf)) :
    buf.length = ETHERNET_MTU := by
  induction items generalizing writeBuf sent with
  | nil =>
    obtain ⟨-, hok⟩ := Prod.mk.inj h
    rw [← Except.ok.inj hok]
    exact hbuf
  | cons item rest ih =>
    obtain ⟨packet, out, sent', -, hsend, hrest, -⟩ := sendEach_cons h
    exact ih (Server.sendPkt_length hbuf hsend) hrest

/-! ### The write buffer -/

namespace Server

variable {self : Server} {e : Iteration}

/-- The write buffer is as long as a packet can be. -/
def Buffered (self : Server) : Prop := self.writeBuf.length = ETHERNET_MTU

/-- Sending keeps the write buffer whole. -/
theorem buffered_sending {retransmission : Bool} {items : List (TraceableResult (Ipv4Packet .Out))}
    (h : self.Buffered) :
    (self.sending (sendEach retransmission items self.writeBuf)).server.Buffered := by
  rcases hsent : sendEach retransmission items self.writeBuf with ⟨sent, fault | buf⟩
  · exact h
  · exact sendEach_length h hsent

/-- So does a check for shutdown. -/
theorem buffered_checkShutdown (h : self.Buffered) (e : Iteration) :
    (self.checkShutdown e).server.Buffered := by
  unfold checkShutdown
  split
  · unfold handleShutdownInterrupt
    rcases self.engine.handleShutdown e.signalledAt e.sentAt with ⟨_ | (_ | toSend | _), engine⟩
    · exact h
    · exact h
    · have hbuf : (⟨self.writeBuf, engine, true⟩ : Server).Buffered := h
      exact buffered_sending hbuf
    · exact h
  · exact h

/-- So does what follows a packet. -/
theorem buffered_afterPacket (h : self.Buffered) (e : Iteration) (outcome : PollOutcome) :
    (self.afterPacket e outcome).server.Buffered := by
  unfold afterPacket
  split
  · exact buffered_checkShutdown h e
  · exact h

/-- So does an exchange. -/
theorem buffered_exchange (h : self.Buffered) (e : Iteration) (data : List UInt8) :
    (self.exchange e data).server.Buffered := by
  unfold exchange
  rcases self.engine.handlePacket ServerApp.application data e.randomU32 e.handledAt with
    ⟨(_ | _) | outcome, engine⟩
  · exact h
  · exact h
  · simp only
    cases outcome.reply with
    | none => exact h
    | some reply =>
      simp only
      cases hsend : sendPkt self.writeBuf reply with
      | error fault => exact h
      | ok out => exact sendPkt_length h hsend

/-- Every iteration that goes on keeps the write buffer whole. -/
theorem Buffered.step (h : self.Buffered) (hgoes : self.GoesOn e) : (self.step e).Buffered := by
  have hwent := went_turn hgoes
  unfold Server.step
  generalize self.turn e = t at hwent
  cases hwent with
  | swept =>
    have hbuf : { self with
        engine := (self.engine.makeRetransmissions e.sweptAt e.sweptLate).2 }.Buffered := h
    exact buffered_sending hbuf
  | exchanged hread hdata hx =>
    subst hx
    exact buffered_afterPacket (buffered_exchange h e _) e _
  | signalled => exact buffered_checkShutdown h e

/-! ### Sweeps and packets -/

/-- **A sweep always goes on** where what is pending fits. -/
theorem retransmit_continue (hbuf : self.Buffered)
    (hfits : ∀ key conn, self.engine.tcpConnections.get key = some conn → PendingFits conn) :
    (self.retransmit e).control = .Continue := by
  have hitems : ∀ item ∈ (self.engine.makeRetransmissions e.sweptAt e.sweptLate).1,
      ∃ packet, item = .ok packet ∧ packet.Sendable := by
    intro item hitem
    obtain ⟨seg, hseg, rfl⟩ := List.mem_map.mp hitem
    obtain ⟨key, conn, p, hget, hp, rfl⟩ := TcpConnections.mem_makeRetransmissions hseg
    exact Ipv4Packet.tryFrom_sendable (hfits key conn hget p hp)
  obtain ⟨sent, buf, hall⟩ := sendEach_sendable true hbuf hitems
  have hturn : self.retransmit e = Server.sending
      { self with engine := (self.engine.makeRetransmissions e.sweptAt e.sweptLate).2 }
      (sendEach true (self.engine.makeRetransmissions e.sweptAt e.sweptLate).1 self.writeBuf) := rfl
  rw [hturn, hall]
  rfl

/-- **Which packets end the loop**: oversized messages, whose reply cannot be sent. -/
theorem exchange_continue_iff {data : List UInt8} (hbuf : self.Buffered)
    (hdata : data.length ≤ ETHERNET_MTU) :
    (self.exchange e data).control = .Continue ↔ ¬ Oversized data := by
  have hpanic : (self.engine.handlePacket ServerApp.application data e.randomU32 e.handledAt).1
      ≠ .error .panic := self.engine.handlePacket_ne_panic _ _ _ _
  have hsend : ∀ outcome reply, ¬ Oversized data →
      (self.engine.handlePacket ServerApp.application data e.randomU32 e.handledAt).1
        = .ok outcome → outcome.reply = some reply → reply.Sendable :=
    fun _ _ hsmall => self.engine.reply_sendable e.randomU32 e.handledAt hdata hsmall
  have hover := self.engine.oversized_reply e.randomU32 e.handledAt hdata
  unfold exchange
  generalize self.engine.handlePacket ServerApp.application data e.randomU32 e.handledAt = r
    at hpanic hsend hover ⊢
  obtain ⟨(err | _) | outcome, engine⟩ := r
  · apply iff_of_true rfl
    intro h
    obtain ⟨outcome, reply, hok, -⟩ := hover h
    cases hok
  · exact absurd rfl hpanic
  · simp only
    cases hreply : outcome.reply with
    | none =>
      apply iff_of_true rfl
      intro h
      obtain ⟨outcome', reply, hok, hreply', -⟩ := hover h
      obtain rfl := Except.ok.inj hok
      rw [hreply] at hreply'; cases hreply'
    | some reply =>
      simp only
      by_cases h : Oversized data
      · obtain ⟨outcome', reply', hok, hreply', hbig⟩ := hover h
        obtain rfl := Except.ok.inj hok
        obtain rfl := Option.some.inj (hreply.symm.trans hreply')
        have hfail := Ipv4Packet.sendPkt_error hbig hbuf
        cases hsent : sendPkt self.writeBuf reply with
        | error fault => exact iff_of_false nofun fun hno => hno h
        | ok out => exact absurd hsent (hfail out)
      · obtain ⟨out, hsent, -⟩ := (hsend outcome reply h rfl hreply).sends self.writeBuf hbuf
        rw [hsent]
        exact iff_of_true rfl h

end Server

end Typenet

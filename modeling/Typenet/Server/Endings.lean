import Typenet.Server.Workers

namespace Typenet

/-!
# How the loop ends

An iteration goes on, or it ends the loop: well, when there is nothing left to do after a shutdown,
or with a fault.  I/O apart, a worker fails for two reasons only, an oversized datagram and a
shutdown deadline that cannot be represented.  `loop_outcome` says exactly when each of this
happens, in every state that the loop can be in.

* `Server.checkShutdown_done_iff`, `Server.checkShutdown_fails_iff` — what the signal comes to;
* `Server.turn_done_iff`, `Server.turn_fails_iff` — what an iteration comes to.
-/

/-! ### The signal -/

namespace TcpConnections

/-- Some connection has completed its handshake. -/
def AnySynchronized (self : TcpConnections) : Prop :=
  ∃ key conn, self.get key = some conn ∧ conn.name ≠ none

/-- After the closing sweep every synchronized connection is mid-close, and no other one. -/
theorem Closes.closing_iff {before after : TcpConnections} {sentAt : Instant}
    {toSend : List (Ipv4Packet .Out)} (h : before.Closes sentAt after toSend) :
    after.closingInProgress = true ↔ before.AnySynchronized := by
  have hfinWait1 : ¬ Receiving (some Synced.FinWait1) := by decide
  rw [closingInProgress_iff]
  constructor
  · rintro ⟨key, conn', hget', hclosing⟩
    by_cases hest : ∃ conn, before.get key = some conn ∧ conn.name = some .Established
    · obtain ⟨conn, hget, hname⟩ := hest
      exact ⟨key, conn, hget, by simp [hname]⟩
    · have hsame := (h.others key fun conn hget hname => hest ⟨conn, hget, hname⟩).2
      exact ⟨key, conn', hsame.symm.trans hget', fun hnone => hclosing (.inl hnone)⟩
  · rintro ⟨key, conn, hget, hname⟩
    by_cases hest : conn.name = some .Established
    · obtain ⟨-, conn', hget', hclosed⟩ := h.closed key conn hget hest
      exact ⟨key, conn', hget', by rw [hclosed.name]; exact hfinWait1⟩
    · have hothers := h.others key fun conn' hget' => by
        rw [← Option.some.inj (hget.symm.trans hget')]
        exact hest
      exact ⟨key, conn, hothers.2.trans hget, fun hrecv => hrecv.elim hname hest⟩

/-- Every FIN of the closing sweep can be sent. -/
theorem sendable_of_closeEstablished {self after : TcpConnections} {sentAt : Instant}
    {toSend : List (Ipv4Packet .Out)}
    (h : self.closeEstablished Ipv4Packet.tryFrom sentAt = (after, .ok toSend)) :
    ∀ packet ∈ toSend, packet.Sendable := by
  obtain ⟨list, hall, -, hkeys⟩ := closeEstablished_of_ok (congrArg Prod.snd h)
  intro packet hpacket
  obtain ⟨out, hout, hmade⟩ := exists_segment_of_packet hall hpacket
  obtain ⟨-, hsent⟩ := hkeys (ConnKey.ofOutgoing out)
  have hown : out ∈ segmentsOf (ConnKey.ofOutgoing out) list :=
    List.mem_filter.mpr ⟨hout, by simp⟩
  -- it carries no data
  have hpayload : out.payload = none := by
    rw [hsent] at hown
    obtain ⟨⟨conn', info⟩, hinfo, heq⟩ := List.mem_map.mp hown
    rw [← heq]
    obtain ⟨conn, -, hclose⟩ := Option.bind_eq_some_iff.mp (Option.mem_toList.mp hinfo)
    unfold ConnState.close at hclose
    split at hclose
    · obtain ⟨-, rfl⟩ := Prod.mk.inj (Option.some.inj hclose)
      rfl
    · cases hclose
  have hfits : TcpPayload.lenOrDefault out.payload ≤ 1460 := by
    rw [hpayload]
    exact Nat.zero_le _
  obtain ⟨packet', hpacket', hsendable⟩ := Ipv4Packet.tryFrom_sendable hfits
  rw [Except.ok.inj (hmade.symm.trans hpacket')]
  exact hsendable

end TcpConnections

/-! ### Turns that do not go on -/

namespace Turn

/-- A turn of two parts is done with the first of them or with the second. -/
theorem done_andThen_iff (t : Turn) (f : Server → Turn) : (t.andThen f).control = .Done ↔
    t.control = .Done ∨ (t.control = .Continue ∧ (f t.server).control = .Done) := by
  unfold andThen
  cases hc : t.control <;> simp [hc]

/-- It fails with the first or with the second. -/
theorem fails_andThen_iff (t : Turn) (f : Server → Turn) :
    (t.andThen f).Fails ↔ t.Fails ∨ (t.control = .Continue ∧ (f t.server).Fails) := by
  unfold andThen Fails
  cases hc : t.control <;> simp [hc]

end Turn

namespace Server

variable {self : Server} {e : Iteration}

/-- Reacting to the first signal. -/
theorem handleShutdownInterrupt_first (hbuf : self.Buffered)
    (hfirst : self.engine.shutdownDeadline = none) (now sentAt : Instant) :
    ((self.handleShutdownInterrupt now sentAt).control = .Done ↔
        ¬ self.engine.tcpConnections.AnySynchronized) ∧
      ((self.handleShutdownInterrupt now sentAt).Fails ↔
        self.engine.tcpConnections.AnySynchronized ∧
          Instant.MAX < now.nanos + self.engine.shutdownGracePeriod) := by
  obtain ⟨after, toSend, hcloses, -, hout⟩ := Engine.handleShutdown_first hfirst now sentAt
  have hsync := hcloses.closing_iff
  unfold handleShutdownInterrupt Turn.Fails
  rcases hout with ⟨hclosing, hout⟩ | ⟨hclosing, hfits, hout⟩ | ⟨hclosing, hover, err, hout⟩
  · rw [hout, ← hsync, hclosing]
    simp
  · -- the FINs are all sent
    obtain ⟨t, hclose⟩ := Engine.handleShutdown_began (congrArg Prod.fst hout)
    have hsendable : ∀ item ∈ toSend.map Except.ok, ∃ packet,
        item = (.ok packet : TraceableResult (Ipv4Packet .Out)) ∧ packet.Sendable := by
      intro item hitem
      obtain ⟨packet, hpacket, rfl⟩ := List.mem_map.mp hitem
      exact ⟨packet, rfl, TcpConnections.sendable_of_closeEstablished hclose packet hpacket⟩
    obtain ⟨sent, buf, hsent⟩ := sendEach_sendable false hbuf hsendable
    rw [hout, ← hsync, hclosing]
    simp only [hsent, sending]
    simp [hfits]
  · rw [hout, ← hsync, hclosing]
    simp [hover]

/-- **A signal ends the loop well** if it is the first and finds no synchronized connection. -/
theorem checkShutdown_done_iff (hbuf : self.Buffered) (e : Iteration) :
    (self.checkShutdown e).control = .Done ↔ e.shutdownCheck = true ∧
      self.engine.shutdownDeadline = none ∧ ¬ self.engine.tcpConnections.AnySynchronized := by
  cases hdeadline : self.engine.shutdownDeadline with
  | some deadline =>
    have hgoes := (checkShutdown_draining (e := e) hdeadline).1
    simp [hgoes]
  | none =>
    unfold checkShutdown
    split
    case isTrue hcheck =>
      simp [(handleShutdownInterrupt_first hbuf hdeadline _ _).1, hcheck]
    case isFalse hcheck => simp [hcheck]

/-- **A signal fails the loop** if it is the first, finds a synchronized connection, and its deadline
    cannot be represented. -/
theorem checkShutdown_fails_iff (hbuf : self.Buffered) (e : Iteration) :
    (self.checkShutdown e).Fails ↔ e.shutdownCheck = true ∧
      self.engine.shutdownDeadline = none ∧ self.engine.tcpConnections.AnySynchronized ∧
        Instant.MAX < e.signalledAt.nanos + self.engine.shutdownGracePeriod := by
  cases hdeadline : self.engine.shutdownDeadline with
  | some deadline =>
    have hgoes := (checkShutdown_draining (e := e) hdeadline).1
    simp [Turn.Fails, hgoes]
  | none =>
    unfold checkShutdown
    split
    case isTrue hcheck =>
      simp [(handleShutdownInterrupt_first hbuf hdeadline _ _).2, hcheck]
    case isFalse hcheck => simp [Turn.Fails, hcheck]

/-- Draining that has just begun is not complete. -/
theorem handleShutdownInterrupt_drained (hfirst : self.engine.shutdownDeadline = none)
    {now sentAt : Instant} (h : (self.handleShutdownInterrupt now sentAt).control = .Continue) :
    (self.handleShutdownInterrupt now sentAt).server.engine.drainingComplete = false := by
  obtain ⟨after, toSend, -, -, hout⟩ := Engine.handleShutdown_first hfirst now sentAt
  rw [handleShutdownInterrupt_engine]
  unfold handleShutdownInterrupt at h
  rcases hout with ⟨-, hout⟩ | ⟨hclosing, -, hout⟩ | ⟨-, -, err, hout⟩
  · rw [hout] at h
    cases h
  · rw [hout]
    simp [Engine.drainingComplete, hclosing]
  · rw [hout] at h
    cases h

/-- After a packet draining is complete only if it had begun before. -/
theorem afterPacket_drained_iff {outcome : PollOutcome}
    (h : (self.afterPacket e outcome).control = .Continue) :
    (self.afterPacket e outcome).server.engine.drainingComplete = true ↔
      self.engine.shutdownDeadline.isSome = true ∧
        self.engine.tcpConnections.closingInProgress = false := by
  cases hdeadline : self.engine.shutdownDeadline with
  | some deadline =>
    rw [(afterPacket_draining (e := e) hdeadline outcome).2]
    simp [Engine.drainingComplete, hdeadline]
  | none =>
    have hincomplete : self.engine.drainingComplete = false := by
      simp [Engine.drainingComplete, hdeadline]
    have hlast : (self.afterPacket e outcome).server.engine.drainingComplete = false := by
      unfold afterPacket checkShutdown at h ⊢
      split at h
      case isTrue hboth =>
        rw [if_pos hboth]
        split at h
        case isTrue hcheck =>
          rw [if_pos hcheck]
          exact handleShutdownInterrupt_drained hdeadline h
        case isFalse hcheck =>
          rw [if_neg hcheck]
          exact hincomplete
      case isFalse hboth =>
        rw [if_neg hboth]
        exact hincomplete
    simp [hlast]

/-! ### What an iteration comes to -/

/-- The iteration looks for a signal, and finds one. -/
def Signalled (self : Server) (e : Iteration) : Prop :=
  e.shutdownCheck = true ∧ match self.poll e with
    | .Interrupted | .Reported .Shutdown | .Reported .Both => True
    -- the read has been interrupted
    | .Reported .Readable => e.read = none
    | .Reported .Timeout => False

/-- The iteration finds the first signal. -/
def FirstSignal (self : Server) (e : Iteration) : Prop :=
  self.Signalled e ∧ self.engine.shutdownDeadline = none

/-- The engine that the signal meets: the packet has been handled by then. -/
def engineAtSignal (self : Server) (e : Iteration) : Engine ServerApp :=
  match self.readFrom e with
  | some data => (self.exchange e data).server.engine
  | none => self.engine

/-- **What fails the loop**: an oversized datagram, and a deadline that overflows. -/
def Fails (self : Server) (e : Iteration) : Prop :=
  (∃ data ∈ self.readFrom e, Oversized data) ∨
    (self.FirstSignal e ∧ (self.engineAtSignal e).tcpConnections.AnySynchronized ∧
      Instant.MAX < e.signalledAt.nanos + self.engine.shutdownGracePeriod)

/-- **What ends the loop well**: a timeout past the deadline, a first signal that finds nothing to
    close, and a packet while draining that leaves no connection mid-close. -/
def EndsWell (self : Server) (e : Iteration) : Prop :=
  (self.poll e = .Reported .Timeout ∧ self.engine.gracePeriodElapsed e.checkedAt = true) ∨
    (∀ data ∈ self.readFrom e, ¬ Oversized data) ∧
      ((self.FirstSignal e ∧ ¬ (self.engineAtSignal e).tcpConnections.AnySynchronized) ∨
        (self.engine.shutdownDeadline.isSome = true ∧
          ∃ data ∈ self.readFrom e, ¬ self.StillClosing data))

/-- A packet is handled well, or the loop fails. -/
theorem exchange_fails_iff {data : List UInt8} (hbuf : self.Buffered)
    (hdata : data.length ≤ ETHERNET_MTU) : (self.exchange e data).Fails ↔ Oversized data := by
  have hgoes := exchange_continue_iff (e := e) hbuf hdata
  have hdone := self.exchange_ne_done e data
  unfold Turn.Fails
  cases hc : (self.exchange e data).control with
  | Continue =>
    have hsmall := hgoes.mp hc
    simp [hsmall]
  | Done => exact absurd hc hdone
  | Failed fault =>
    have hbig : Oversized data := by
      by_contra hsmall
      cases hc.symm.trans (hgoes.mpr hsmall)
    simp [hbig]

/-- An exchange leaves the grace period alone. -/
theorem exchange_gracePeriod (self : Server) (e : Iteration) (data : List UInt8) :
    (self.exchange e data).server.engine.shutdownGracePeriod = self.engine.shutdownGracePeriod := by
  rw [exchange_engine]
  unfold Engine.handlePacket
  split <;> rfl

/-- The loop is done once draining is complete. -/
theorem checkDrained_done_iff (self : Server) :
    self.checkDrained.control = .Done ↔ self.engine.drainingComplete = true := by
  unfold checkDrained
  cases self.engine.drainingComplete <;> simp

/-- What follows a packet ends the loop well as a signal does, if there is one. -/
theorem afterPacket_done_iff (hbuf : self.Buffered) (e : Iteration) (outcome : PollOutcome) :
    (self.afterPacket e outcome).control = .Done ↔ (outcome = .Both ∧ e.shutdownCheck = true) ∧
      self.engine.shutdownDeadline = none ∧ ¬ self.engine.tcpConnections.AnySynchronized := by
  unfold afterPacket
  split
  case isTrue hboth => simp [checkShutdown_done_iff hbuf, hboth]
  case isFalse hboth => simp [hboth]

/-- And it fails as a signal does. -/
theorem afterPacket_fails_iff (hbuf : self.Buffered) (e : Iteration) (outcome : PollOutcome) :
    (self.afterPacket e outcome).Fails ↔ (outcome = .Both ∧ e.shutdownCheck = true) ∧
      self.engine.shutdownDeadline = none ∧ self.engine.tcpConnections.AnySynchronized ∧
        Instant.MAX < e.signalledAt.nanos + self.engine.shutdownGracePeriod := by
  unfold afterPacket
  split
  case isTrue hboth => simp [checkShutdown_fails_iff hbuf, hboth]
  case isFalse hboth => simp [Turn.Fails, hboth]

/-- What reading a packet comes to, by its three parts. -/
theorem readAndReply_done_iff {outcome : PollOutcome} {data : List UInt8} (hbuf : self.Buffered)
    (hdata : e.read = some data) : (self.readAndReply e outcome).control = .Done ↔
      ¬ Oversized data ∧ (((outcome = .Both ∧ e.shutdownCheck = true) ∧
          self.engine.shutdownDeadline = none ∧
          ¬ (self.exchange e data).server.engine.tcpConnections.AnySynchronized) ∨
        (self.engine.shutdownDeadline.isSome = true ∧ ¬ self.StillClosing data)) := by
  have hturn : self.readAndReply e outcome
      = ((self.exchange e data).andThen fun self => self.afterPacket e outcome).andThen
          checkDrained := by
    simp only [readAndReply, hdata]
  have hgoes := exchange_continue_iff (e := e) hbuf (e.read_le data hdata)
  have hne := self.exchange_ne_done e data
  have hbuf' := buffered_exchange hbuf e data
  have hafter := afterPacket_done_iff hbuf' e outcome
  rw [exchange_deadline] at hafter
  rw [hturn, Turn.done_andThen_iff, Turn.done_andThen_iff, or_iff_right hne, hgoes, hafter]
  constructor
  · rintro (⟨hsmall, hsignal⟩ | ⟨hmid, hdrained⟩)
    · exact ⟨hsmall, .inl hsignal⟩
    · obtain ⟨hx, hafter', heq⟩ := Turn.andThen_continue hmid
      rw [heq] at hdrained
      have hcomplete := (checkDrained_done_iff _).mp hdrained
      rw [afterPacket_drained_iff hafter', exchange_deadline] at hcomplete
      refine ⟨hgoes.mp hx, .inr ⟨hcomplete.1, ?_⟩⟩
      rw [← self.exchange_closing e data, hcomplete.2]
      decide
  · rintro ⟨hsmall, hsignal | ⟨hdeadline, hnot⟩⟩
    · exact .inl ⟨hsmall, hsignal⟩
    · right
      obtain ⟨deadline, hdeadline⟩ := Option.isSome_iff_exists.mp hdeadline
      have hdeadline' := (self.exchange_deadline e data).trans hdeadline
      obtain ⟨hafter', hengine⟩ := afterPacket_draining (e := e) hdeadline' outcome
      have hmid : ((self.exchange e data).andThen fun self => self.afterPacket e outcome)
          = ⟨((self.exchange e data).server.afterPacket e outcome).server,
            (self.exchange e data).sent
              ++ ((self.exchange e data).server.afterPacket e outcome).sent, .Continue⟩ := by
        unfold Turn.andThen
        rw [hgoes.mpr hsmall]
        simp only [hafter']
      rw [hmid]
      refine ⟨rfl, ?_⟩
      rw [← self.exchange_closing e data, Bool.not_eq_true] at hnot
      simp [checkDrained, hengine, Engine.drainingComplete, hdeadline', hnot]

/-- An iteration that reads a packet fails for an oversized datagram, or for its signal. -/
theorem readAndReply_fails_iff {outcome : PollOutcome} {data : List UInt8} (hbuf : self.Buffered)
    (hdata : e.read = some data) : (self.readAndReply e outcome).Fails ↔
      Oversized data ∨ (¬ Oversized data ∧ (outcome = .Both ∧ e.shutdownCheck = true) ∧
          self.engine.shutdownDeadline = none ∧
          (self.exchange e data).server.engine.tcpConnections.AnySynchronized ∧
            Instant.MAX < e.signalledAt.nanos + self.engine.shutdownGracePeriod) := by
  have hturn : self.readAndReply e outcome
      = ((self.exchange e data).andThen fun self => self.afterPacket e outcome).andThen
          checkDrained := by
    simp only [readAndReply, hdata]
  have hlast : ∀ server : Server, ¬ server.checkDrained.Fails := by
    intro server
    unfold checkDrained Turn.Fails
    split <;> simp
  have hafter := afterPacket_fails_iff (buffered_exchange hbuf e data) e outcome
  rw [exchange_deadline, exchange_gracePeriod] at hafter
  rw [hturn, Turn.fails_andThen_iff, Turn.fails_andThen_iff,
    or_iff_left fun h => hlast _ h.2, hafter, exchange_fails_iff hbuf (e.read_le data hdata),
    exchange_continue_iff hbuf (e.read_le data hdata)]

/-- **Which iterations end the loop well.** -/
theorem turn_done_iff (hbuf : self.Buffered) (e : Iteration) :
    (self.turn e).control = .Done ↔ self.EndsWell e := by
  have hcheck := checkShutdown_done_iff hbuf e
  unfold turn EndsWell FirstSignal Signalled engineAtSignal readFrom
  cases hpoll : self.poll e with
  | Interrupted => simp [hcheck, and_assoc]
  | Reported outcome =>
    cases outcome with
    | Shutdown => simp [hcheck, and_assoc]
    | Timeout =>
      simp only
      split
      case isTrue hgrace => simp [hgrace]
      case isFalse hgrace =>
        have hsent : (self.retransmit e).control ≠ .Done := sending_ne_done _ _
        simp [hgrace, hsent]
    | Readable | Both =>
      cases hdata : e.read with
      | none =>
        simp only [readAndReply, hdata]
        simp [hcheck, and_assoc]
      | some data =>
        simp only
        rw [readAndReply_done_iff hbuf hdata]
        simp [and_assoc]

/-- **Which iterations fail.** -/
theorem turn_fails_iff (hbuf : self.Buffered)
    (hfits : ∀ key conn, self.engine.tcpConnections.get key = some conn → PendingFits conn)
    (e : Iteration) : (self.turn e).Fails ↔ self.Fails e := by
  have hcheck := checkShutdown_fails_iff hbuf e
  unfold turn Server.Fails FirstSignal Signalled engineAtSignal readFrom
  cases hpoll : self.poll e with
  | Interrupted => simp [hcheck, and_assoc]
  | Reported outcome =>
    cases outcome with
    | Shutdown => simp [hcheck, and_assoc]
    | Timeout =>
      simp only
      split
      case isTrue => simp [Turn.Fails]
      case isFalse =>
        have hsent := retransmit_continue (e := e) hbuf hfits
        simp [Turn.Fails, hsent]
    | Readable | Both =>
      cases hdata : e.read with
      | none =>
        simp only [readAndReply, hdata]
        simp [hcheck, and_assoc]
      | some data =>
        simp only
        rw [readAndReply_fails_iff hbuf hdata]
        by_cases hbig : Oversized data <;> simp [hbig, and_assoc]

end Server

/-- **How the loop ends**, I/O apart: the device, the poll and the log are taken to succeed, but
    that polls and reads may be interrupted.  In every run of the loop, the next iteration ends it
    well exactly if it meets one of the reasons to end well, and fails exactly for an oversized
    datagram or a shutdown deadline that overflows; under that assumption it stops for nothing
    else. -/
theorem loop_outcome (app : ServerApp) (initialRto : Duration) (maxRetries : UInt8)
    (gracePeriod : Duration) (es : List Iteration)
    (hrun : Runs.Admits Server.step Server.GoesOn
      (Server.new app initialRto maxRetries gracePeriod) es) (self : Server)
    (hself : es.foldl Server.step (Server.new app initialRto maxRetries gracePeriod) = self)
    (e : Iteration) :
    ((self.turn e).control = .Done ↔ self.EndsWell e) ∧ ((self.turn e).Fails ↔ self.Fails e) := by
  subst hself
  obtain ⟨hbuf, evs, hevs⟩ := (Runs.Run.of_admits hrun).state_invariant
    (I := fun t => t.Buffered ∧ t.EngineReached app initialRto maxRetries gracePeriod)
    ⟨Server.buffered_new _ _ _ _, [], .nil⟩
    (fun t e h hgoes => ⟨h.1.step hgoes, h.2.step hgoes⟩)
  exact ⟨Server.turn_done_iff hbuf e, Server.turn_fails_iff hbuf (fun key conn =>
    Engine.conn_invariant pendingFits_opened (fun _ _ _ _ _ _ hp hs => hp.step hs) hevs) e⟩

/-- A server without a grace period ends well when its next poll times out. -/
theorem loop_outcome_timeout : (DRAINING_SERVER.turn TIMEOUT_ITERATION).control = .Done := by
  have helapsed : DRAINING_SERVER.engine.gracePeriodElapsed TIMEOUT_ITERATION.checkedAt = true := by
    decide +kernel
  obtain ⟨hdone, -⟩ := loop_outcome .Echo 1000000000 3 0
    [SYN_ITERATION, ACK_ITERATION, SHUTDOWN_ITERATION] drainingServer_run DRAINING_SERVER rfl
    TIMEOUT_ITERATION
  exact hdone.mpr (.inl ⟨rfl, helapsed⟩)

end Typenet

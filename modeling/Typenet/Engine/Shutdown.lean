import Typenet.Engine.Atomicity
import Typenet.Table.Calls
import Typenet.Table.Decisions

namespace Typenet

/-!
# Initiating shutdown

The first shutdown signal sweeps the table: every connection in ESTABLISHED sends its FIN.  The
sweep itself cannot fail (`TcpConnections.closes_closeEstablished`), and the deadline is set after
it, so that later signals sweep nothing.  But setting the deadline can fail, and then the
connections are closed already while their FINs are not handed over: `shutdown_initiated_iff` says
that this is the only way in which a signal does not do what it should.
-/

/-! ### The closing sweep -/

/-- The FIN that closes a connection. -/
def ConnState.finAck (conn : ConnState) : SendInfo where
  seqNum := conn.sndNxt
  ackNum := conn.rcvNxt
  flags := .FinAck
  payload := none

/-- The connection is closed at `sentAt`, with its FIN last in the queue. -/
structure ConnState.ClosedTo (before : ConnState) (sentAt : Instant) (after : ConnState) :
    Prop where
  name : after.name = some .FinWait1
  pending : after.pending = before.pending ++ [.new before.finAck sentAt]
  rest : after = { before with
    tcpState := after.tcpState
    sndNxt := before.sndNxt + FIN_BYTE
    pending := after.pending }

theorem ConnState.closedTo_close {conn : ConnState} (h : conn.name = some .Established)
    (sentAt : Instant) :
    ∃ conn', conn.close sentAt = some (conn', conn.finAck) ∧ conn.ClosedTo sentAt conn' := by
  obtain ⟨est, hst⟩ := ConnState.name_eq_established h
  refine ⟨_, by rw [ConnState.close, hst]; rfl, rfl, rfl, rfl⟩

/-- The segment that a message is, if it is one. -/
def ProtocolRouter.asTcp {D : Direction} : ProtocolRouter D → Option (TcpSegment D)
  | .Tcp seg => some seg
  | .Icmp _ | .Udp _ => none

/-- The segments for one connection among some packets. -/
def packetsOf (key : ConnKey) (packets : List (Ipv4Packet .Out)) : List (TcpSegment .Out) :=
  segmentsOf key (packets.filterMap fun packet => packet.router.asTcp)

namespace TcpConnections

/-- Some connection is in ESTABLISHED. -/
def AnyEstablished (self : TcpConnections) : Prop :=
  ∃ key conn, self.get key = some conn ∧ conn.name = some .Established

/-- What the closing sweep makes of a table, and the packets that come of it. -/
structure Closes (before : TcpConnections) (sentAt : Instant) (after : TcpConnections)
    (toSend : List (Ipv4Packet .Out)) : Prop where
  config : SameConfig before after
  /-- Only segments are sent. -/
  segments : ∀ packet ∈ toSend, packet.router.asTcp.isSome = true
  /-- A connection in ESTABLISHED is closed, and its FIN is sent. -/
  closed : ∀ key conn, before.get key = some conn → conn.name = some .Established →
    packetsOf key toSend = [key.outgoing conn.finAck] ∧
      ∃ conn', after.get key = some conn' ∧ conn.ClosedTo sentAt conn'
  /-- Nothing is sent for any other connection, and it stays what it is. -/
  others : ∀ key, (∀ conn, before.get key = some conn → conn.name ≠ some .Established) →
    packetsOf key toSend = [] ∧ after.get key = before.get key

/-- A FIN always fits a packet. -/
theorem exists_finAck_packet (key : ConnKey) {info : SendInfo} (h : info.payload = none) :
    ∃ packet, Ipv4Packet.tryFrom (key.outgoing info) = .ok packet := by
  apply Ipv4Packet.tryFromRouter_ok
  show 20 + (20 + TcpPayload.lenOrDefault info.payload) < 2 ^ 16
  rw [h]
  decide

/-- A sweep succeeds if every FIN finds its consumer. -/
theorem closeKeys_ok {β : Type} {consume : TcpSegment .Out → TraceableResult β}
    (hconsume : ∀ key info, info.payload = none → ∃ item, consume (ConnKey.outgoing key info)
      = .ok item) (now : Instant) (keys : List ConnKey) (self : TcpConnections) :
    ∃ items, (closeKeys consume now keys self).2 = .ok items := by
  induction keys generalizing self with
  | nil => exact ⟨[], rfl⟩
  | cons key keys ih =>
    unfold closeKeys
    cases hclose : (self.get key).bind fun conn => conn.close now with
    | none => exact ih self
    | some r =>
      obtain ⟨conn, -, hconn⟩ := Option.bind_eq_some_iff.mp hclose
      have hpayload : r.2.payload = none := by
        unfold ConnState.close at hconn
        split at hconn
        · obtain rfl := Option.some.inj hconn
          rfl
        · cases hconn
      obtain ⟨item, hitem⟩ := hconsume key r.2 hpayload
      obtain ⟨items, hitems⟩ := ih (self.set key r.1)
      simp only [hitem, hitems]
      exact ⟨item :: items, rfl⟩

/-- The segments that packets are made from. -/
theorem segments_of_tryFrom {segs : List (TcpSegment .Out)} {packets : List (Ipv4Packet .Out)}
    (h : List.Forall₂ (fun seg packet => Ipv4Packet.tryFrom seg = .ok packet) segs packets) :
    (∀ packet ∈ packets, packet.router.asTcp.isSome = true) ∧
      packets.filterMap (fun packet => packet.router.asTcp) = segs := by
  induction h with
  | nil => exact ⟨fun packet hmem => absurd hmem List.not_mem_nil, rfl⟩
  | @cons seg packet segs packets hseg _ ih =>
    have hrouter : packet.router.asTcp = some seg := by
      rw [(Ipv4Packet.tryFromRouter_eq_ok hseg).1]
      rfl
    refine ⟨fun q hq => ?_, ?_⟩
    · rcases List.mem_cons.mp hq with rfl | hrest
      · rw [hrouter]
        rfl
      · exact ih.1 q hrest
    · rw [List.filterMap_cons, hrouter, ih.2]

/-- **The first signal's sweep** closes what is in ESTABLISHED. -/
theorem closes_closeEstablished (self : TcpConnections) (sentAt : Instant) :
    ∃ after toSend, self.closeEstablished Ipv4Packet.tryFrom sentAt = (after, .ok toSend) ∧
      self.Closes sentAt after toSend := by
  obtain ⟨toSend, hok⟩ := closeKeys_ok (fun key info => exists_finAck_packet key)
    sentAt self.table.keys self
  obtain ⟨list, hall, hcfg, hkeys⟩ := closeEstablished_of_ok hok
  obtain ⟨hsegments, hlist⟩ := segments_of_tryFrom hall
  refine ⟨_, toSend, Prod.ext rfl hok, hcfg, hsegments, fun key conn hget hname => ?_,
    fun key hnot => ?_⟩
  · obtain ⟨hafter, hsent⟩ := hkeys key
    obtain ⟨conn', hclose, hclosed⟩ := ConnState.closedTo_close hname sentAt
    rw [hget, Option.map_some, hclose] at hafter
    rw [hget, Option.bind_some, hclose] at hsent
    refine ⟨?_, conn', hafter, hclosed⟩
    rw [packetsOf, hlist, hsent]
    rfl
  · obtain ⟨hafter, hsent⟩ := hkeys key
    cases hget : self.get key with
    | none =>
      rw [hget] at hafter hsent
      exact ⟨by rw [packetsOf, hlist, hsent]; rfl, hafter⟩
    | some conn =>
      rw [hget, Option.map_some, ConnState.close_eq_none sentAt (hnot conn hget)] at hafter
      rw [hget, Option.bind_some, ConnState.close_eq_none sentAt (hnot conn hget)] at hsent
      exact ⟨by rw [packetsOf, hlist, hsent]; rfl, hafter⟩

/-- A sweep that closes something changes the table, and leaves a connection mid-close. -/
theorem Closes.of_established {before after : TcpConnections} {sentAt : Instant}
    {toSend : List (Ipv4Packet .Out)} (h : before.Closes sentAt after toSend)
    (hany : before.AnyEstablished) : after ≠ before ∧ after.closingInProgress = true := by
  obtain ⟨key, conn, hget, hname⟩ := hany
  obtain ⟨-, conn', hget', hclosed⟩ := h.closed key conn hget hname
  have hname' := hclosed.name
  constructor
  · rintro rfl
    obtain rfl := Option.some.inj (hget.symm.trans hget')
    rw [hname] at hname'
    cases hname'
  · have hnot : ¬ Receiving (some Synced.FinWait1) := by decide
    rw [closingInProgress_iff]
    exact ⟨key, conn', hget', by rw [hname']; exact hnot⟩

/-- No connection is sent more than one FIN. -/
theorem Closes.length_packetsOf_le {before after : TcpConnections} {sentAt : Instant}
    {toSend : List (Ipv4Packet .Out)} (h : before.Closes sentAt after toSend) (key : ConnKey) :
    (packetsOf key toSend).length ≤ 1 := by
  by_cases hany : ∃ conn, before.get key = some conn ∧ conn.name = some .Established
  · obtain ⟨conn, hget, hname⟩ := hany
    rw [(h.closed key conn hget hname).1]
    exact Nat.le_refl 1
  · rw [(h.others key fun conn hget hname => hany ⟨conn, hget, hname⟩).1]
    exact Nat.zero_le 1

/-- With nothing in ESTABLISHED the sweep changes nothing. -/
theorem closeKeys_idle {β : Type} (consume : TcpSegment .Out → TraceableResult β)
    (now : Instant) (keys : List ConnKey) {self : TcpConnections} (h : ¬ self.AnyEstablished) :
    closeKeys consume now keys self = (self, .ok []) := by
  induction keys with
  | nil => rfl
  | cons key keys ih =>
    have hnone : (self.get key).bind (·.close now) = none := by
      cases hget : self.get key with
      | none => rfl
      | some conn =>
        exact ConnState.close_eq_none now fun hname => h ⟨key, conn, hget, hname⟩
    unfold closeKeys
    rw [hnone]
    exact ih

end TcpConnections

/-! ### A signal -/

namespace Engine

variable {σ : Type} {A : Application σ}

/-- What a signal does that begins draining. -/
structure BeginsDraining (before : Engine σ) (now sentAt : Instant)
    (toSend : List (Ipv4Packet .Out)) (after : Engine σ) : Prop where
  closes : before.tcpConnections.Closes sentAt after.tcpConnections toSend
  deadline : after.shutdownDeadline = some ⟨now.nanos + before.shutdownGracePeriod⟩
  rest : after = { before with
    tcpConnections := after.tcpConnections
    shutdownDeadline := after.shutdownDeadline }

/-- What a shutdown signal should do: a failed one, one while draining and one without
    connections to close leave the engine what it is. -/
structure InitiatesShutdown (engine : Engine σ) (now sentAt : Instant) : Prop where
  failed : ∀ e, (engine.handleShutdown now sentAt).1 = .error e →
    (engine.handleShutdown now sentAt).2 = engine
  began : ∀ toSend, (engine.handleShutdown now sentAt).1 = .ok (.BeganDraining toSend) →
    engine.BeginsDraining now sentAt toSend (engine.handleShutdown now sentAt).2
  draining : ∀ timeLeft, (engine.handleShutdown now sentAt).1 = .ok (.AlreadyDraining timeLeft) →
    (engine.handleShutdown now sentAt).2 = engine
  noConnections : (engine.handleShutdown now sentAt).1 = .ok .NoConnections →
    (engine.handleShutdown now sentAt).2 = engine

/-- The signal is the first one, connections are in ESTABLISHED, and the deadline for closing them
    cannot be represented. -/
def DeadlineOverflows (self : Engine σ) (now : Instant) : Prop :=
  self.shutdownDeadline = none ∧ self.tcpConnections.AnyEstablished
    ∧ Instant.MAX < now.nanos + self.shutdownGracePeriod

/-- **The first signal**, by whether a connection is mid-close after the sweep and whether the
    deadline can be represented. -/
theorem handleShutdown_first {self : Engine σ} (h : self.shutdownDeadline = none)
    (now sentAt : Instant) : ∃ after toSend,
      self.tcpConnections.Closes sentAt after toSend ∧
      (¬ self.tcpConnections.AnyEstablished → after = self.tcpConnections) ∧
      ((after.closingInProgress = false ∧ self.handleShutdown now sentAt
          = (.ok .NoConnections, { self with tcpConnections := after })) ∨
        (after.closingInProgress = true ∧ now.nanos + self.shutdownGracePeriod ≤ Instant.MAX ∧
          self.handleShutdown now sentAt = (.ok (.BeganDraining toSend), { self with
            tcpConnections := after
            shutdownDeadline := some ⟨now.nanos + self.shutdownGracePeriod⟩ })) ∨
        (after.closingInProgress = true ∧ Instant.MAX < now.nanos + self.shutdownGracePeriod ∧
          ∃ e, self.handleShutdown now sentAt
            = (.error e, { self with tcpConnections := after }))) := by
  obtain ⟨after, toSend, heq, hcloses⟩ :=
    self.tcpConnections.closes_closeEstablished sentAt
  refine ⟨after, toSend, hcloses, fun hno => ?_, ?_⟩
  · have hidle := TcpConnections.closeKeys_idle Ipv4Packet.tryFrom sentAt
      self.tcpConnections.table.keys hno
    exact congrArg Prod.fst (heq.symm.trans hidle)
  · unfold handleShutdown
    rw [h]
    simp only [heq]
    cases hclosing : after.closingInProgress with
    | false => exact .inl ⟨rfl, rfl⟩
    | true =>
      rw [if_pos rfl]
      unfold Instant.tryAdd Instant.checkedAdd
      by_cases hfits : now.nanos + self.shutdownGracePeriod ≤ Instant.MAX
      · rw [if_pos hfits]
        exact .inr (.inl ⟨rfl, hfits, rfl⟩)
      · rw [if_neg hfits]
        exact .inr (.inr ⟨rfl, Nat.lt_of_not_le hfits, _, rfl⟩)

/-- A signal that changes nothing and does not begin draining does what it should. -/
theorem initiatesShutdown_of_same {engine : Engine σ} {now sentAt : Instant}
    (hsame : (engine.handleShutdown now sentAt).2 = engine)
    (hno : ∀ toSend, (engine.handleShutdown now sentAt).1 ≠ .ok (.BeganDraining toSend)) :
    engine.InitiatesShutdown now sentAt :=
  ⟨fun _ _ => hsame, fun toSend h => absurd h (hno toSend), fun _ _ => hsame, fun _ => hsame⟩

/-- **When a signal does what it should**: always but for an overflowing deadline. -/
theorem initiatesShutdown_iff (engine : Engine σ) (now sentAt : Instant) :
    engine.InitiatesShutdown now sentAt ↔ ¬ engine.DeadlineOverflows now := by
  cases hdeadline : engine.shutdownDeadline with
  | some deadline =>
    have hout : engine.handleShutdown now sentAt
        = (.ok (.AlreadyDraining (deadline.saturatingDurationSince now)), engine) := by
      unfold handleShutdown
      rw [hdeadline]
    refine iff_of_true (initiatesShutdown_of_same (by rw [hout]) fun _ h => ?_)
      fun h => by cases hdeadline.symm.trans h.1
    rw [hout] at h
    cases h
  | none =>
    obtain ⟨after, toSend, hcloses, hidle, hout⟩ := handleShutdown_first hdeadline now sentAt
    have hsame : ¬ engine.tcpConnections.AnyEstablished →
        { engine with tcpConnections := after } = engine := fun hno => by rw [hidle hno]
    rcases hout with ⟨hclosing, hout⟩ | ⟨hclosing, hfits, hout⟩ | ⟨hclosing, hover, e, hout⟩
    · -- nothing was in ESTABLISHED, or it would be mid-close now
      have hno : ¬ engine.tcpConnections.AnyEstablished := fun hany => by
        rw [(hcloses.of_established hany).2] at hclosing
        cases hclosing
      refine iff_of_true (initiatesShutdown_of_same (by rw [hout, hsame hno]) fun _ h => ?_)
        fun h => hno h.2.1
      rw [hout] at h
      cases h
    · refine iff_of_true ⟨fun e h => ?_, fun toSend' h => ?_, fun timeLeft h => ?_, fun h => ?_⟩
        fun h => Nat.not_lt.mpr hfits h.2.2
      · rw [hout] at h
        cases h
      · rw [hout] at h ⊢
        obtain rfl : toSend = toSend' :=
          ShutdownOutcome.BeganDraining.inj (Except.ok.inj h)
        exact ⟨hcloses, rfl, rfl⟩
      · rw [hout] at h
        cases h
      · rw [hout] at h
        cases h
    · constructor
      · rintro hcontract ⟨-, hany, -⟩
        have hunchanged := hcontract.failed e (by rw [hout])
        rw [hout] at hunchanged
        exact (hcloses.of_established hany).1 (congrArg tcpConnections hunchanged)
      · intro hnot
        have hno : ¬ engine.tcpConnections.AnyEstablished := fun hany =>
          hnot ⟨hdeadline, hany, hover⟩
        refine initiatesShutdown_of_same (by rw [hout, hsame hno]) fun _ h => ?_
        rw [hout] at h
        cases h

/-! ### Runs -/

/-- How many FINs of one connection the outcome of a signal hands over. -/
def finsOf (key : ConnKey) : TraceableResult ShutdownOutcome → Nat
  | .ok (.BeganDraining toSend) => (packetsOf key toSend).length
  | .ok (.AlreadyDraining _) | .ok .NoConnections | .error _ => 0

/-- How many of them are handed over in a run, because of shutdown signals. -/
def finsSent (A : Application σ) (key : ConnKey) : Engine σ → List Event → Nat
  | _, [] => 0
  | self, .shutdown now sentAt :: es =>
    finsOf key (self.handleShutdown now sentAt).1
      + finsSent A key (self.step A (.shutdown now sentAt)) es
  | self, ev :: es => finsSent A key (self.step A ev) es

/-- Draining is never called off. -/
theorem step_deadline {self : Engine σ} {deadline : Instant}
    (h : self.shutdownDeadline = some deadline) (ev : Event) :
    (self.step A ev).shutdownDeadline = some deadline := by
  cases ev with
  | packet data randomU32 now =>
    show (self.handlePacket A data randomU32 now).2.shutdownDeadline = some deadline
    unfold handlePacket
    split <;> exact h
  | retransmit now late => exact h
  | shutdown now sentAt =>
    show (self.handleShutdown now sentAt).2.shutdownDeadline = some deadline
    unfold handleShutdown
    rw [h]
    exact h

/-- While draining, no FIN is handed over. -/
theorem finsSent_draining {self : Engine σ} {deadline : Instant}
    (h : self.shutdownDeadline = some deadline) (key : ConnKey) (es : List Event) :
    finsSent A key self es = 0 := by
  induction es generalizing self with
  | nil => rfl
  | cons ev es ih =>
    have hrest := ih (step_deadline (A := A) h ev)
    cases ev with
    | packet | retransmit => exact hrest
    | shutdown now sentAt =>
      unfold finsSent handleShutdown
      rw [hrest, h]
      rfl

/-- **Each FIN is handed over once at most**, however many signals arrive. -/
theorem finsSent_le (self : Engine σ) (key : ConnKey) (es : List Event) :
    finsSent A key self es ≤ 1 := by
  induction es generalizing self with
  | nil => exact Nat.zero_le 1
  | cons ev es ih =>
    cases ev with
    | packet | retransmit => exact ih _
    | shutdown now sentAt =>
      cases hdeadline : self.shutdownDeadline with
      | some deadline =>
        rw [finsSent_draining hdeadline]
        exact Nat.zero_le 1
      | none =>
        obtain ⟨after, toSend, hcloses, -, hout⟩ := handleShutdown_first hdeadline now sentAt
        have hrest := ih (self.step A (.shutdown now sentAt))
        unfold finsSent
        rcases hout with ⟨-, hout⟩ | ⟨-, -, hout⟩ | ⟨-, -, e, hout⟩
        · rw [hout, finsOf, Nat.zero_add]
          exact hrest
        · -- the deadline is set, and the signals that follow find it
          have hset : (self.step A (.shutdown now sentAt)).shutdownDeadline
              = some ⟨now.nanos + self.shutdownGracePeriod⟩ := congrArg (·.2.shutdownDeadline) hout
          rw [finsSent_draining hset, hout]
          exact hcloses.length_packetsOf_le key
        · rw [hout, finsOf, Nat.zero_add]
          exact hrest

/-- **Shutdown is initiated as it should be**, in every state of every run, unless the deadline for
    closing what is in ESTABLISHED overflows; and no connection is sent its FIN twice. -/
theorem shutdown_initiated_iff (A : Application σ) (app : σ) (initialRto : Duration)
    (maxRetries : UInt8) (grace : Duration) (es : List Event) :
    (∀ now sentAt,
      (es.foldl (step A) (new app initialRto maxRetries grace)).InitiatesShutdown now sentAt ↔
        ¬ (es.foldl (step A) (new app initialRto maxRetries grace)).DeadlineOverflows now) ∧
      ∀ key, finsSent A key (new app initialRto maxRetries grace) es ≤ 1 :=
  ⟨fun now sentAt => initiatesShutdown_iff _ now sentAt, fun key => finsSent_le _ key es⟩

/-- The engine of `establishedPackets` with the longest grace period. -/
def patientEngine : Engine ServerApp :=
  establishedPackets.foldl (step ServerApp.application) (new .Echo 1000000000 3 Duration.MAX)

/-- **A failed signal closes a connection**: its deadline overflows, and what was in ESTABLISHED is
    in FIN-WAIT-1. -/
theorem overflowing_deadline_closes :
    (∃ e, (patientEngine.handleShutdown ⟨2⟩ ⟨2⟩).1 = .error e) ∧
      (patientEngine.handleShutdown ⟨2⟩ ⟨2⟩).2 ≠ patientEngine := by
  have hfailed : failed (patientEngine.handleShutdown ⟨2⟩ ⟨2⟩).1 = true := by decide +kernel
  have hbefore : (patientEngine.tcpConnections.get KEY).map (·.name)
      = some (some .Established) := by decide +kernel
  have hafter : ((patientEngine.handleShutdown ⟨2⟩ ⟨2⟩).2.tcpConnections.get KEY).map (·.name)
      = some (some .FinWait1) := by decide +kernel
  constructor
  · cases hres : (patientEngine.handleShutdown ⟨2⟩ ⟨2⟩).1 with
    | error e => exact ⟨e, rfl⟩
    | ok outcome =>
      rw [hres] at hfailed
      cases hfailed
  · intro heq
    rw [heq, hbefore] at hafter
    cases hafter

end Engine

end Typenet

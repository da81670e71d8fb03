import Typenet.Engine.Atomicity
import Typenet.Server.Loop
import Typenet.Server.ReplySize
import Typenet.Table.Calls
import Typenet.Table.Decisions

namespace Typenet

/-!
# Timers under traffic

Segments are retransmitted in one branch of the loop only, the one taken when the poll reports a
timeout.  The poll timeout counts the next retransmission, but while the device stays readable no
poll times out, and a due segment waits.  Which iterations serve the due segments can be read off
the state they start in: `timers_served_iff`.  A client that keeps sending starves every timer
(`timers_starved_by_traffic`).
-/

/-- A segment of the connection under `key` that is due when the iteration starts. -/
structure Server.Due (server : Server) (e : Iteration) (key : ConnKey) (conn : ConnState)
    (p : PendingSegment) : Prop where
  get : server.engine.tcpConnections.get key = some conn
  pending : p ∈ conn.pending
  due : p.timeDue server.engine.tcpConnections.rtoConfig e.startLate ≤ e.start

/-- What may become of a due segment in a turn. -/
inductive Turn.Settled (t : Turn) (key : ConnKey) (conn : ConnState) (p : PendingSegment) : Prop
  /-- Its connection is gone. -/
  | removed : t.server.engine.tcpConnections.get key = none → Settled t key conn p
  /-- It has been sent again. -/
  | retransmitted {packet : Ipv4Packet .Out} :
      Ipv4Packet.tryFrom (key.outgoing p.sendInfo) = .ok packet →
      .nonReply packet true ∈ t.sent → Settled t key conn p
  /-- SND.UNA has moved, and covers it. -/
  | acknowledged {conn' : ConnState} : t.server.engine.tcpConnections.get key = some conn' →
      conn'.sndUna ≠ conn.sndUna → p.isCoveredBy conn'.sndUna = true → Settled t key conn p

/-- **Every due segment is served** by the end of the iteration. -/
def Server.Settles (self : Server) (e : Iteration) : Prop :=
  ∀ key conn p, self.Due e key conn p → (self.turn e).Settled key conn p

/-! ### Which iterations serve a segment -/

/-- Whether a sweep resends a segment of the connection with what `p` carries, or gives up on the
    connection. -/
def ConnState.sweeps (conn : ConnState) (rto : RtoConfig) (maxRetries : UInt8)
    (now late : Instant) (p : PendingSegment) : Bool :=
  conn.pending.any fun q =>
    ConnState.isDue rto now late q && (q.sendInfo = p.sendInfo || q.exhaustedRetries maxRetries)

/-- Whether `seg` removes the connection or acknowledges `p` for the first time. -/
def ConnState.answers (conn : ConnState) (seg : TcpSegment .In) (p : PendingSegment) : Bool :=
  conn.removedBy seg || conn.acceptsAck seg && p.isCoveredBy seg.ackNum

/-- Whether the iteration serves the segment `p`: a poll that times out has it swept, and a packet
    of its own connection answers it. -/
def Server.serves (self : Server) (e : Iteration) (key : ConnKey) (conn : ConnState)
    (p : PendingSegment) : Bool :=
  match self.poll e with
  | .Reported .Timeout => conn.sweeps self.engine.tcpConnections.rtoConfig
      self.engine.tcpConnections.maxRetries e.sweptAt e.sweptLate p
  | .Reported .Readable | .Reported .Both =>
    (e.read.bind Engine.segmentOf).any fun seg =>
      decide (ConnKey.ofSegment seg = key) && conn.answers seg p
  | _ => false

/-- Whether the iteration serves every segment that is due when it starts. -/
def Server.Serves (self : Server) (e : Iteration) : Prop :=
  ∀ key conn p, self.Due e key conn p → self.serves e key conn p = true

/-- A connection's segments differ by what they carry. -/
theorem ConnKey.outgoing_inj (key : ConnKey) {i j : SendInfo}
    (h : key.outgoing i = key.outgoing j) : i = j := by
  obtain ⟨⟩ := i
  obtain ⟨⟩ := j
  simp only [outgoing, TcpSegment.fromPairsAndInfo, TcpSegment.mk.injEq] at h
  obtain ⟨-, -, rfl, rfl, -, rfl, -, rfl⟩ := h
  rfl

/-- What the sweep does to a connection decides what `sweeps` says. -/
theorem ConnState.sweeps_eq (conn : ConnState) (rto : RtoConfig) (maxRetries : UInt8)
    (now late : Instant) (p : PendingSegment) :
    conn.sweeps rto maxRetries now late p = true ↔
      ∀ conn' resent, conn.retransmit rto maxRetries now late = some (conn', resent) →
        p.sendInfo ∈ resent := by
  unfold ConnState.sweeps
  rw [List.any_eq_true]
  -- either some due segment is out of retries and the connection goes, or every due one is resent
  by_cases hgone : conn.retransmit rto maxRetries now late = none
  · rw [hgone]
    refine iff_of_true ?_ nofun
    obtain ⟨q, hq, hdue, hout⟩ := ConnState.retransmit_eq_none.mp hgone
    exact ⟨q, hq, by rw [hdue, hout, Bool.or_true]; rfl⟩
  · have hkept : ∀ q ∈ conn.pending, isDue rto now late q = true →
        q.exhaustedRetries maxRetries = false := by
      intro q hq hdue
      by_contra hout
      exact hgone (ConnState.retransmit_eq_none.mpr ⟨q, hq, hdue, by simpa using hout⟩)
    unfold ConnState.retransmit at hgone ⊢
    rw [if_neg fun hany => hgone (if_pos hany)]
    constructor
    · rintro ⟨q, hq, hboth⟩ conn' resent heq
      obtain ⟨-, rfl⟩ := Prod.mk.inj (Option.some.inj heq)
      rw [Bool.and_eq_true] at hboth
      have hsame : q.sendInfo = p.sendInfo := by simpa [hkept q hq hboth.1] using hboth.2
      exact List.mem_map.mpr ⟨q, List.mem_filter.mpr ⟨hq, hboth.1⟩, hsame⟩
    · intro h
      obtain ⟨q, hq, hsame⟩ := List.mem_map.mp (h _ _ rfl)
      obtain ⟨hq, hdue⟩ := List.mem_filter.mp hq
      exact ⟨q, hq, by rw [hdue, hsame]; simp⟩

/-- A segment that is due when the iteration starts is still due in its sweep, unless the instant
    it is due at overflows. -/
theorem ConnState.sweeps_of_due {conn : ConnState} {rto : RtoConfig} {p : PendingSegment}
    {start startLate now late : Instant} (maxRetries : UInt8) (hp : p ∈ conn.pending)
    (hdue : p.timeDue rto startLate ≤ start) (hstart : start ≤ now)
    (hsame : p.timeDue rto late = p.timeDue rto startLate) :
    conn.sweeps rto maxRetries now late p = true := by
  refine List.any_eq_true.mpr ⟨p, hp, ?_⟩
  have hnow : p.timeDue rto late ≤ now := by
    rw [hsame]
    exact Nat.le_trans hdue hstart
  rw [isDue, decide_eq_true hnow]
  simp

/-! ### What each part of a turn does to a segment -/

/-- The sweep leaves SND.UNA in place. -/
theorem ConnState.retransmit_sndUna {conn conn' : ConnState} {rto : RtoConfig}
    {maxRetries : UInt8} {now late : Instant} {resent : List SendInfo}
    (h : conn.retransmit rto maxRetries now late = some (conn', resent)) :
    conn'.sndUna = conn.sndUna := by
  unfold ConnState.retransmit at h
  split at h
  · cases h
  · obtain ⟨rfl, -⟩ := Prod.mk.inj (Option.some.inj h)
    rfl

/-- Of a connection that stays, the sweep sends what its own sweep sends. -/
theorem TcpConnections.outgoing_mem_makeRetransmissions {self : TcpConnections} {key : ConnKey}
    {conn conn' : ConnState} {now late : Instant} {resent : List SendInfo}
    (hget : self.get key = some conn)
    (h : conn.retransmit self.rtoConfig self.maxRetries now late = some (conn', resent))
    (info : SendInfo) :
    key.outgoing info ∈ (self.makeRetransmissions now late).2 ↔ info ∈ resent := by
  obtain ⟨-, -, hsegs⟩ := self.makeRetransmissions_get now late key
  have hfor : self.resentFor now late key = resent := by
    unfold resentFor
    rw [hget, Option.bind_some, h]
  -- among the segments of the whole sweep, the connection's own are the ones under its key
  have hown : ∀ segs : List (TcpSegment .Out),
      key.outgoing info ∈ segmentsOf key segs ↔ key.outgoing info ∈ segs := by
    intro segs
    rw [segmentsOf, List.mem_filter, ConnKey.ofOutgoing_outgoing]
    exact and_iff_left (by simp)
  rw [← hown, hsegs, hfor, List.mem_map]
  constructor
  · rintro ⟨i, hi, heq⟩
    rwa [← key.outgoing_inj heq]
  · intro hi
    exact ⟨info, hi, rfl⟩

/-- A shutdown signal neither removes a connection nor moves SND.UNA. -/
theorem Engine.handleShutdown_sndUna {σ : Type} (self : Engine σ) (now sentAt : Instant)
    (key : ConnKey) :
    ((self.handleShutdown now sentAt).2.tcpConnections.get key).map (·.sndUna)
      = (self.tcpConnections.get key).map (·.sndUna) := by
  have hclose : ((self.tcpConnections.closeEstablished Ipv4Packet.tryFrom sentAt).1.get key).map
      (·.sndUna) = (self.tcpConnections.get key).map (·.sndUna) := by
    rcases (TcpConnections.closeKeys_get Ipv4Packet.tryFrom sentAt self.tcpConnections.table.keys
      self.tcpConnections).2 key with hsame | ⟨conn, conn', info, hget, hcl, hget'⟩
    · exact congrArg _ hsame
    · have huna : conn'.sndUna = conn.sndUna := by
        unfold ConnState.close at hcl
        split at hcl
        · obtain ⟨rfl, -⟩ := Prod.mk.inj (Option.some.inj hcl)
          rfl
        · cases hcl
      rw [hget]
      exact (congrArg _ hget').trans (congrArg some huna)
  unfold handleShutdown
  -- a second signal sweeps nothing; the first only closes, whatever becomes of the deadline
  cases self.shutdownDeadline with
  | some deadline => rfl
  | none =>
    simp only
    rcases hswept : self.tcpConnections.closeEstablished Ipv4Packet.tryFrom sentAt with ⟨t, r⟩
    rw [hswept] at hclose
    cases r with
    | error err => exact hclose
    | ok toSend =>
      simp only
      split
      · split <;> exact hclose
      · exact hclose

namespace Server

variable {self : Server} {e : Iteration} {key : ConnKey} {conn : ConnState} {p : PendingSegment}

/-- A check for shutdown acknowledges nothing. -/
theorem checkShutdown_sndUna (self : Server) (e : Iteration) (key : ConnKey) :
    ((self.checkShutdown e).server.engine.tcpConnections.get key).map (·.sndUna)
      = (self.engine.tcpConnections.get key).map (·.sndUna) := by
  rw [checkShutdown_engine]
  split
  · exact self.engine.handleShutdown_sndUna _ _ key
  · rfl

/-- Nor does what follows a packet. -/
theorem afterPacket_sndUna (self : Server) (e : Iteration) (outcome : PollOutcome)
    (key : ConnKey) :
    ((self.afterPacket e outcome).server.engine.tcpConnections.get key).map (·.sndUna)
      = (self.engine.tcpConnections.get key).map (·.sndUna) := by
  rw [afterPacket_engine]
  split
  · exact self.checkShutdown_sndUna e key
  · rfl

/-- Only the sweep retransmits. -/
theorem checkShutdown_sent (self : Server) (e : Iteration) (packet : Ipv4Packet .Out) :
    .nonReply packet true ∉ (self.checkShutdown e).sent := by
  unfold checkShutdown
  split
  · unfold handleShutdownInterrupt
    rcases self.engine.handleShutdown e.signalledAt e.sentAt with ⟨_ | (_ | toSend | _), engine⟩
    · exact List.not_mem_nil
    · exact List.not_mem_nil
    · have hnot := sendEach_closing (toSend.map .ok) self.writeBuf packet
      simp only
      generalize sendEach false (toSend.map .ok) self.writeBuf = r at hnot ⊢
      obtain ⟨sent, _ | _⟩ := r <;> exact hnot
    · exact List.not_mem_nil
  · exact List.not_mem_nil

/-- What follows a packet retransmits nothing. -/
theorem afterPacket_sent (self : Server) (e : Iteration) (outcome : PollOutcome)
    (packet : Ipv4Packet .Out) : .nonReply packet true ∉ (self.afterPacket e outcome).sent := by
  unfold afterPacket
  split
  · exact self.checkShutdown_sent e packet
  · exact List.not_mem_nil

/-- Nor does an exchange. -/
theorem exchange_sent (self : Server) (e : Iteration) (data : List UInt8)
    (packet : Ipv4Packet .Out) : .nonReply packet true ∉ (self.exchange e data).sent := by
  unfold exchange
  rcases self.engine.handlePacket ServerApp.application data e.randomU32 e.handledAt with
    ⟨(_ | _) | outcome, engine⟩
  · exact List.not_mem_nil
  · exact List.not_mem_nil
  · simp only
    cases outcome.reply with
    | none => exact List.not_mem_nil
    | some reply =>
      simp only
      cases sendPkt self.writeBuf reply with
      | error fault => exact List.not_mem_nil
      | ok out => simp

/-- Without a retransmission, a segment is served unless its connection is still there with a
    SND.UNA that is where it was or does not cover it. -/
theorem settled_iff {t : Turn} (hsent : ∀ packet, .nonReply packet true ∉ t.sent) :
    t.Settled key conn p ↔
      ∀ una, (t.server.engine.tcpConnections.get key).map (·.sndUna) = some una →
        una ≠ conn.sndUna ∧ p.isCoveredBy una = true := by
  constructor
  · intro h una huna
    cases h with
    | removed hnone => rw [hnone] at huna; cases huna
    -- nothing was retransmitted
    | retransmitted hpkt hmem => exact absurd hmem (hsent _)
    | acknowledged hget hne hcov =>
      rw [hget] at huna
      obtain rfl := Option.some.inj huna
      exact ⟨hne, hcov⟩
  · intro h
    cases hget : t.server.engine.tcpConnections.get key with
    | none => exact .removed hget
    | some conn' =>
      rw [hget] at h
      obtain ⟨hne, hcov⟩ := h _ rfl
      exact .acknowledged hget hne hcov

/-- A swept segment is served exactly as `sweeps` says. -/
theorem settled_retransmit (hget : self.engine.tcpConnections.get key = some conn)
    (hgoes : (self.retransmit e).control = .Continue) :
    (self.retransmit e).Settled key conn p ↔ conn.sweeps self.engine.tcpConnections.rtoConfig
      self.engine.tcpConnections.maxRetries e.sweptAt e.sweptLate p = true := by
  obtain ⟨-, hafter, -⟩ := self.engine.tcpConnections.makeRetransmissions_get e.sweptAt
    e.sweptLate key
  have hengine : (self.retransmit e).server.engine.tcpConnections
      = (self.engine.tcpConnections.makeRetransmissions e.sweptAt e.sweptLate).1 := by
    rw [retransmit_engine]; rfl
  obtain ⟨writeBuf, hall⟩ := sending_continue hgoes
  have hsent : ∀ packet, .nonReply packet true ∈ (self.retransmit e).sent ↔
      ∃ seg ∈ (self.engine.tcpConnections.makeRetransmissions e.sweptAt e.sweptLate).2,
        Ipv4Packet.tryFrom seg = .ok packet := fun packet =>
    (sendEach_ok hall packet).trans List.mem_map
  rw [hget, Option.bind_some] at hafter
  rw [ConnState.sweeps_eq]
  cases hre : conn.retransmit self.engine.tcpConnections.rtoConfig
      self.engine.tcpConnections.maxRetries e.sweptAt e.sweptLate with
  | none =>
    rw [hre] at hafter
    -- the sweep gave the connection up, which serves all its segments
    exact iff_of_true (.removed (by rw [hengine, hafter]; rfl)) nofun
  | some r =>
    obtain ⟨conn', resent⟩ := r
    rw [hre] at hafter
    have hresent := TcpConnections.outgoing_mem_makeRetransmissions hget hre
    constructor
    · rintro h _ _ ⟨⟩
      cases h with
      | removed hnone =>
        rw [hengine, hafter] at hnone
        cases hnone
      | retransmitted hpkt hmem =>
        obtain ⟨seg, hseg, hpkt'⟩ := (hsent _).mp hmem
        -- one packet carries one segment
        have hrouter := (Ipv4Packet.tryFromRouter_eq_ok hpkt).1.symm.trans
          (Ipv4Packet.tryFromRouter_eq_ok hpkt').1
        rw [← ProtocolRouter.Tcp.inj hrouter] at hseg
        exact (hresent _).mp hseg
      | acknowledged hget' hne =>
        rw [hengine, hafter] at hget'
        obtain rfl := Option.some.inj hget'
        -- a sweep acknowledges nothing
        exact absurd (ConnState.retransmit_sndUna hre) hne
    · intro h
      have hseg := (hresent _).mpr (h _ _ rfl)
      obtain ⟨packet, hpkt⟩ := sendEach_created hall _ (List.mem_map_of_mem hseg)
      exact .retransmitted hpkt ((hsent packet).mpr ⟨_, hseg, hpkt⟩)

/-- A shutdown signal alone serves nothing. -/
theorem not_settled_checkShutdown (hget : self.engine.tcpConnections.get key = some conn) :
    ¬ (self.checkShutdown e).Settled key conn p := by
  rw [settled_iff (self.checkShutdown_sent e), checkShutdown_sndUna, hget]
  exact fun h => (h _ rfl).1 rfl

/-- A packet serves a segment exactly as `answers` says. -/
theorem settled_exchange {t : Turn} {outcome : PollOutcome} {data : List UInt8}
    (hget : self.engine.tcpConnections.get key = some conn)
    (ht : t = ⟨((self.exchange e data).server.afterPacket e outcome).server,
      (self.exchange e data).sent ++ ((self.exchange e data).server.afterPacket e outcome).sent,
      .Continue⟩) :
    t.Settled key conn p ↔ (Engine.segmentOf data).any (fun seg =>
      decide (ConnKey.ofSegment seg = key) && conn.answers seg p) = true := by
  have hsent : ∀ packet, .nonReply packet true ∉ t.sent := by
    intro packet hmem
    rw [ht] at hmem
    rcases List.mem_append.mp hmem with hmem | hmem
    · exact self.exchange_sent e data packet hmem
    · exact afterPacket_sent _ e outcome packet hmem
  -- an entry that keeps its SND.UNA has not been served
  have hidle : ¬ ∀ una, some conn.sndUna = some una →
      una ≠ conn.sndUna ∧ p.isCoveredBy una = true := fun h => (h _ rfl).1 rfl
  rw [settled_iff hsent, ht, afterPacket_sndUna, exchange_engine, Engine.handlePacket_table]
  -- no segment for this connection leaves its entry alone
  cases hseg : Engine.segmentOf data with
  | none =>
    simp only
    rw [hget]
    exact iff_of_false hidle (by simp)
  | some seg =>
    have hentry := Host.segment_entry (h := self.engine.host) hget ServerApp.application seg
      e.randomU32 e.handledAt
    unfold Host.get at hentry
    simp only
    rw [hentry, Option.any_some]
    by_cases hk : ConnKey.ofSegment seg = key
    · rw [if_pos hk, decide_eq_true hk, Bool.true_and, ConnState.answers]
      cases hremoved : conn.removedBy seg with
      | true => exact iff_of_true (fun una h => by cases h) rfl
      | false =>
        rw [if_neg (by decide), Option.map_some, SendInfo.handleKnownConn_sndUna, Bool.false_or,
          Bool.and_eq_true, ConnState.unaAfter]
        cases hacks : conn.acceptsAck seg with
        | false => exact iff_of_false hidle (by simp)
        | true =>
          rw [if_pos rfl]
          constructor
          · exact fun h => ⟨rfl, (h _ rfl).2⟩
          · rintro ⟨-, hcov⟩ una ⟨⟩
            exact ⟨ConnState.acceptsAck_ne hacks, hcov⟩
    · rw [if_neg hk, decide_eq_false hk]
      exact iff_of_false hidle (by simp)

/-- **One iteration** serves a due segment exactly when `serves` says so. -/
theorem settled_turn (hgoes : self.GoesOn e)
    (hget : self.engine.tcpConnections.get key = some conn) :
    (self.turn e).Settled key conn p ↔ self.serves e key conn p = true := by
  have hwent := went_turn hgoes
  generalize self.turn e = t at hwent
  unfold serves
  cases hwent with
  | swept hpoll hcont =>
    rw [hpoll]
    exact settled_retransmit hget hcont
  | @exchanged outcome data x hread hdata hx =>
    subst hx
    rw [settled_exchange hget rfl, hread.1, hdata]
    rcases hread.2 with rfl | rfl <;> rfl
  -- `serves` is false as well: nothing timed out and nothing was read
  | signalled hpoll hread =>
    apply iff_of_false (not_settled_checkShutdown hget)
    cases hp : self.poll e with
    | Interrupted => nofun
    | Reported outcome =>
      cases outcome with
      | Shutdown => nofun
      | Timeout => exact absurd hp hpoll
      | Readable => rw [hread _ ⟨hp, .inl rfl⟩]; nofun
      | Both => rw [hread _ ⟨hp, .inr rfl⟩]; nofun

end Server

/-- **When timers are not starved.**  In every run of the loop, every iteration serves all the
    segments that are due when it starts exactly when each of them, in each iteration, is swept
    by a poll that times out or answered by the packet that is read. -/
theorem timers_served_iff (server : Server) (es : List Iteration)
    (hrun : Runs.Admits Server.step Server.GoesOn server es) :
    Runs.Admits Server.step Server.Settles server es ↔
      Runs.Admits Server.step Server.Serves server es :=
  hrun.congr fun _ _ hgoes =>
    ⟨fun h key conn p hdue => (Server.settled_turn hgoes hdue.get).mp (h key conn p hdue),
      fun h key conn p hdue => (Server.settled_turn hgoes hdue.get).mpr (h key conn p hdue)⟩

/-! ### Served and starved -/

/-- An iteration that takes all its readings of the clock at once, without a signal. -/
def Iteration.at (t : Instant) (outcome : PollOutcome) (data : List UInt8)
    (h : data.length ≤ ETHERNET_MTU) : Iteration where
  pollReadable _ _ := .Reported outcome
  shutdownCheck := false
  read := some data
  read_le := by rintro _ ⟨⟩; exact h
  randomU32 := .ok 400
  start := t
  startLate := t
  checkedAt := t
  sweptAt := t
  sweptLate := t
  handledAt := t
  signalledAt := t
  sentAt := t
  ordered := List.pairwise_replicate (n := 8).mpr (.inr (Nat.le_refl t.nanos))

/-- A server that retransmits after a second. -/
def ECHO_SERVER : Server := Server.new .Echo 1000000000 3 0

/-- A client's SYN. -/
def SYN_ITERATION : Iteration := .at ⟨0⟩ .Readable Engine.SYN_PACKET (by decide)

/-- Ten seconds later the poll times out. -/
def TIMEOUT_ITERATION : Iteration := .at ⟨10000000000⟩ .Timeout [] (by decide)

/-- Ten seconds later the device is readable. -/
def TRAFFIC_ITERATION : Iteration := .at ⟨10000000000⟩ .Readable UDP_REQUEST (by decide)

/-- The SYN-ACK is retransmitted when the poll times out. -/
theorem timers_served_timeout :
    Runs.Admits Server.step Server.Settles ECHO_SERVER [SYN_ITERATION, TIMEOUT_ITERATION] := by
  refine (timers_served_iff ECHO_SERVER [SYN_ITERATION, TIMEOUT_ITERATION]
    ⟨by decide +kernel, by decide +kernel, trivial⟩).mpr ⟨?_, ?_, trivial⟩
  · intro key conn p hdue
    cases hdue.get
  · intro key conn p hdue
    exact ConnState.sweeps_of_due _ hdue.pending hdue.due (Nat.le_refl _) rfl

/-- **Traffic starves the timers**: a SYN-ACK that has been due for nine seconds is not sent again,
    because the device is readable. -/
theorem timers_starved_by_traffic :
    ∃ es, Runs.Admits Server.step Server.GoesOn ECHO_SERVER es ∧
      ¬ Runs.Admits Server.step Server.Settles ECHO_SERVER es := by
  have hgoes : (ECHO_SERVER.step SYN_ITERATION).GoesOn TRAFFIC_ITERATION := by decide +kernel
  refine ⟨[SYN_ITERATION, TRAFFIC_ITERATION], ⟨by decide +kernel, hgoes, trivial⟩, ?_⟩
  rintro ⟨-, hsettles, -⟩
  -- evaluated: a segment that is due and that the iteration does not serve
  have hstarved : ((ECHO_SERVER.step SYN_ITERATION).engine.tcpConnections.get KEY).any (fun conn =>
      conn.pending.any fun p => ConnState.isDue
          (ECHO_SERVER.step SYN_ITERATION).engine.tcpConnections.rtoConfig ⟨10000000000⟩
          ⟨10000000000⟩ p
        && !(ECHO_SERVER.step SYN_ITERATION).serves TRAFFIC_ITERATION KEY conn p) = true := by
    decide +kernel
  cases hget : (ECHO_SERVER.step SYN_ITERATION).engine.tcpConnections.get KEY with
  | none => rw [hget] at hstarved; cases hstarved
  | some conn =>
    rw [hget, Option.any_some] at hstarved
    obtain ⟨p, hp, hboth⟩ := List.any_eq_true.mp hstarved
    rw [Bool.and_eq_true, Bool.not_eq_true', ConnState.isDue, decide_eq_true_eq] at hboth
    have hserved := (Server.settled_turn hgoes hget).mp (hsettles KEY conn p ⟨hget, hp, hboth.1⟩)
    rw [hboth.2] at hserved
    cases hserved

end Typenet

import Typenet.Server.Sending
import Typenet.Server.Timers

namespace Typenet

/-!
# The end of draining

A draining worker has two reasons to exit: no connection is mid-close any more, or the shutdown
deadline has passed.  The loop looks for the first only after a packet and for the second only
after a poll that times out, so an iteration may start with either reason and still go on.
`draining_ends_iff` says which iterations end the loop, in every run; traffic past the deadline
keeps it going (`draining_outlives_deadline`).
-/

namespace Server

/-! ### When draining should end, and when it does -/

/-- A draining server that starts an iteration without a connection mid-close, or past the
    shutdown deadline. -/
def MustEnd (self : Server) (e : Iteration) : Prop :=
  ∃ deadline, self.engine.shutdownDeadline = some deadline ∧
    (self.engine.tcpConnections.closingInProgress = false ∨ deadline ≤ e.start)

/-- **The loop exits where it should**, and so polls no more. -/
def EndsInTime (self : Server) (e : Iteration) : Prop := self.MustEnd e → ¬ self.GoesOn e

/-- Whether a connection is mid-close after a packet has been handled. -/
def StillClosing (self : Server) (data : List UInt8) : Prop :=
  match Engine.segmentOf data with
  | some seg => self.engine.tcpConnections.ClosesAfter seg
  | none => self.engine.tcpConnections.closingInProgress = true

/-- What ends a draining loop: a poll that times out past the deadline, and a packet that leaves
    no connection mid-close or whose reply cannot be sent. -/
def Ends (self : Server) (e : Iteration) : Prop :=
  match self.poll e with
  | .Reported .Timeout => self.engine.gracePeriodElapsed e.checkedAt = true
  | .Reported .Readable | .Reported .Both =>
    ∃ data ∈ e.read, Oversized data ∨ ¬ self.StillClosing data
  | _ => False

/-- The iterations that should end the loop are of the kind that does. -/
def EndsWhenDue (self : Server) (e : Iteration) : Prop := self.MustEnd e → self.Ends e

variable {self : Server} {e : Iteration} {deadline : Instant}

/-! ### One iteration of a draining server -/

/-- A server that drains already does not react to another signal. -/
theorem checkShutdown_draining (h : self.engine.shutdownDeadline = some deadline) :
    (self.checkShutdown e).control = .Continue ∧
      (self.checkShutdown e).server.engine = self.engine := by
  have hdraining : self.engine.handleShutdown e.signalledAt e.sentAt
      = (.ok (.AlreadyDraining (deadline.saturatingDurationSince e.signalledAt)), self.engine) := by
    unfold Engine.handleShutdown
    rw [h]
  unfold checkShutdown handleShutdownInterrupt
  rw [hdraining]
  split <;> exact ⟨rfl, rfl⟩

theorem afterPacket_draining (h : self.engine.shutdownDeadline = some deadline)
    (outcome : PollOutcome) :
    (self.afterPacket e outcome).control = .Continue ∧
      (self.afterPacket e outcome).server.engine = self.engine := by
  unfold afterPacket
  split
  · exact checkShutdown_draining h
  · exact ⟨rfl, rfl⟩

/-- A packet leaves the deadline alone. -/
theorem exchange_deadline (self : Server) (e : Iteration) (data : List UInt8) :
    (self.exchange e data).server.engine.shutdownDeadline = self.engine.shutdownDeadline := by
  rw [exchange_engine]
  unfold Engine.handlePacket
  split <;> rfl

/-- What a packet leaves mid-close. -/
theorem exchange_closing (self : Server) (e : Iteration) (data : List UInt8) :
    (self.exchange e data).server.engine.tcpConnections.closingInProgress = true ↔
      self.StillClosing data := by
  rw [exchange_engine, Engine.handlePacket_table]
  unfold StillClosing
  cases Engine.segmentOf data with
  | none => exact Iff.rfl
  | some seg => exact self.engine.host.segment_closing ServerApp.application seg _ _

/-- **Which packets end a draining loop.** -/
theorem readAndReply_draining {outcome : PollOutcome}
    (h : self.engine.shutdownDeadline = some deadline) (hbuf : self.Buffered) :
    (self.readAndReply e outcome).control = .Continue ↔
      ¬ ∃ data ∈ e.read, Oversized data ∨ ¬ self.StillClosing data := by
  unfold readAndReply
  cases hread : e.read with
  -- the read would have blocked, and another signal does not end the loop
  | none => exact iff_of_true (checkShutdown_draining h).1 nofun
  | some data =>
    have hdeadline := (self.exchange_deadline e data).trans h
    -- the exchange fails for an oversized packet only
    have hgoes := exchange_continue_iff (e := e) hbuf (e.read_le data hread)
    obtain ⟨hafter, hengine⟩ := afterPacket_draining (e := e) hdeadline outcome
    -- the deadline is set, so draining is complete when nothing is mid-close
    have hdrained : (self.exchange e data).server.engine.drainingComplete = false ↔
        self.StillClosing data := by
      rw [← self.exchange_closing e data]
      unfold Engine.drainingComplete
      rw [hdeadline]
      simp
    have hlast : ¬ (∃ d ∈ some data, Oversized d ∨ ¬ self.StillClosing d) ↔
        ¬ Oversized data ∧ self.StillClosing data := by simp
    rw [hlast, ← hgoes, ← hdrained, ← hengine, ← checkDrained_continue]
    simp only [Turn.andThen]
    cases hx : (self.exchange e data).control with
    | Continue =>
      simp only [hafter]
      simp
    | Done | Failed => simp [hx]

/-- **Which iterations end a draining loop.** -/
theorem goesOn_draining (h : self.engine.shutdownDeadline = some deadline) (hbuf : self.Buffered)
    (hfits : ∀ key conn, self.engine.tcpConnections.get key = some conn → PendingFits conn) :
    self.GoesOn e ↔ ¬ self.Ends e := by
  unfold GoesOn turn Ends
  cases self.poll e with
  | Interrupted => exact iff_of_true (checkShutdown_draining h).1 id
  | Reported outcome =>
    cases outcome with
    | Readable | Both => exact readAndReply_draining h hbuf
    | Shutdown => exact iff_of_true (checkShutdown_draining h).1 id
    | Timeout =>
      simp only
      split
      -- a timeout past the deadline ends the loop, an earlier one only sweeps
      case isTrue hover => exact iff_of_false (fun h => by cases h) fun hno => hno hover
      case isFalse hgrace => exact iff_of_true (retransmit_continue hbuf hfits) hgrace

/-- A server that is not draining need not end. -/
theorem endsWhenDue_serving (h : self.engine.shutdownDeadline = none) : self.EndsWhenDue e := by
  rintro ⟨deadline, hdeadline, -⟩
  rw [h] at hdeadline
  cases hdeadline

end Server

/-! ### Runs of the loop -/

/-- A new server has a whole write buffer. -/
theorem Server.buffered_new (app : ServerApp) (initialRto : Duration) (maxRetries : UInt8)
    (gracePeriod : Duration) : (Server.new app initialRto maxRetries gracePeriod).Buffered :=
  List.length_replicate

/-- **When draining ends.**  In every run of the loop, no iteration outlives a reason to exit
    exactly when each iteration that starts with one polls a timeout past the deadline or reads a
    packet that leaves no connection mid-close or whose reply cannot be sent. -/
theorem draining_ends_iff (app : ServerApp) (initialRto : Duration) (maxRetries : UInt8)
    (gracePeriod : Duration) (es : List Iteration)
    (hrun : Runs.Admits Server.step Server.GoesOn
      (Server.new app initialRto maxRetries gracePeriod) es.dropLast) :
    Runs.Admits Server.step Server.EndsInTime
        (Server.new app initialRto maxRetries gracePeriod) es ↔
      Runs.Admits Server.step Server.EndsWhenDue
        (Server.new app initialRto maxRetries gracePeriod) es := by
  -- the invariant: a whole write buffer, and an engine that events have led to
  refine hrun.congr_invariant
    (I := fun t => t.Buffered ∧ t.EngineReached app initialRto maxRetries gracePeriod)
    ⟨Server.buffered_new _ _ _ _, [], .nil⟩ ?_ ?_
  · rintro t e ⟨hbuf, hreached⟩ hgoes
    exact ⟨hbuf.step hgoes, hreached.step hgoes⟩
  · rintro t e ⟨hbuf, evs, hevs⟩
    -- so every segment that a sweep resends can be sent
    have hfits : ∀ key conn, t.engine.tcpConnections.get key = some conn → PendingFits conn :=
      fun key conn => Engine.conn_invariant pendingFits_opened
        (fun _ _ _ _ _ _ hp hs => hp.step hs) hevs
    apply forall_congr'
    intro hmust
    obtain ⟨deadline, hdeadline, -⟩ := hmust
    rw [Server.goesOn_draining hdeadline hbuf hfits, not_not]

/-! ### Drained and draining on -/

/-- The client completes the handshake. -/
def ACK_ITERATION : Iteration := .at ⟨1⟩ .Readable Engine.ACK_PACKET (by decide)

/-- A shutdown is signalled. -/
def SHUTDOWN_ITERATION : Iteration :=
  { ACK_ITERATION with pollReadable := fun _ _ => .Reported .Shutdown, shutdownCheck := true }

/-- The server after the signal, with a FIN unacknowledged and no grace period. -/
def DRAINING_SERVER : Server :=
  ((ECHO_SERVER.step SYN_ITERATION).step ACK_ITERATION).step SHUTDOWN_ITERATION

/-- The run that leads there. -/
theorem drainingServer_run : Runs.Admits Server.step Server.GoesOn ECHO_SERVER
    [SYN_ITERATION, ACK_ITERATION, SHUTDOWN_ITERATION] :=
  ⟨by decide +kernel, by decide +kernel, by decide +kernel, trivial⟩

/-- The loop of a server without a grace period ends when the poll times out. -/
theorem draining_ends_timeout :
    Runs.Admits Server.step Server.EndsInTime ECHO_SERVER
      [SYN_ITERATION, ACK_ITERATION, SHUTDOWN_ITERATION, TIMEOUT_ITERATION] := by
  have helapsed : DRAINING_SERVER.engine.gracePeriodElapsed TIMEOUT_ITERATION.checkedAt = true := by
    decide +kernel
  apply (draining_ends_iff .Echo 1000000000 3 0
    [SYN_ITERATION, ACK_ITERATION, SHUTDOWN_ITERATION, TIMEOUT_ITERATION] drainingServer_run).mpr
  exact ⟨Server.endsWhenDue_serving rfl, Server.endsWhenDue_serving (by decide +kernel),
    Server.endsWhenDue_serving (by decide +kernel), fun _ => helapsed, trivial⟩

/-- **Traffic outlives the deadline**: a draining server past its deadline goes on, because the
    device is readable. -/
theorem draining_outlives_deadline :
    ∃ es, Runs.Admits Server.step Server.GoesOn ECHO_SERVER es ∧
      ¬ Runs.Admits Server.step Server.EndsInTime ECHO_SERVER es := by
  have hgoes : DRAINING_SERVER.GoesOn TRAFFIC_ITERATION := by decide +kernel
  have hdeadline : DRAINING_SERVER.engine.shutdownDeadline = some ⟨1⟩ := by decide +kernel
  have hmust : DRAINING_SERVER.MustEnd TRAFFIC_ITERATION := ⟨⟨1⟩, hdeadline, .inr (by decide)⟩
  obtain ⟨hsyn, hack, hshutdown, -⟩ := drainingServer_run
  refine ⟨[SYN_ITERATION, ACK_ITERATION, SHUTDOWN_ITERATION, TRAFFIC_ITERATION],
    ⟨hsyn, hack, hshutdown, hgoes, trivial⟩, ?_⟩
  rintro ⟨-, -, -, hends, -⟩
  exact hends hmust hgoes

end Typenet

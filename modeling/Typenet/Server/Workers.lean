import Typenet.Server.Draining
import Typenet.Server.Poll
import Typenet.Server.Solicited

namespace Typenet

/-!
# Workers and the shutdown signal

`main` spawns workers, each of which runs the loop on a queue of its own.  All that they share is
the shutdown signal: a flag, and an eventfd that a worker polls until it has reacted.  The kernel
delivers SIGINT to one of the threads; the handler stores the flag there and then writes the
eventfd.  No other thread is interrupted.

A `Process` takes the steps of its threads one at a time, in any order.  An iteration of a loop is
two of them: its poll returns, and later the rest of it runs, which loads the flag at most once.
The load is relaxed, so it may miss what another thread has stored, unless something has shown the
thread already that the flag is stored; that it does not miss it then is assumed.

* `shutdown_reaches_every_worker` — once the eventfd is written, a worker whose poll reports
  anything, and is not interrupted, ends with that iteration or drains under a deadline;
* `shutdown_needs_sigint` — without SIGINT no worker drains, and none ends without a fault.
-/

/-! ### What one iteration makes of the signal -/

/-- The server that a turn of two parts leaves behind. -/
theorem Turn.andThen_server (t : Turn) (f : Server → Turn) : (t.andThen f).server
    = if t.control = .Continue then (f t.server).server else t.server := by
  unfold andThen
  cases hc : t.control <;> simp

namespace Server

variable {self : Server} {e : Iteration}

/-- The server has reacted to a signal exactly if its engine has a deadline.  A loop that goes on
    keeps it so. -/
def Steady (self : Server) : Prop := self.engine.shutdownDeadline.isSome = self.draining

/-- Sending has nothing to do with draining. -/
theorem sending_draining (self : Server) (r : List Transmission × Res (List UInt8)) :
    (self.sending r).server.draining = self.draining := by
  obtain ⟨sent, _ | _⟩ := r <;> rfl

/-- Nor has a sweep. -/
theorem retransmit_draining (self : Server) (e : Iteration) :
    (self.retransmit e).server.draining = self.draining := sending_draining _ _

/-- A check for shutdown that finds the flag stored makes the server drain. -/
theorem checkShutdown_draining_eq (self : Server) (e : Iteration) :
    (self.checkShutdown e).server.draining = (self.draining || e.shutdownCheck) := by
  unfold checkShutdown
  split
  case isTrue hcheck =>
    rw [hcheck, Bool.or_true]
    unfold handleShutdownInterrupt
    rcases self.engine.handleShutdown e.signalledAt e.sentAt with ⟨_ | (_ | _ | _), engine⟩
    · rfl
    · rfl
    · exact sending_draining _ _
    · rfl
  case isFalse hcheck => simp [hcheck]

/-- After a packet a server drains if the poll has reported the signal and the flag is loaded as
    stored. -/
theorem afterPacket_draining_eq (self : Server) (e : Iteration) (outcome : PollOutcome) :
    (self.afterPacket e outcome).server.draining
      = (self.draining || (decide (outcome = .Both) && e.shutdownCheck)) := by
  unfold afterPacket
  split
  case isTrue hboth => simp [checkShutdown_draining_eq, hboth]
  case isFalse hboth => simp [hboth]

/-- An exchange has nothing to do with draining. -/
theorem exchange_draining (self : Server) (e : Iteration) (data : List UInt8) :
    (self.exchange e data).server.draining = self.draining := by
  unfold exchange
  rcases self.engine.handlePacket ServerApp.application data e.randomU32 e.handledAt with
    ⟨(_ | _) | outcome, engine⟩
  · rfl
  · rfl
  · simp only
    cases outcome.reply with
    | none => rfl
    | some reply =>
      simp only
      cases sendPkt self.writeBuf reply <;> rfl

/-- A reaction that goes on leaves a deadline. -/
theorem handleShutdownInterrupt_deadline {now sentAt : Instant}
    (hgoes : (self.handleShutdownInterrupt now sentAt).control = .Continue) :
    (self.engine.handleShutdown now sentAt).2.shutdownDeadline.isSome = true := by
  cases hdeadline : self.engine.shutdownDeadline with
  | some deadline => simp [Engine.handleShutdown, hdeadline]
  | none =>
    unfold handleShutdownInterrupt at hgoes
    obtain ⟨after, toSend, -, -, hout⟩ := Engine.handleShutdown_first hdeadline now sentAt
    -- the loop ends where nothing is left to drain, and where the deadline overflows
    rcases hout with ⟨-, hout⟩ | ⟨-, -, hout⟩ | ⟨-, -, err, hout⟩
    · rw [hout] at hgoes
      cases hgoes
    · rw [hout]
      rfl
    · rw [hout] at hgoes
      cases hgoes

/-- A check that goes on has left a deadline if it has found the flag stored. -/
theorem checkShutdown_steady (h : self.Steady) (hgoes : (self.checkShutdown e).control = .Continue) :
    (self.checkShutdown e).server.Steady := by
  unfold Steady
  rw [checkShutdown_draining_eq, checkShutdown_engine]
  by_cases hcheck : e.shutdownCheck = true
  · have hturn : self.checkShutdown e = self.handleShutdownInterrupt e.signalledAt e.sentAt :=
      if_pos hcheck
    rw [hturn] at hgoes
    rw [if_pos hcheck, hcheck, Bool.or_true]
    exact handleShutdownInterrupt_deadline hgoes
  · rw [if_neg hcheck, Bool.eq_false_iff.mpr hcheck, Bool.or_false]
    exact h

/-- What follows a packet keeps a server steady if the loop goes on. -/
theorem afterPacket_steady (h : self.Steady) {outcome : PollOutcome}
    (hgoes : (self.afterPacket e outcome).control = .Continue) :
    (self.afterPacket e outcome).server.Steady := by
  unfold afterPacket at hgoes ⊢
  split at hgoes
  case isTrue hboth =>
    rw [if_pos hboth]
    exact checkShutdown_steady h hgoes
  case isFalse hboth =>
    rw [if_neg hboth]
    exact h

/-- **An iteration that goes on** keeps a server steady. -/
theorem Steady.step (h : self.Steady) (hgoes : self.GoesOn e) : (self.step e).Steady := by
  have hwent := went_turn hgoes
  unfold Server.step
  generalize self.turn e = t at hwent
  cases hwent with
  | swept =>
    unfold Steady
    rw [retransmit_engine, retransmit_draining]
    exact h
  | @exchanged outcome data x hread hdata hx hgoes hafter =>
    have hx' : x.server.Steady := by
      unfold Steady
      rw [hx, exchange_engine, exchange_draining, ← h]
      unfold Engine.handlePacket
      split <;> rfl
    exact afterPacket_steady hx' hafter
  | signalled hpoll hread hgoes => exact checkShutdown_steady h hgoes

/-- A new server is steady. -/
theorem steady_new (app : ServerApp) (initialRto : Duration) (maxRetries : UInt8)
    (gracePeriod : Duration) : (new app initialRto maxRetries gracePeriod).Steady := rfl

/-- A turn of two parts ends well in the one or in the other. -/
theorem done_andThen {t : Turn} {f : Server → Turn} (h : (t.andThen f).control = .Done) :
    t.control = .Done ∨ (t.control = .Continue ∧ (f t.server).control = .Done) := by
  unfold Turn.andThen at h
  cases hc : t.control with
  | Continue =>
    rw [hc] at h
    exact .inr ⟨rfl, h⟩
  | Done => exact .inl rfl
  | Failed fault =>
    rw [hc] at h
    cases hc.symm.trans h

/-- A check for shutdown ends the loop only if the flag is loaded as stored. -/
theorem checkShutdown_done (h : (self.checkShutdown e).control = .Done) :
    e.shutdownCheck = true := by
  by_contra hcheck
  have hturn : self.checkShutdown e = ⟨self, [], .Continue⟩ := if_neg hcheck
  rw [hturn] at h
  cases h

/-- Sending fails or goes on. -/
theorem sending_ne_done (self : Server) (r : List Transmission × Res (List UInt8)) :
    (self.sending r).control ≠ .Done := by
  obtain ⟨sent, _ | _⟩ := r <;> simp [sending]

/-- An exchange fails or goes on. -/
theorem exchange_ne_done (self : Server) (e : Iteration) (data : List UInt8) :
    (self.exchange e data).control ≠ .Done := by
  unfold exchange
  rcases self.engine.handlePacket ServerApp.application data e.randomU32 e.handledAt with
    ⟨(_ | _) | outcome, engine⟩
  · simp
  · simp
  · simp only
    cases outcome.reply with
    | none => simp
    | some reply =>
      simp only
      cases sendPkt self.writeBuf reply <;> simp

/-- Draining is complete only under a deadline. -/
theorem checkDrained_done (h : self.checkDrained.control = .Done) :
    self.engine.shutdownDeadline.isSome = true := by
  unfold checkDrained Engine.drainingComplete at h
  by_contra hnone
  rw [Bool.eq_false_iff.mpr hnone] at h
  cases h

/-- A loop ends well only if it drains already or finds the flag stored. -/
theorem turn_done (h : self.Steady) (hdone : (self.turn e).control = .Done) :
    self.draining = true ∨ e.shutdownCheck = true := by
  have hread : ∀ outcome, (self.readAndReply e outcome).control = .Done →
      self.draining = true ∨ e.shutdownCheck = true := by
    intro outcome hdone
    unfold readAndReply at hdone
    cases hdata : e.read with
    | none =>
      rw [hdata] at hdone
      exact .inr (checkShutdown_done hdone)
    | some data =>
      rw [hdata] at hdone
      have hx : (self.exchange e data).server.Steady := by
        unfold Steady
        rw [exchange_deadline, exchange_draining]
        exact h
      rcases done_andThen hdone with hmid | ⟨hmid, hlast⟩
      · rcases done_andThen hmid with hfirst | ⟨-, hafter⟩
        · exact absurd hfirst (self.exchange_ne_done e data)
        · unfold afterPacket at hafter
          split at hafter
          · exact .inr (checkShutdown_done hafter)
          · cases hafter
      · -- the deadline that draining has met was set before or in this iteration
        obtain ⟨-, hafter, heq⟩ := Turn.andThen_continue hmid
        have hdeadline := checkDrained_done hlast
        rw [heq] at hdeadline
        have hdraining := (afterPacket_steady hx hafter).symm.trans hdeadline
        rw [afterPacket_draining_eq, exchange_draining, Bool.or_eq_true, Bool.and_eq_true]
          at hdraining
        exact hdraining.imp_right And.right
  unfold turn at hdone
  cases hpoll : self.poll e with
  | Interrupted =>
    rw [hpoll] at hdone
    exact .inr (checkShutdown_done hdone)
  | Reported outcome =>
    rw [hpoll] at hdone
    cases outcome with
    | Shutdown => exact .inr (checkShutdown_done hdone)
    | Readable => exact hread .Readable hdone
    | Both => exact hread .Both hdone
    | Timeout =>
      simp only at hdone
      split at hdone
      case isTrue hgrace =>
        left
        obtain ⟨deadline, hdeadline, -⟩ := Option.any_eq_true _ _ |>.mp hgrace
        rw [← h, hdeadline]
        rfl
      case isFalse => exact absurd hdone (sending_ne_done _ _)

/-- An iteration lets the server drain only if it drains already or finds the flag stored. -/
theorem turn_draining_eq (self : Server) (e : Iteration) : ∃ reacts : Bool,
    (self.turn e).server.draining = (self.draining || reacts) ∧
      (reacts = true → e.shutdownCheck = true) := by
  have hcheck : ∀ self : Server, ∃ reacts : Bool,
      (self.checkShutdown e).server.draining = (self.draining || reacts) ∧
        (reacts = true → e.shutdownCheck = true) :=
    fun self => ⟨e.shutdownCheck, self.checkShutdown_draining_eq e, id⟩
  have hread : ∀ outcome, ∃ reacts : Bool,
      (self.readAndReply e outcome).server.draining = (self.draining || reacts) ∧
        (reacts = true → e.shutdownCheck = true) := by
    intro outcome
    unfold readAndReply
    cases e.read with
    | none => exact hcheck self
    | some data =>
      -- looking for the end of draining changes nothing
      have hlast : ∀ t : Turn, (t.andThen checkDrained).server = t.server := by
        intro t
        rw [Turn.andThen_server]
        split <;> rfl
      simp only [hlast, Turn.andThen_server]
      split
      · refine ⟨decide (outcome = .Both) && e.shutdownCheck, ?_, fun h => ?_⟩
        · rw [afterPacket_draining_eq, exchange_draining]
        · exact ((Bool.and_eq_true _ _).mp h).2
      · exact ⟨false, by rw [exchange_draining, Bool.or_false], by simp⟩
  unfold turn
  cases self.poll e with
  | Interrupted => exact hcheck self
  | Reported outcome =>
    cases outcome with
    | Shutdown => exact hcheck self
    | Readable => exact hread .Readable
    | Both => exact hread .Both
    | Timeout =>
      refine ⟨false, ?_, by simp⟩
      rw [Bool.or_false]
      simp only
      split
      · rfl
      · exact self.retransmit_draining e

/-- **A signal is reacted to**: after a poll that was interrupted or has seen the eventfd, an
    iteration that goes on and finds the flag stored leaves the server draining. -/
theorem turn_reacts (hgoes : self.GoesOn e) (hcheck : e.shutdownCheck = true)
    (hpoll : self.poll e ≠ .Reported .Timeout ∧ self.poll e ≠ .Reported .Readable) :
    (self.step e).draining = true := by
  have hwent := went_turn hgoes
  unfold Server.step
  generalize self.turn e = t at hwent
  cases hwent with
  | swept htimeout => exact absurd htimeout hpoll.1
  | @exchanged outcome data x hread hdata hx =>
    have hboth : outcome = .Both := hread.2.resolve_left fun h => hpoll.2 (h ▸ hread.1)
    show (x.server.afterPacket e outcome).server.draining = true
    rw [afterPacket_draining_eq, hboth, hcheck]
    simp
  | signalled => rw [checkShutdown_draining_eq, hcheck, Bool.or_true]

end Server

/-! ### The process -/

/-- How far a thread is in `shutdown_signal_handler`. -/
inductive HandlerPhase
  | Idle
  /-- The flag is not stored yet. -/
  | Entered
  /-- The flag is stored; the eventfd is not written yet. -/
  | Stored
  deriving DecidableEq, Repr

/-- Where a worker is in its loop. -/
inductive WorkerPhase
  | Polling
  /-- The poll of this iteration has returned. -/
  | Woken (polled : Polled)
  | Ended (result : Except Fault Unit)

/-- Where the loop is after an iteration. -/
def WorkerPhase.after : LoopControl → WorkerPhase
  | .Continue => .Polling
  | .Done => .Ended (.ok ())
  | .Failed fault => .Ended (.error fault)

structure Worker where
  server : Server
  phase : WorkerPhase

/-- The loop has been left. -/
def Worker.HasEnded (self : Worker) : Prop := ∃ result, self.phase = .Ended result

/-- The threads of the process and what they share; `none` is the main thread. -/
structure Process (ι : Type) where
  workers : ι → Worker
  handlers : Option ι → HandlerPhase
  /-- `SHUTDOWN_FLAG`. -/
  flag : Bool
  /-- The thread cannot but load the flag as stored: it has stored it itself, has loaded it as
      stored, or has seen the eventfd readable, which is written after the flag is stored. -/
  synced : Option ι → Bool
  /-- The counter of the shutdown eventfd.  Nothing reads it. -/
  eventfd : Nat
  aborted : Bool

/-- `size_of::<u64>()`. -/
def SIZE_OF_U64 : Int := 8

/-- `libc::EINTR`. -/
def EINTR : Int := 4

namespace Process

variable {ι : Type} [DecidableEq ι]

/-- One step of one thread. -/
inductive Event (ι : Type)
  /-- SIGINT is delivered to the thread, which enters the handler. -/
  | sigint (thread : Option ι)
  /-- The handler stores the flag. -/
  | store (thread : Option ι)
  /-- The handler's `write` to the eventfd returns. -/
  | write (thread : Option ι) (bytesWritten errno : Int)
  /-- The poll of a worker returns. -/
  | wake (w : ι) (polled : Polled)
  /-- A worker goes through the rest of its iteration. -/
  | turn (w : ι) (e : Iteration)

/-- All workers are at their first poll, and no signal has been delivered. -/
def new (server : Server) : Process ι where
  workers _ := ⟨server, .Polling⟩
  handlers _ := .Idle
  flag := false
  synced _ := false
  eventfd := 0
  aborted := false

/-- Replaces one worker. -/
def setWorker (self : Process ι) (w : ι) (worker : Worker) : Process ι :=
  { self with workers := Function.update self.workers w worker }

/-- Once a thread is synchronized it stays so. -/
def sync (self : Process ι) (thread : Option ι) (synced : Bool) : Process ι :=
  { self with synced := Function.update self.synced thread (self.synced thread || synced) }

/-- The loop of the handler after a `write`. -/
def written (self : Process ι) (thread : Option ι) (bytesWritten errno : Int) : Process ι :=
  if bytesWritten = SIZE_OF_U64 then
    { self with
      eventfd := self.eventfd + 1
      handlers := Function.update self.handlers thread .Idle }
  -- interrupted by another signal: once more
  else if bytesWritten < 0 ∧ errno = EINTR then self
  else { self with aborted := true }

/-- The poll has reported the eventfd readable. -/
def reportsShutdown (polled : Polled) : Bool :=
  decide (polled = .Reported .Shutdown ∨ polled = .Reported .Both)

/-- The process after a step of a thread. -/
def step (self : Process ι) : Event ι → Process ι
  | .sigint thread =>
    { self with handlers := Function.update self.handlers thread .Entered }
  | .store thread =>
    ({ self with
      flag := true
      handlers := Function.update self.handlers thread .Stored }).sync thread true
  | .write thread bytesWritten errno => self.written thread bytesWritten errno
  | .wake w polled =>
    (self.setWorker w ⟨(self.workers w).server, .Woken polled⟩).sync (some w)
      (reportsShutdown polled)
  | .turn w e =>
    let t := (self.workers w).server.turn e
    (self.setWorker w ⟨t.server, .after t.control⟩).sync (some w) e.shutdownCheck

/-- The thread can take a step of its loop: it is not in the handler. -/
def AtLoop (self : Process ι) (w : ι) (phase : WorkerPhase) : Prop :=
  self.handlers (some w) = .Idle ∧ (self.workers w).phase = phase

/-- **What can happen next.**  A handler runs on a thread that is alive, and no other one runs there
    before it returns.  A poll that is not interrupted reports the eventfd exactly if it is polled
    and has been written.  A load of the flag yields what has been stored.  That a thread which is
    synchronized does not miss it is an assumption on when stores become visible: the load is
    relaxed, so the language alone does not promise it. -/
def Permitted (self : Process ι) (ev : Event ι) : Prop :=
  self.aborted = false ∧ match ev with
  | .sigint thread =>
    self.handlers thread = .Idle ∧ ∀ w, thread = some w → ¬ (self.workers w).HasEnded
  | .store thread => self.handlers thread = .Entered
  | .write thread _ _ => self.handlers thread = .Stored
  | .wake w polled => self.AtLoop w .Polling ∧ (polled ≠ .Interrupted →
      (reportsShutdown polled = true ↔
        (self.workers w).server.draining = false ∧ 0 < self.eventfd))
  | .turn w e => self.AtLoop w (.Woken ((self.workers w).server.poll e)) ∧
      (e.shutdownCheck = true → self.flag = true) ∧
      (self.synced (some w) = true → e.shutdownCheck = true)

end Process

/-- What the state of a worker says of the flag and of its thread. -/
structure Worker.Sound (flag synced : Bool) (worker : Worker) : Prop where
  woken : ∀ polled, worker.phase = .Woken polled → Process.reportsShutdown polled = true →
    synced = true
  draining : worker.server.draining = true → flag = true
  ended : worker.phase = .Ended (.ok ()) → flag = true
  steady : worker.HasEnded ∨ worker.server.Steady

namespace Worker.Sound

variable {flag flag' synced synced' : Bool} {self : Worker}

/-- More may be known of the flag and of the thread. -/
theorem mono (h : self.Sound flag synced) (hflag : flag = true → flag' = true)
    (hsynced : synced = true → synced' = true) : self.Sound flag' synced' where
  woken polled hphase hreports := hsynced (h.woken polled hphase hreports)
  draining hdraining := hflag (h.draining hdraining)
  ended hended := hflag (h.ended hended)
  steady := h.steady

/-- The poll of the worker returns. -/
theorem wake (h : self.Sound flag synced) (hphase : self.phase = .Polling) (polled : Polled) :
    Worker.Sound flag (synced || Process.reportsShutdown polled) ⟨self.server, .Woken polled⟩ where
  woken polled' hwoken hreports := by
    obtain rfl := WorkerPhase.Woken.inj hwoken
    rw [hreports, Bool.or_true]
  draining := h.draining
  ended hended := by cases hended
  steady := by
    right
    apply h.steady.resolve_left
    rintro ⟨result, hended⟩
    cases hphase.symm.trans hended

/-- The worker goes through the rest of its iteration. -/
theorem turn (h : self.Sound flag synced) {polled : Polled} (hphase : self.phase = .Woken polled)
    {e : Iteration} (hcheck : e.shutdownCheck = true → flag = true) :
    Worker.Sound flag (synced || e.shutdownCheck)
      ⟨(self.server.turn e).server, .after (self.server.turn e).control⟩ := by
  have hsteady : self.server.Steady := by
    apply h.steady.resolve_left
    rintro ⟨result, hended⟩
    cases hphase.symm.trans hended
  refine ⟨fun polled' hwoken => ?_, fun hdraining => ?_, fun hended => ?_, ?_⟩
  · cases hc : (self.server.turn e).control <;> rw [hc] at hwoken <;> cases hwoken
  · obtain ⟨reacts, heq, hreacts⟩ := self.server.turn_draining_eq e
    rcases (Bool.or_eq_true _ _).mp (heq.symm.trans hdraining) with hold | hnew
    · exact h.draining hold
    · exact hcheck (hreacts hnew)
  · have hdone : (self.server.turn e).control = .Done := by
      cases hc : (self.server.turn e).control with
      | Done => rfl
      | Continue | Failed => rw [hc] at hended; cases hended
    rcases Server.turn_done hsteady hdone with hold | hnew
    · exact h.draining hold
    · exact hcheck hnew
  · cases hc : (self.server.turn e).control with
    | Continue => exact .inr (hsteady.step hc)
    | Done => exact .inl ⟨_, rfl⟩
    | Failed => exact .inl ⟨_, rfl⟩

end Worker.Sound

namespace Process

variable {ι : Type} [DecidableEq ι] {self : Process ι}

/-- The flag is stored wherever something says that it is. -/
structure Invariant (process : Process ι) : Prop where
  stored : ∀ thread, process.handlers thread = .Stored → process.flag = true
  written : 0 < process.eventfd → process.flag = true
  synced : ∀ thread, process.synced thread = true → process.flag = true
  sound : ∀ w, (process.workers w).Sound process.flag (process.synced (some w))

omit [DecidableEq ι] in
/-- A process starts without a signal. -/
theorem invariant_new {server : Server} (hdraining : server.draining = false)
    (hsteady : server.Steady) : (Process.new server : Process ι).Invariant where
  stored thread h := by cases h
  written h := absurd h (Nat.lt_irrefl 0)
  synced thread h := by cases h
  sound w := by
    refine ⟨fun polled h => ?_, fun h => ?_, fun h => ?_, .inr hsteady⟩
    · cases h
    · exact absurd (hdraining.symm.trans h) (by decide)
    · cases h

/-- A handler that moves on is the only one that does. -/
theorem stored_update {thread : Option ι} {phase : HandlerPhase} {flag : Bool}
    (h : ∀ thread, self.handlers thread = .Stored → flag = true) (hphase : phase ≠ .Stored)
    (thread' : Option ι) (hstored : Function.update self.handlers thread phase thread' = .Stored) :
    flag = true := by
  by_cases ht : thread' = thread
  · subst ht
    rw [Function.update_self] at hstored
    exact absurd hstored hphase
  · rw [Function.update_of_ne ht] at hstored
    exact h thread' hstored

/-- A worker that moves on is the only one that does, and so is its thread. -/
theorem sound_update (h : ∀ w, (self.workers w).Sound self.flag (self.synced (some w))) {w : ι}
    {worker : Worker} {synced : Bool}
    (hw : worker.Sound self.flag (self.synced (some w) || synced)) (w' : ι) :
    (((self.setWorker w worker).sync (some w) synced).workers w').Sound self.flag
      (((self.setWorker w worker).sync (some w) synced).synced (some w')) := by
  unfold sync setWorker
  by_cases hww : w' = w
  · subst hww
    simpa only [Function.update_self] using hw
  · have hne : some w' ≠ some w := by simpa using hww
    simpa only [Function.update_of_ne hww, Function.update_of_ne hne] using h w'

/-- A thread that is synchronized now was so before, or has just become so. -/
theorem synced_sync {thread thread' : Option ι} {synced : Bool}
    (h : (self.sync thread synced).synced thread' = true) :
    self.synced thread' = true ∨ synced = true := by
  change Function.update self.synced thread _ thread' = true at h
  by_cases ht : thread' = thread
  · subst ht
    rw [Function.update_self] at h
    exact (Bool.or_eq_true _ _).mp h
  · rw [Function.update_of_ne ht] at h
    exact .inl h

/-- **Every step keeps the invariant.** -/
theorem Invariant.step (h : self.Invariant) {ev : Event ι} (hok : self.Permitted ev) :
    (self.step ev).Invariant := by
  obtain ⟨-, hok⟩ := hok
  cases ev with
  | sigint thread =>
    exact ⟨stored_update h.stored (by simp), h.written, h.synced, h.sound⟩
  | store thread =>
    refine ⟨fun _ _ => rfl, fun _ => rfl, fun _ _ => rfl, fun w => ?_⟩
    refine (h.sound w).mono (fun _ => rfl) fun hsynced => ?_
    show Function.update self.synced thread _ (some w) = true
    by_cases ht : some w = thread
    · rw [ht, Function.update_self, Bool.or_true]
    · rwa [Function.update_of_ne ht]
  | write thread bytesWritten errno =>
    show (self.written thread bytesWritten errno).Invariant
    unfold Process.written
    split
    · exact ⟨stored_update h.stored (by simp), fun _ => h.stored thread hok, h.synced, h.sound⟩
    · split
      · exact h
      · exact ⟨h.stored, h.written, h.synced, h.sound⟩
  | wake w polled =>
    obtain ⟨⟨-, hphase⟩, hpoll⟩ := hok
    -- a readable eventfd has been written, so the flag is stored
    have hflag : reportsShutdown polled = true → self.flag = true := by
      intro hreports
      refine h.written ((hpoll ?_).mp hreports).2
      rintro rfl
      exact absurd hreports (by decide)
    refine ⟨h.stored, h.written, fun thread hsynced => ?_, ?_⟩
    · rcases synced_sync hsynced with hold | hnew
      · exact h.synced thread hold
      · exact hflag hnew
    · exact sound_update h.sound ((h.sound w).wake hphase polled)
  | turn w e =>
    obtain ⟨⟨-, hphase⟩, hcheck, -⟩ := hok
    refine ⟨h.stored, h.written, fun thread hsynced => ?_, ?_⟩
    · rcases synced_sync hsynced with hold | hnew
      · exact h.synced thread hold
      · exact hcheck hnew
    · exact sound_update h.sound ((h.sound w).turn hphase hcheck)

/-! ### What a worker has been told -/

variable {ev : Event ι} {w : ι}

/-- The worker whose loop takes the step. -/
def Event.mover : Event ι → Option ι
  | .wake w _ | .turn w _ => some w
  | .sigint _ | .store _ | .write _ _ _ => none

/-- A worker stays where it is while others move. -/
theorem step_workers (self : Process ι) (h : ev.mover ≠ some w) :
    (self.step ev).workers w = self.workers w := by
  cases ev with
  | sigint | store => rfl
  | write thread bytesWritten errno =>
    show (self.written thread bytesWritten errno).workers w = _
    unfold written
    split
    · rfl
    · split <;> rfl
  | wake w' | turn w' =>
    have hne : w ≠ w' := fun heq => h (heq ▸ rfl)
    exact Function.update_of_ne hne _ _

/-- A poll that returns wakes its worker. -/
theorem step_wake (self : Process ι) (w : ι) (polled : Polled) :
    (self.step (.wake w polled)).workers w = ⟨(self.workers w).server, .Woken polled⟩ :=
  Function.update_self _ _ _

/-- The rest of an iteration is a turn of the worker's server. -/
theorem step_turn (self : Process ι) (w : ι) (e : Iteration) :
    (self.step (.turn w e)).workers w = ⟨((self.workers w).server.turn e).server,
      .after ((self.workers w).server.turn e).control⟩ := Function.update_self _ _ _

/-- What has been written to the eventfd stays there. -/
theorem eventfd_step (self : Process ι) (ev : Event ι) (h : 0 < self.eventfd) :
    0 < (self.step ev).eventfd := by
  cases ev with
  | sigint | store | wake | turn => exact h
  | write thread bytesWritten errno =>
    show 0 < (self.written thread bytesWritten errno).eventfd
    unfold written
    split
    · exact Nat.succ_pos _
    · split <;> exact h

/-- The worker has reacted, and will not poll the eventfd again. -/
def Reacted (self : Process ι) (w : ι) : Prop :=
  (self.workers w).HasEnded ∨ (self.workers w).server.draining = true

/-- The worker has reacted, or its poll has told it to. -/
def Told (self : Process ι) (w : ι) : Prop :=
  self.Reacted w ∨ ∃ polled, (self.workers w).phase = .Woken polled ∧ reportsShutdown polled = true

/-- A worker that has reacted is not asked again. -/
theorem Reacted.step (h : self.Reacted w) (hok : self.Permitted ev) : (self.step ev).Reacted w := by
  obtain ⟨-, hok⟩ := hok
  unfold Reacted
  by_cases hmover : ev.mover = some w
  · have hrunning : ∀ phase, self.AtLoop w phase → (∀ result, phase ≠ .Ended result) →
        (self.workers w).server.draining = true := by
      rintro phase ⟨-, hphase⟩ hne
      apply h.resolve_left
      rintro ⟨result, hended⟩
      exact hne result (hphase.symm.trans hended)
    cases ev with
    | sigint | store | write => cases hmover
    | wake w' polled =>
      obtain rfl := Option.some.inj hmover
      rw [step_wake]
      exact .inr (hrunning _ hok.1 (by simp))
    | turn w' e =>
      obtain rfl := Option.some.inj hmover
      rw [step_turn]
      obtain ⟨reacts, heq, -⟩ := (self.workers w').server.turn_draining_eq e
      right
      rw [heq, hrunning _ hok.1 (by simp), Bool.true_or]
  · rw [step_workers self hmover]
    exact h

/-- A worker that has been told reacts in the rest of its iteration. -/
theorem Told.turn {e : Iteration} (h : self.Told w) (hinv : self.Invariant)
    (hok : self.Permitted (.turn w e)) : (self.step (.turn w e)).Reacted w := by
  rcases h with hreacted | ⟨polled, hwoken, hreports⟩
  · exact hreacted.step hok
  · obtain ⟨-, ⟨-, hphase⟩, -, hsynced⟩ := hok
    have hcheck := hsynced ((hinv.sound w).woken polled hwoken hreports)
    unfold Reacted
    rw [step_turn]
    by_cases hgoes : (self.workers w).server.GoesOn e
    · right
      apply Server.turn_reacts hgoes hcheck
      rw [WorkerPhase.Woken.inj (hphase.symm.trans hwoken)]
      constructor <;> rintro rfl <;> exact absurd hreports (by decide)
    · left
      unfold Server.GoesOn at hgoes
      cases hc : ((self.workers w).server.turn e).control with
      | Continue => exact absurd hc hgoes
      | Done | Failed => exact ⟨_, rfl⟩

/-- A worker that has been told does not forget. -/
theorem Told.step (h : self.Told w) (hinv : self.Invariant) (hok : self.Permitted ev) :
    (self.step ev).Told w := by
  by_cases hmover : ev.mover = some w
  · cases ev with
    | sigint | store | write => cases hmover
    | wake w' polled =>
      obtain rfl := Option.some.inj hmover
      left
      refine Reacted.step (h.resolve_right ?_) hok
      rintro ⟨polled', hwoken, -⟩
      cases hok.2.1.2.symm.trans hwoken
    | turn w' e =>
      obtain rfl := Option.some.inj hmover
      exact .inl (h.turn hinv hok)
  · unfold Told Reacted
    rw [step_workers self hmover]
    exact h

/-- **Once the eventfd is written** a poll that reports anything tells the worker. -/
theorem told_of_wake {outcome : PollOutcome} (hwritten : 0 < self.eventfd)
    (hok : self.Permitted (.wake w (.Reported outcome))) :
    (self.step (.wake w (.Reported outcome))).Told w := by
  unfold Told Reacted
  rw [step_wake]
  cases hdraining : (self.workers w).server.draining with
  | true => exact .inl (.inr rfl)
  | false => exact .inr ⟨_, rfl, (hok.2.2 (by simp)).mpr ⟨hdraining, hwritten⟩⟩

/-- No handler runs, and the flag is not stored. -/
def Quiet (self : Process ι) : Prop := (∀ thread, self.handlers thread = .Idle) ∧ self.flag = false

/-- Only SIGINT breaks the quiet. -/
theorem Quiet.step (h : self.Quiet) (hok : self.Permitted ev) (hno : ∀ thread, ev ≠ .sigint thread) :
    (self.step ev).Quiet := by
  obtain ⟨hidle, hflag⟩ := h
  obtain ⟨-, hok⟩ := hok
  cases ev with
  | sigint thread => exact absurd rfl (hno thread)
  | store thread => cases (hidle thread).symm.trans hok
  | write thread => cases (hidle thread).symm.trans hok
  | wake | turn => exact ⟨hidle, hflag⟩

end Process

/-- An engine with a deadline never waits beyond it. -/
theorem Engine.pollTimeout_le {σ : Type} {self : Engine σ} {deadline : Instant}
    (h : self.shutdownDeadline = some deadline) (now late : Instant) :
    ∃ wait, self.pollTimeout now late = some wait ∧
      wait ≤ deadline.saturatingDurationSince now := by
  cases hwait : self.pollTimeout now late with
  | none =>
    unfold Engine.pollTimeout at hwait
    rw [h] at hwait
    simp at hwait
  | some wait =>
    obtain ⟨d, hleast, rfl⟩ := Engine.pollTimeout_eq_some_iff.mp hwait
    exact ⟨_, rfl, Nat.sub_le_sub_right (hleast.2 (.inl h)) _⟩

/-- **Shutdown reaches every worker**, whatever the order of the threads' steps.  Once a handler has
    written the eventfd, a worker whose poll then reports anything (it is not interrupted), and who
    comes to the end of an iteration after that, has left its loop, or it drains under a deadline
    beyond which no poll waits.  This rests on the visibility that `Process.Permitted` assumes: a
    thread that has stored the flag itself, has loaded it as stored, or has seen the eventfd
    readable loads it as stored from then on, although the load is relaxed. -/
theorem shutdown_reaches_every_worker {ι : Type} [DecidableEq ι] (app : ServerApp)
    (initialRto : Duration) (maxRetries : UInt8) (gracePeriod : Duration)
    (es es' : List (Process.Event ι))
    (hrun : Runs.Admits Process.step Process.Permitted
      (Process.new (Server.new app initialRto maxRetries gracePeriod)) (es ++ es'))
    (hwritten : 0 < (es.foldl Process.step
      (Process.new (Server.new app initialRto maxRetries gracePeriod))).eventfd)
    (w : ι) (outcome : PollOutcome) (e : Iteration)
    (hturn : List.Sublist [.wake w (.Reported outcome), .turn w e] es') (worker : Worker)
    (hworker : ((es ++ es').foldl Process.step
      (Process.new (Server.new app initialRto maxRetries gracePeriod))).workers w = worker) :
    worker.HasEnded ∨ ∃ deadline, worker.server.engine.shutdownDeadline = some deadline ∧
      ∀ now late, ∃ wait, worker.server.engine.pollTimeout now late = some wait ∧
        wait ≤ deadline.saturatingDurationSince now := by
  obtain ⟨hbefore, hafter⟩ := Runs.admits_append.mp hrun
  have hinv := (Runs.Run.of_admits hbefore).state_invariant
    (Process.invariant_new rfl (Server.steady_new app initialRto maxRetries gracePeriod))
    fun _ _ hI hok => Process.Invariant.step hI hok
  obtain ⟨front, rest, rfl, hwake, hrest⟩ := List.cons_sublist_iff.mp hturn
  obtain ⟨hfront, hlater⟩ := Runs.admits_append.mp hafter
  -- first the poll tells the worker, then the worker reacts
  have htold := hfront.reaches (I := fun s => s.Invariant ∧ 0 < s.eventfd)
    (J := fun s => s.Invariant ∧ s.Told w) hwake ⟨hinv, hwritten⟩
    (fun s ev hs hok => ⟨hs.1.step hok, s.eventfd_step ev hs.2⟩)
    (fun s hs hok => ⟨hs.1.step hok, Process.told_of_wake hs.2 hok⟩)
    (fun s ev hs hok => ⟨hs.1.step hok, hs.2.step hs.1 hok⟩)
  have hreacted := hlater.reaches (I := fun s => s.Invariant ∧ s.Told w)
    (J := fun s => s.Invariant ∧ s.Reacted w) (List.singleton_sublist.mp hrest) htold
    (fun s ev hs hok => ⟨hs.1.step hok, hs.2.step hs.1 hok⟩)
    (fun s hs hok => ⟨hs.1.step hok, hs.2.turn hs.1 hok⟩)
    (fun s ev hs hok => ⟨hs.1.step hok, hs.2.step hok⟩)
  rw [← List.foldl_append, ← List.foldl_append] at hreacted
  obtain ⟨hlast, hreacted⟩ := hreacted
  unfold Process.Reacted at hreacted
  have hsteady := (hlast.sound w).steady
  rw [hworker] at hreacted hsteady
  -- a worker that has not ended is steady, so it drains under a deadline
  rcases hsteady with hended | hsteady
  · exact .inl hended
  · rcases hreacted with hended | hdraining
    · exact .inl hended
    · obtain ⟨deadline, hdeadline⟩ := Option.isSome_iff_exists.mp (hsteady.trans hdraining)
      exact .inr ⟨deadline, hdeadline, Engine.pollTimeout_le hdeadline⟩

/-- SIGINT on one of two workers, as far as the handler's write. -/
def SIGINT_EVENTS : List (Process.Event Bool) :=
  [.sigint (some false), .store (some false), .write (some false) SIZE_OF_U64 0]

/-- The other one, in its next iteration. -/
def BYSTANDER_EVENTS : List (Process.Event Bool) :=
  [.wake true (.Reported .Shutdown), .turn true SHUTDOWN_ITERATION]

/-- The worker that SIGINT is not delivered to leaves its loop. -/
theorem shutdown_reaches_bystander : (((SIGINT_EVENTS ++ BYSTANDER_EVENTS).foldl Process.step
    (Process.new ECHO_SERVER)).workers true).HasEnded := by
  have hrun : Runs.Admits Process.step Process.Permitted (Process.new ECHO_SERVER)
      (SIGINT_EVENTS ++ BYSTANDER_EVENTS) := by
    refine ⟨⟨rfl, rfl, ?_⟩, ⟨rfl, rfl⟩, ⟨rfl, rfl⟩, ⟨rfl, ⟨rfl, rfl⟩, ?_⟩,
      ⟨rfl, ⟨rfl, rfl⟩, ?_, ?_⟩, trivial⟩
    · rintro w - ⟨result, hended⟩
      cases hended
    · exact fun _ => iff_of_true (by decide) ⟨rfl, by decide⟩
    · exact fun _ => rfl
    · exact fun _ => rfl
  rcases shutdown_reaches_every_worker .Echo 1000000000 3 0 SIGINT_EVENTS BYSTANDER_EVENTS hrun
    (by decide) true .Shutdown SHUTDOWN_ITERATION (List.Sublist.refl _) _ rfl with
    hended | ⟨deadline, hdeadline, -⟩
  · exact hended
  · -- it had no connection, so there was nothing to drain
    have hnone : (((SIGINT_EVENTS ++ BYSTANDER_EVENTS).foldl Process.step
      (Process.new ECHO_SERVER)).workers true).server.engine.shutdownDeadline = none := by
      decide +kernel
    cases hnone.symm.trans hdeadline

/-- **Without SIGINT no shutdown.**  In every process that SIGINT has been delivered to on no thread,
    no worker drains, and none has left its loop but by a fault. -/
theorem shutdown_needs_sigint {ι : Type} [DecidableEq ι] (app : ServerApp)
    (initialRto : Duration) (maxRetries : UInt8) (gracePeriod : Duration)
    (es : List (Process.Event ι))
    (hrun : Runs.Admits Process.step Process.Permitted
      (Process.new (Server.new app initialRto maxRetries gracePeriod)) es)
    (hno : ∀ thread, .sigint thread ∉ es) (w : ι) (worker : Worker)
    (hworker : (es.foldl Process.step
      (Process.new (Server.new app initialRto maxRetries gracePeriod))).workers w = worker) :
    worker.server.draining = false ∧ ∀ result, worker.phase = .Ended result →
      ∃ fault, result = .error fault := by
  have hlast := (Runs.Run.of_admits hrun).invariant
    (I := fun es s => s.Invariant ∧ ((∀ thread, .sigint thread ∉ es) → s.Quiet))
    ⟨Process.invariant_new rfl (Server.steady_new app initialRto maxRetries gracePeriod),
      fun _ => ⟨fun _ => rfl, rfl⟩⟩
    (fun es s ev hs hok => ⟨hs.1.step hok, fun hno => by
      have hold : ∀ thread, .sigint thread ∉ es := fun thread hmem =>
        hno thread (List.mem_append_left _ hmem)
      have hnew : ∀ thread, ev ≠ .sigint thread := by
        rintro thread rfl
        exact hno thread (List.mem_append_right _ List.mem_cons_self)
      exact (hs.2 hold).step hok hnew⟩)
  obtain ⟨hinv, hquiet⟩ := hlast
  obtain ⟨-, hflag⟩ := hquiet hno
  have hsound := hinv.sound w
  rw [hworker, hflag] at hsound
  constructor
  · exact Bool.eq_false_iff.mpr fun hdraining => absurd (hsound.draining hdraining) (by decide)
  · rintro (fault | ⟨⟩) hended
    · exact ⟨fault, rfl⟩
    · exact absurd (hsound.ended hended) (by decide)

/-- One of two workers reads a SYN. -/
def SYN_EVENTS : List (Process.Event Bool) :=
  [.wake true (.Reported .Readable), .turn true SYN_ITERATION]

/-- The process permits these events. -/
theorem synEvents_run :
    Runs.Admits Process.step Process.Permitted (Process.new ECHO_SERVER) SYN_EVENTS := by
  refine ⟨⟨rfl, ⟨rfl, rfl⟩, ?_⟩, ⟨rfl, ⟨rfl, rfl⟩, ?_, ?_⟩, trivial⟩
  · exact fun _ => iff_of_false (by decide) fun h => absurd h.2 (by decide)
  · exact fun h => absurd h (by decide)
  · exact fun h => absurd h (by decide)

/-- Two workers, one of which reads a SYN, go on without a signal. -/
theorem shutdown_needs_sigint_syn : ((SYN_EVENTS.foldl Process.step
    (Process.new ECHO_SERVER)).workers true).server.draining = false := by
  generalize hworker : (SYN_EVENTS.foldl Process.step (Process.new ECHO_SERVER)).workers true
    = worker
  exact (shutdown_needs_sigint .Echo 1000000000 3 0 SYN_EVENTS synEvents_run
    (by simp [SYN_EVENTS]) true worker hworker).1

end Typenet

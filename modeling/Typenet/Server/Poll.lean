import Typenet.Server.Timers
import Typenet.Table.Sweep

namespace Typenet

/-!
# Polling with a timeout

The loop polls its device for no longer than is left until the next deadline: the shutdown deadline
or the due time of a pending segment (`Engine.deadlines`).  A poll that times out is taken to mean
that the deadline has come.  But `poll(2)` waits for whole milliseconds, and the time left is
rounded down, so this holds for a deadline on a millisecond only: `poll_timeout_due_iff`.  Within
the last millisecond before any other deadline the loop polls without waiting and sweeps a table in
which nothing is due (`poll_timeout_idles`).
-/

/-! ### `poll::readable` -/

/-- `libc::c_int::MAX`. -/
def C_INT_MAX : Nat := 2 ^ 31 - 1

/-- `libc::POLLIN`. -/
def POLLIN : BitVec 16 := 1

/-- `libc::pollfd`. -/
structure PollFd where
  fd : Int
  events : BitVec 16
  revents : BitVec 16

/-- What a call of `poll(2)` leaves behind. -/
structure PollReturn where
  result : Int
  /-- The descriptors, in the order in which they were passed. -/
  fds : PollFd × PollFd
  /-- `io::Error::last_os_error`, where the result is negative. -/
  lastOsError : Int
  returnedAt : Instant

/-- `poll(2)`, called on two descriptors with a timeout at some instant. -/
structure Poll where
  call : PollFd × PollFd → Int → Instant → PollReturn
  /-- When nothing happens it blocks for exactly as long as the timeout says. -/
  timesOut : ∀ (fds : PollFd × PollFd) (ms : Nat) (now : Instant), (call fds ms now).result = 0 →
    (call fds ms now).returnedAt = ⟨now.nanos + Duration.fromMillis ms⟩

/-- The timeout for `poll(2)`, in milliseconds. -/
def timeoutMs : Option Duration → Int
  -- block indefinitely
  | none => -1
  | some duration =>
    -- `Duration::as_millis` rounds down
    let ms := duration / 10 ^ 6
    if ms ≤ C_INT_MAX then (ms : Int) else (C_INT_MAX : Int)

/-- `poll::readable`, called at `now`, and the instant at which it returns. -/
def readable (poll : Poll) (readFd : Int) (shutdownFd : Option Int) (timeout : Option Duration)
    (now : Instant) : Except Int PollOutcome × Instant :=
  let fds : PollFd × PollFd :=
    (⟨readFd, POLLIN, 0⟩,
      -- a negative descriptor is ignored
      ⟨shutdownFd.getD (-1), POLLIN, 0⟩)
  let r := poll.call fds (timeoutMs timeout) now
  let outcome : Except Int PollOutcome :=
    if r.result < 0 then .error r.lastOsError
    else if r.result = 0 then .ok .Timeout
    else if r.result = 1 then
      if r.fds.1.revents &&& POLLIN ≠ 0 then .ok .Readable else .ok .Shutdown
    else .ok .Both
  (outcome, r.returnedAt)

/-- How many milliseconds a timeout makes the poll wait. -/
def waitMs (duration : Duration) : Nat := min (duration / 10 ^ 6) C_INT_MAX

theorem timeoutMs_some (duration : Duration) : timeoutMs (some duration) = waitMs duration := by
  unfold timeoutMs waitMs
  simp only
  split
  case isTrue h => rw [Nat.min_eq_left h]
  case isFalse h => rw [Nat.min_eq_right (Nat.le_of_not_le h)]

/-- A poll during which nothing happens. -/
def Poll.silent : Poll where
  call fds ms now := ⟨0, fds, 0, ⟨now.nanos + Duration.fromMillis ms.toNat⟩⟩
  timesOut _ _ _ _ := rfl

/-- **A timeout is reported** after the milliseconds requested, and then only. -/
theorem readable_timeout_iff (wait : Duration) (now t : Instant) :
    (∃ poll readFd shutdownFd, readable poll readFd shutdownFd (some wait) now
        = (.ok .Timeout, t)) ↔
      t = ⟨now.nanos + Duration.fromMillis (waitMs wait)⟩ := by
  constructor
  · rintro ⟨poll, readFd, shutdownFd, h⟩
    unfold readable at h
    rw [timeoutMs_some] at h
    obtain ⟨houtcome, rfl⟩ := Prod.mk.inj h
    apply poll.timesOut
    by_contra hne
    rw [if_neg hne] at houtcome
    -- whatever else is reported is not a timeout
    split at houtcome
    · cases houtcome
    · split at houtcome
      · split at houtcome <;> cases houtcome
      · cases houtcome
  · rintro rfl
    refine ⟨.silent, 0, none, ?_⟩
    unfold readable
    rw [timeoutMs_some]
    rfl

/-! ### Deadlines -/

/-- The deadline has come, or comes after a whole number of milliseconds, and no more of them than
    `poll(2)` can wait. -/
def Instant.OnMillisecond (deadline now : Instant) : Prop :=
  deadline ≤ now ∨ ∃ ms ≤ C_INT_MAX, deadline.nanos = now.nanos + Duration.fromMillis ms

/-- Such deadlines have come after the wait for them, and no others. -/
theorem Instant.onMillisecond_iff (deadline now : Instant) : deadline.OnMillisecond now ↔
    deadline ≤ ⟨now.nanos
      + Duration.fromMillis (waitMs (deadline.saturatingDurationSince now))⟩ := by
  unfold OnMillisecond waitMs Duration.fromMillis saturatingDurationSince
  simp only [le_iff]
  constructor
  · rintro (hpast | ⟨ms, hms, hahead⟩)
    · exact Nat.le_trans hpast (Nat.le_add_right _ _)
    · rw [hahead, Nat.add_sub_cancel_left, Nat.mul_div_cancel _ (by decide), Nat.min_eq_left hms]
  · intro h
    refine or_iff_not_imp_left.mpr fun hahead =>
      ⟨min ((deadline.nanos - now.nanos) / 10 ^ 6) C_INT_MAX, Nat.min_le_right _ _, ?_⟩
    have hround : min ((deadline.nanos - now.nanos) / 10 ^ 6) C_INT_MAX * 10 ^ 6
        ≤ deadline.nanos - now.nanos :=
      Nat.le_trans (Nat.mul_le_mul_right _ (Nat.min_le_left _ _)) (Nat.div_mul_le_self _ _)
    exact Nat.le_antisymm h (by omega)

namespace PendingSegment

/-- The due time is fixed, or it is whatever the clock shows. -/
theorem timeDue_cases (self : PendingSegment) (rto : RtoConfig) :
    (∃ due, ∀ now, self.timeDue rto now = due) ∨ ∀ now, self.timeDue rto now = now := by
  by_cases hfits : self.Fits rto
  · exact .inl ⟨_, hfits.timeDue⟩
  · refine .inr fun now => ?_
    have hnone : self.lastSentAt.checkedAdd (self.delay rto) = none := if_neg hfits
    rw [timeDue_eq, hnone, Option.getD_none]

end PendingSegment

namespace Engine

variable {σ : Type} {self : Engine σ} {now late t d : Instant}

/-- The instants that the engine has something to do at: the shutdown deadline and the due times
    of the pending segments. -/
def deadlines (self : Engine σ) (now : Instant) : Set Instant :=
  {d | self.shutdownDeadline = some d ∨ self.tcpConnections.PendingDue now d}

/-- The grace period has elapsed, or a pending segment is due for retransmission. -/
def SomethingDue (self : Engine σ) (now : Instant) : Prop :=
  self.gracePeriodElapsed now = true ∨ ∃ key conn, self.tcpConnections.get key = some conn ∧
    ∃ p ∈ conn.pending, ConnState.isDue self.tcpConnections.rtoConfig now now p = true

theorem somethingDue_iff : self.SomethingDue now ↔ ∃ d ∈ self.deadlines now, d ≤ now := by
  constructor
  · rintro (hgrace | ⟨key, conn, hget, p, hp, hdue⟩)
    · obtain ⟨d, hd, hle⟩ := Option.any_eq_true _ _ |>.mp hgrace
      exact ⟨d, .inl hd, of_decide_eq_true hle⟩
    · exact ⟨_, .inr ⟨key, conn, hget, p, hp, rfl⟩, of_decide_eq_true hdue⟩
  · rintro ⟨d, hd | ⟨key, conn, hget, p, hp, rfl⟩, hle⟩
    · left
      rw [gracePeriodElapsed, hd]
      exact decide_eq_true hle
    · exact .inr ⟨key, conn, hget, p, hp, decide_eq_true hle⟩

/-- It can be read off the first pass of the sweep. -/
theorem somethingDue_iff_dueKeys : self.SomethingDue now ↔
    self.gracePeriodElapsed now = true ∨ self.tcpConnections.dueKeys now now ≠ [] := by
  unfold SomethingDue
  rw [ne_eq, List.eq_nil_iff_forall_not_mem, not_forall]
  simp only [TcpConnections.mem_dueKeys, List.any_eq_true, not_not]

/-- The clock shows one of the deadlines, or all of them are fixed. -/
theorem deadlines_clock_or_fixed (self : Engine σ) :
    (∀ t, t ∈ self.deadlines t) ∨ ∀ now t, self.deadlines now ⊆ self.deadlines t := by
  refine or_iff_not_imp_left.mpr fun hclock now t d hd => ?_
  rcases hd with hd | ⟨key, conn, hget, p, hp, rfl⟩
  · exact .inl hd
  · rcases p.timeDue_cases self.tcpConnections.rtoConfig with ⟨due, hfixed⟩ | hshown
    · rw [hfixed]
      exact .inr ⟨key, conn, hget, p, hp, hfixed t⟩
    · exact absurd (fun t => .inr ⟨key, conn, hget, p, hp, hshown t⟩) hclock

/-- **The poll timeout** is the time left until the first deadline. -/
theorem pollTimeout_eq_some_iff {wait : Duration} : self.pollTimeout now late = some wait ↔
    ∃ d, IsLeast (self.deadlines late) d ∧ d.saturatingDurationSince now = wait := by
  unfold pollTimeout
  rw [Option.map_eq_some_iff]
  apply exists_congr
  intro d
  apply and_congr_left
  intro _
  have hmem : ∀ a, a ∈ [self.shutdownDeadline,
      self.tcpConnections.nextRetransmitDeadline late].filterMap id ↔
      self.shutdownDeadline = some a ∨
        self.tcpConnections.nextRetransmitDeadline late = some a := by
    intro a
    simp [eq_comm]
  rw [List.min?_eq_some_iff, hmem]
  simp only [hmem]
  constructor
  · rintro ⟨hd, hleast⟩
    refine ⟨hd.imp_right fun hnext =>
      (TcpConnections.nextRetransmitDeadline_eq_some_iff.mp hnext).1, ?_⟩
    rintro d' (hd' | hd')
    · exact hleast d' (.inl hd')
    · obtain ⟨next, hnext, hle⟩ := TcpConnections.exists_nextRetransmitDeadline hd'
      exact Nat.le_trans (hleast next (.inr hnext)) hle
  · rintro ⟨hd, hleast⟩
    refine ⟨hd.imp_right fun hdue => TcpConnections.nextRetransmitDeadline_eq_some_iff.mpr
      ⟨hdue, fun d' hd' => hleast (.inr hd')⟩, ?_⟩
    rintro d' (hd' | hd')
    · exact hleast (.inl hd')
    · exact hleast (.inr (TcpConnections.nextRetransmitDeadline_eq_some_iff.mp hd').1)

/-! ### A poll that times out -/

/-- A poll for the timeout that the engine asks for at `now` reports a timeout at `t`. -/
def TimesOutAt (self : Engine σ) (now late t : Instant) : Prop :=
  ∃ wait, self.pollTimeout now late = some wait ∧ ∃ poll readFd shutdownFd,
    readable poll readFd shutdownFd (some wait) now = (.ok .Timeout, t)

/-- **When a poll has timed out, a deadline has come** if and only if the first deadline was on a
    millisecond. -/
theorem somethingDue_of_timesOutAt_iff (self : Engine σ) (now late : Instant) :
    (∀ t, self.TimesOutAt now late t → self.SomethingDue t) ↔
      ∀ d, IsLeast (self.deadlines now) d → d.OnMillisecond now := by
  rcases self.deadlines_clock_or_fixed with hclock | hfixed
  · -- a due time overflows: the deadline is whatever the clock shows
    exact iff_of_true (fun t _ => somethingDue_iff.mpr ⟨t, hclock t, Nat.le_refl _⟩)
      fun d hd => .inl (hd.2 (hclock now))
  · have hsame : self.deadlines late = self.deadlines now := by
      ext d
      exact ⟨fun hd => hfixed late now hd, fun hd => hfixed now late hd⟩
    constructor
    · intro h d hd
      obtain ⟨d', hd', hle⟩ := somethingDue_iff.mp (h _ ⟨_,
        pollTimeout_eq_some_iff.mpr ⟨d, hsame ▸ hd, rfl⟩, (readable_timeout_iff _ now _).mpr rfl⟩)
      rw [Instant.onMillisecond_iff]
      exact Nat.le_trans (hd.2 (hfixed _ now hd')) hle
    · rintro h t ⟨wait, hwait, hread⟩
      obtain ⟨d, hd, rfl⟩ := pollTimeout_eq_some_iff.mp hwait
      obtain rfl := (readable_timeout_iff _ now t).mp hread
      rw [hsame] at hd
      exact somethingDue_iff.mpr
        ⟨d, hfixed now _ hd.1, (Instant.onMillisecond_iff d now).mp (h d hd)⟩

end Engine

/-! ### The loop -/

/-- The readings that the clock gives the iteration after its poll are taken at once. -/
structure Iteration.ReadsAt (e : Iteration) (t : Instant) : Prop where
  checkedAt : e.checkedAt = t
  sweptAt : e.sweptAt = t
  sweptLate : e.sweptLate = t

namespace Server

variable {self : Server} {e : Iteration} {t : Instant}

/-- The iteration does nothing: the loop goes on, with nothing sent and nothing changed. -/
def Idles (self : Server) (e : Iteration) : Prop := self.turn e = ⟨self, [], .Continue⟩

/-- **A timeout is idle** exactly when nothing is due. -/
theorem idles_iff (hpoll : self.poll e = .Reported .Timeout) (hreads : e.ReadsAt t) :
    self.Idles e ↔ ¬ self.engine.SomethingDue t := by
  obtain ⟨hchecked, hswept, hlate⟩ := hreads
  have hturn : self.turn e = if self.engine.gracePeriodElapsed t then ⟨self, [], .Done⟩
      else self.retransmit e := by
    unfold turn
    rw [hpoll, ← hchecked]
  unfold Idles
  rw [hturn]
  constructor
  · rintro hidle (hgrace | ⟨key, conn, hget, p, hp, hdue⟩)
    · -- past the deadline the loop ends
      rw [if_pos hgrace] at hidle
      cases congrArg Turn.control hidle
    · split at hidle
      · cases congrArg Turn.control hidle
      · -- the sweep serves a due segment, and that shows
        have hsweeps := ConnState.sweeps_of_due self.engine.tcpConnections.maxRetries hp
          (of_decide_eq_true hdue) (Nat.le_of_eq (congrArg Instant.nanos hswept.symm))
          (congrArg _ hlate)
        have hsettled := (settled_retransmit (p := p) hget (by rw [hidle])).mpr hsweeps
        rw [hidle] at hsettled
        cases hsettled with
        | removed hnone => cases hget.symm.trans hnone
        | retransmitted _ hmem => cases hmem
        | acknowledged hget' hne =>
          obtain rfl := Option.some.inj (hget.symm.trans hget')
          exact hne rfl
  · intro hnot
    rw [Engine.somethingDue_iff_dueKeys, not_or, not_not] at hnot
    obtain ⟨hgrace, hkeys⟩ := hnot
    rw [if_neg hgrace]
    unfold retransmit Engine.makeRetransmissions TcpConnections.makeRetransmissions
    rw [hswept, hlate, hkeys]
    rfl

/-- **A timeout means that a deadline is due**, and the loop does something about it. -/
def TimeoutsAct (self : Server) (now late : Instant) : Prop :=
  ∀ t, self.engine.TimesOutAt now late t → self.engine.SomethingDue t ∧
    ∀ e : Iteration, self.poll e = .Reported .Timeout → e.ReadsAt t → ¬ self.Idles e

/-- **When a timeout means that a deadline is due**: for a first deadline that has come or is on a
    millisecond. -/
theorem poll_timeout_due_iff (self : Server) (now late : Instant) : self.TimeoutsAct now late ↔
    ∀ d, IsLeast (self.engine.deadlines now) d → d.OnMillisecond now := by
  rw [← Engine.somethingDue_of_timesOutAt_iff _ now late]
  apply forall_congr'
  intro t
  apply imp_congr_right
  intro _
  refine and_iff_left_of_imp fun hdue e hpoll hreads hidle => ?_
  exact (idles_iff hpoll hreads).mp hidle hdue

end Server

/-- A server that has answered a SYN at 0, half a millisecond before it sends its SYN-ACK again. -/
def SYN_ACK_PENDING : Server := ECHO_SERVER.step SYN_ITERATION

/-- **A timeout that does nothing**: half a millisecond before the SYN-ACK is due the poll does not
    wait, and the loop goes on as it was. -/
theorem poll_timeout_idles :
    SYN_ACK_PENDING.engine.TimesOutAt ⟨999500000⟩ ⟨999500000⟩ ⟨999500000⟩ ∧
      SYN_ACK_PENDING.Idles (.at ⟨999500000⟩ .Timeout [] (by decide)) ∧
      ¬ SYN_ACK_PENDING.TimeoutsAct ⟨999500000⟩ ⟨999500000⟩ := by
  have hwait : SYN_ACK_PENDING.engine.pollTimeout ⟨999500000⟩ ⟨999500000⟩ = some 500000 := by
    decide +kernel
  have htimesOut : SYN_ACK_PENDING.engine.TimesOutAt ⟨999500000⟩ ⟨999500000⟩ ⟨999500000⟩ :=
    ⟨500000, hwait, (readable_timeout_iff 500000 _ _).mpr rfl⟩
  have hgrace : SYN_ACK_PENDING.engine.gracePeriodElapsed ⟨999500000⟩ = false := by decide +kernel
  have hkeys : SYN_ACK_PENDING.engine.tcpConnections.dueKeys ⟨999500000⟩ ⟨999500000⟩ = [] := by
    decide +kernel
  have hnot : ¬ SYN_ACK_PENDING.engine.SomethingDue ⟨999500000⟩ := by
    rw [Engine.somethingDue_iff_dueKeys, hgrace, hkeys]
    simp
  refine ⟨htimesOut, (Server.idles_iff rfl ⟨rfl, rfl, rfl⟩).mpr hnot, fun hacts => ?_⟩
  exact hnot (hacts _ htimesOut).1

end Typenet

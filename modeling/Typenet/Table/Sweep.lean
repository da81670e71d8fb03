import Typenet.Table.Calls
import Mathlib.Order.Bounds.Defs

namespace Typenet

/-!
# The retransmission sweep

A pending segment is due once its retransmission timeout has passed since it was last sent
(`PendingSegment.Due`).  The sweep at `now` gives up on every connection with a due segment out of
retries, and sends the due segments of the others again (`TcpConnections.Swept`).  Both its passes
and the deadline for the next one compute that instant afresh, from last-sent times that the sweep
itself moves on; they agree because a segment that was just sent again is not due at once.

This is about times that an `Instant` can hold.  Where the instant overflows, the code takes its
clock's reading in its place.
-/

/-! ### Due segments -/

namespace PendingSegment

/-- The segment's timeout has passed since it was last sent. -/
def Due (self : PendingSegment) (rto : RtoConfig) (now : Instant) : Prop :=
  self.lastSentAt.nanos + self.delay rto ≤ now.nanos

instance (self : PendingSegment) (rto : RtoConfig) (now : Instant) :
    Decidable (self.Due rto now) := inferInstanceAs (Decidable (_ ≤ _))

/-- The instant at which the segment is due can be represented. -/
def Fits (self : PendingSegment) (rto : RtoConfig) : Prop :=
  self.lastSentAt.nanos + self.delay rto ≤ Instant.MAX

instance (self : PendingSegment) (rto : RtoConfig) : Decidable (self.Fits rto) :=
  inferInstanceAs (Decidable (_ ≤ _))

variable {self : PendingSegment} {rto : RtoConfig}

theorem Fits.timeDue (h : self.Fits rto) (late : Instant) :
    self.timeDue rto late = ⟨self.lastSentAt.nanos + self.delay rto⟩ := by
  rw [timeDue_eq, Instant.checkedAdd_of_le h, Option.getD_some]

/-- Then the code's test is the definition. -/
theorem Fits.isDue (h : self.Fits rto) (now late : Instant) :
    ConnState.isDue rto now late self = decide (self.Due rto now) := by
  rw [ConnState.isDue, h.timeDue]
  rfl

/-- A segment that is sent again keeps everything but the time and the number of its retries. -/
structure Resent (before : PendingSegment) (now : Instant) (after : PendingSegment) : Prop where
  sendInfo : after.sendInfo = before.sendInfo
  endSeq : after.endSeq = before.endSeq
  retries : after.retries.toNat = before.retries.toNat + 1
  lastSentAt : after.lastSentAt = now

/-- A segment with retries left has not reached the end of the counter. -/
theorem resent_retransmitted {maxRetries : UInt8} (h : ¬ maxRetries ≤ self.retries)
    (now : Instant) : self.Resent now (self.retransmitted now) := by
  have hlt : self.retries.toNat < maxRetries.toNat := by
    rw [← UInt8.lt_iff_toNat_lt]
    exact UInt8.not_le.mp h
  have hmax := maxRetries.toNat_lt
  refine ⟨rfl, rfl, ?_, rfl⟩
  show (if self.retries = 255 then (255 : UInt8) else self.retries + 1).toNat = _
  rw [if_neg (fun heq => by rw [heq] at hlt; exact absurd hlt (by show ¬ 255 < _; omega)),
    UInt8.toNat_add]
  show (self.retries.toNat + 1) % 256 = _
  omega

end PendingSegment

/-! ### One connection -/

namespace ConnState

/-- A segment that is due has been retried as often as is allowed. -/
def GivesUp (self : ConnState) (rto : RtoConfig) (maxRetries : UInt8) (now : Instant) : Prop :=
  ∃ p ∈ self.pending, p.Due rto now ∧ maxRetries ≤ p.retries

/-- The instants at which the pending segments are due can be represented. -/
def DueTimesFit (self : ConnState) (rto : RtoConfig) : Prop := ∀ p ∈ self.pending, p.Fits rto

/-- What a sweep makes of a connection that it keeps, and what it sends for it. -/
structure SweptTo (before : ConnState) (rto : RtoConfig) (now : Instant) (key : ConnKey)
    (after : ConnState) (sent : List (TcpSegment .Out)) : Prop where
  /-- Each due segment goes out once, in the order of the queue, as it was first sent. -/
  sent : sent = (before.pending.filter (·.Due rto now)).map fun p => key.outgoing p.sendInfo
  /-- This is recorded in the queue, where the other segments stay what they are. -/
  pending : List.Forall₂ (fun p p' => if p.Due rto now then p.Resent now p' else p' = p)
    before.pending after.pending
  /-- Nothing else changes. -/
  rest : after = { before with pending := after.pending }

variable {self : ConnState} {rto : RtoConfig} {maxRetries : UInt8} {now : Instant}

theorem retransmit_eq_none_iff (h : self.DueTimesFit rto) (late : Instant) :
    self.retransmit rto maxRetries now late = none ↔ self.GivesUp rto maxRetries now := by
  rw [retransmit_eq_none]
  apply exists_congr
  intro p
  apply and_congr_right
  intro hp
  rw [(h p hp).isDue, decide_eq_true_eq, PendingSegment.exhaustedRetries, decide_eq_true_eq]

/-- **The sweep of a connection** that it keeps. -/
theorem sweptTo_retransmit (h : self.DueTimesFit rto) (hkeep : ¬ self.GivesUp rto maxRetries now)
    (late : Instant) (key : ConnKey) : ∃ after resent,
      self.retransmit rto maxRetries now late = some (after, resent) ∧
      self.SweptTo rto now key after (resent.map key.outgoing) := by
  have hdue : ∀ p ∈ self.pending, isDue rto now late p = decide (p.Due rto now) :=
    fun p hp => (h p hp).isDue now late
  unfold retransmit
  rw [if_neg]
  · refine ⟨_, _, rfl, ?_, ?_, rfl⟩
    · rw [List.map_map, List.filter_congr hdue]
      rfl
    · simp only [List.forall₂_map_right_iff]
      rw [List.forall₂_same]
      intro p hp
      rw [hdue p hp]
      by_cases hp' : p.Due rto now
      · simp only [hp', if_true, decide_true]
        exact PendingSegment.resent_retransmitted (fun hle => hkeep ⟨p, hp, hp', hle⟩) now
      · simp only [hp', if_false, decide_false, Bool.false_eq_true]
  · intro hany
    obtain ⟨p, hp, hboth⟩ := List.any_eq_true.mp hany
    rw [hdue p hp, Bool.and_eq_true, decide_eq_true_eq, PendingSegment.exhaustedRetries,
      decide_eq_true_eq] at hboth
    exact hkeep ⟨p, hp, hboth⟩

/-- Right after a sweep nothing is due, as a timeout takes some time. -/
theorem SweptTo.not_due {key : ConnKey} {after : ConnState} {sent : List (TcpSegment .Out)}
    (h : self.SweptTo rto now key after sent) (hmin : 0 < rto.min) :
    ∀ p ∈ after.pending, ¬ p.Due rto now := by
  intro p' hp'
  obtain ⟨i, hi, hget⟩ := List.getElem_of_mem hp'
  have hlen := h.pending.length_eq
  have hstep := h.pending.get (i := i) (hlen ▸ hi) hi
  simp only [List.get_eq_getElem, hget] at hstep
  split at hstep
  case isTrue hdue =>
    have hdelay := p'.min_le_delay rto
    have hsent := hstep.lastSentAt
    unfold PendingSegment.Due
    rw [hsent]
    exact Nat.not_le.mpr (Nat.lt_add_of_pos_right (Nat.lt_of_lt_of_le hmin hdelay))
  case isFalse hdue =>
    rw [hstep]
    exact hdue

end ConnState

/-! ### The table -/

namespace TcpConnections

/-- The instants at which pending segments are due can be represented. -/
def DueTimesFit (self : TcpConnections) : Prop :=
  ∀ key conn, self.get key = some conn → conn.DueTimesFit self.rtoConfig

/-- It is enough to look at the entries. -/
theorem dueTimesFit_of_entries {self : TcpConnections}
    (h : ∀ e ∈ self.table.entries, ∀ p ∈ e.2.pending, p.Fits self.rtoConfig) :
    self.DueTimesFit := by
  intro key conn hget
  exact h _ (mem_entries_of_get hget)

/-- What the retransmission sweep at `now` makes of a table, and what it sends. -/
structure Swept (before : TcpConnections) (now : Instant) (after : TcpConnections)
    (sent : List (TcpSegment .Out)) : Prop where
  config : SameConfig before after
  unknown : ∀ key, before.get key = none → after.get key = none ∧ segmentsOf key sent = []
  /-- A connection with a due segment out of retries goes, and nothing is sent for it. -/
  givenUp : ∀ key conn, before.get key = some conn →
    conn.GivesUp before.rtoConfig before.maxRetries now →
    after.get key = none ∧ segmentsOf key sent = []
  /-- Every other connection stays, and its due segments are sent again. -/
  kept : ∀ key conn, before.get key = some conn →
    ¬ conn.GivesUp before.rtoConfig before.maxRetries now →
    ∃ conn', after.get key = some conn' ∧
      conn.SweptTo before.rtoConfig now key conn' (segmentsOf key sent)
  /-- Nothing is due any more, -/
  quiet : ∀ key conn, after.get key = some conn → ∀ p ∈ conn.pending, ∀ late,
    ConnState.isDue after.rtoConfig now late p = false
  /-- and the deadline for the next sweep lies ahead. -/
  deadline : ∀ late deadline, after.nextRetransmitDeadline late = some deadline →
    now.nanos < deadline.nanos

/-- A pending segment is due at `d`, if the clock shows `late` where its due time overflows. -/
def PendingDue (self : TcpConnections) (late d : Instant) : Prop :=
  ∃ key conn, self.get key = some conn ∧
    ∃ p ∈ conn.pending, p.timeDue self.rtoConfig late = d

/-- The deadline is the first of the due times of the pending segments. -/
theorem nextRetransmitDeadline_eq_some_iff {self : TcpConnections} {late d : Instant} :
    self.nextRetransmitDeadline late = some d ↔ IsLeast {d | self.PendingDue late d} d := by
  have hmem : ∀ d, (d ∈ (self.table.entries.flatMap fun e => e.2.pending).map
      fun p => p.timeDue self.rtoConfig late) ↔ self.PendingDue late d := by
    intro d
    rw [List.mem_map]
    constructor
    · rintro ⟨p, hp, hdue⟩
      obtain ⟨e, he, hpe⟩ := List.mem_flatMap.mp hp
      exact ⟨e.1, e.2, AList.mem_lookup_iff.mpr he, p, hpe, hdue⟩
    · rintro ⟨key, conn, hget, p, hp, hdue⟩
      exact ⟨p, List.mem_flatMap.mpr ⟨_, mem_entries_of_get hget, hp⟩, hdue⟩
  unfold nextRetransmitDeadline
  rw [List.min?_eq_some_iff, hmem]
  simp only [hmem]
  exact Iff.rfl

/-- If a segment is pending there is one, and it is not after the segment's due time. -/
theorem exists_nextRetransmitDeadline {self : TcpConnections} {late d : Instant}
    (h : self.PendingDue late d) :
    ∃ next, self.nextRetransmitDeadline late = some next ∧ next ≤ d := by
  cases hnext : self.nextRetransmitDeadline late with
  | some next => exact ⟨next, rfl, (nextRetransmitDeadline_eq_some_iff.mp hnext).2 h⟩
  | none =>
    obtain ⟨key, conn, hget, p, hp, -⟩ := h
    unfold nextRetransmitDeadline at hnext
    rw [List.min?_eq_none_iff, List.map_eq_nil_iff, List.flatMap_eq_nil_iff] at hnext
    have hempty := hnext _ (mem_entries_of_get hget)
    rw [hempty] at hp
    cases hp

/-- **The retransmission sweep** does what it has to do. -/
theorem retransmission_sweep (self : TcpConnections) (now late : Instant)
    (hmin : 0 < self.rtoConfig.min) (hfit : self.DueTimesFit)
    (hfit' : (self.makeRetransmissions now late).1.DueTimesFit) :
    self.Swept now (self.makeRetransmissions now late).1
      (self.makeRetransmissions now late).2 := by
  have hget := fun key => self.makeRetransmissions_get now late key
  have hcfg : SameConfig self (self.makeRetransmissions now late).1 :=
    (retransmitKeys_get now late _ (self.dueKeys_nodup now late) self).1
  have hunknown : ∀ key, self.get key = none →
      (self.makeRetransmissions now late).1.get key = none ∧
      segmentsOf key (self.makeRetransmissions now late).2 = [] := by
    intro key hnone
    obtain ⟨-, hconn, hsent⟩ := hget key
    rw [hconn, hsent, resentFor, hnone]
    exact ⟨rfl, rfl⟩
  have hgiven : ∀ key conn, self.get key = some conn →
      conn.GivesUp self.rtoConfig self.maxRetries now →
      (self.makeRetransmissions now late).1.get key = none ∧
      segmentsOf key (self.makeRetransmissions now late).2 = [] := by
    intro key conn hsome hgives
    obtain ⟨-, hconn, hsent⟩ := hget key
    have hnone := (ConnState.retransmit_eq_none_iff (hfit key conn hsome) late).mpr hgives
    rw [hconn, hsent, resentFor, hsome, Option.bind_some, Option.bind_some, hnone]
    exact ⟨rfl, rfl⟩
  have hkept : ∀ key conn, self.get key = some conn →
      ¬ conn.GivesUp self.rtoConfig self.maxRetries now →
      ∃ conn', (self.makeRetransmissions now late).1.get key = some conn' ∧
        conn.SweptTo self.rtoConfig now key conn'
          (segmentsOf key (self.makeRetransmissions now late).2) := by
    intro key conn hsome hkeeps
    obtain ⟨-, hconn, hsent⟩ := hget key
    obtain ⟨conn', resent, hre, hswept⟩ :=
      ConnState.sweptTo_retransmit (hfit key conn hsome) hkeeps late key
    rw [hconn, hsent, resentFor, hsome, Option.bind_some, Option.bind_some, hre]
    exact ⟨conn', rfl, hswept⟩
  have hquiet : ∀ key conn, (self.makeRetransmissions now late).1.get key = some conn →
      ∀ p ∈ conn.pending, ¬ p.Due self.rtoConfig now := by
    intro key conn hafter
    cases hsome : self.get key with
    | none =>
      rw [(hunknown key hsome).1] at hafter
      cases hafter
    | some before =>
      by_cases hgives : before.GivesUp self.rtoConfig self.maxRetries now
      · rw [(hgiven key before hsome hgives).1] at hafter
        cases hafter
      · obtain ⟨conn', hconn', hswept⟩ := hkept key before hsome hgives
        obtain rfl := Option.some.inj (hafter.symm.trans hconn')
        exact hswept.not_due hmin
  refine ⟨hcfg, hunknown, hgiven, hkept, fun key conn hafter p hp late' => ?_,
    fun late' deadline hdeadline => ?_⟩
  · rw [(hfit' key conn hafter p hp).isDue, hcfg.1]
    exact decide_eq_false (hquiet key conn hafter p hp)
  · obtain ⟨⟨key, conn, hafter, p, hp, rfl⟩, -⟩ :=
      nextRetransmitDeadline_eq_some_iff.mp hdeadline
    have hnot := hquiet key conn hafter p hp
    rw [(hfit' key conn hafter p hp).timeDue, hcfg.1]
    exact Nat.lt_of_not_le hnot

/-- A table with one connection, whose SYN-ACK is not acknowledged. -/
def SYN_ACKED : TcpConnections :=
  (new 1000000000 3).set KEY (ConnState.opened SERVER_ISN CLIENT_ISN ⟨0⟩)

/-- A second later the SYN-ACK goes out again. -/
theorem retransmission_sweep_synAck :
    (SYN_ACKED.makeRetransmissions ⟨1000000000⟩ ⟨1000000000⟩).2
        = [KEY.outgoing (synAck SERVER_ISN CLIENT_ISN)] ∧
      SYN_ACKED.Swept ⟨1000000000⟩ (SYN_ACKED.makeRetransmissions ⟨1000000000⟩ ⟨1000000000⟩).1
        (SYN_ACKED.makeRetransmissions ⟨1000000000⟩ ⟨1000000000⟩).2 := by
  refine ⟨by decide +kernel, retransmission_sweep _ _ _ (by decide) ?_ ?_⟩
  all_goals
    apply dueTimesFit_of_entries
    decide +kernel

end TcpConnections

end Typenet

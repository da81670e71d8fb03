import Typenet.Stack.Tcp.Segment

namespace Typenet

/-!
# Time and unacknowledged segments

Durations and instants count nanoseconds.  `Duration` operations saturate at
`Duration.MAX`; an addition to an instant is checked.  Wherever the code reads the clock,
the reading is an argument.
-/

/-! ### Time -/

/-- `std::time::Duration`, in nanoseconds. -/
abbrev Duration := Nat

/-- `Duration::MAX`. -/
def Duration.MAX : Duration := (2 ^ 64 - 1) * 10 ^ 9 + 999999999

def Duration.fromMillis (ms : Nat) : Duration := ms * 10 ^ 6

/-- `Duration::saturating_mul`. -/
def Duration.saturatingMul (d : Duration) (n : Nat) : Duration := min (d * n) Duration.MAX

/-- `Ord::clamp`, whose assertion `min ≤ max` is the proof argument. -/
def Duration.clamp (d min max : Duration) (_ : min ≤ max) : Duration :=
  if d < min then min else if max < d then max else d

/-- `std::time::Instant`, in nanoseconds on a monotonic clock. -/
structure Instant where
  nanos : Nat
  deriving DecidableEq, Repr

namespace Instant

/-- The last representable instant, with seconds held in an `i64`. -/
def MAX : Nat := (2 ^ 63 - 1) * 10 ^ 9 + 999999999

/-- `Instant::checked_add`. -/
def checkedAdd (t : Instant) (d : Duration) : Option Instant :=
  if t.nanos + d ≤ MAX then some ⟨t.nanos + d⟩ else none

/-- `Instant::try_add`. -/
def tryAdd (t : Instant) (d : Duration) : TraceableResult Instant :=
  let secs := d / 10 ^ 9
  match t.checkedAdd d with
  | some t' => .ok t'
  | none => .error (.dynamic s!"Overflowed `Instant` adding {secs} seconds")

/-- `Instant::saturating_duration_since`. -/
def saturatingDurationSince (t earlier : Instant) : Duration := t.nanos - earlier.nanos

instance : LE Instant := ⟨fun a b => a.nanos ≤ b.nanos⟩

instance (a b : Instant) : Decidable (a ≤ b) := inferInstanceAs (Decidable (a.nanos ≤ b.nanos))

/-- `Ord::min`. -/
instance : Min Instant := ⟨fun a b => if a ≤ b then a else b⟩

theorem le_iff {a b : Instant} : a ≤ b ↔ a.nanos ≤ b.nanos := Iff.rfl

instance : Std.IsLinearOrder Instant where
  le_refl a := Nat.le_refl a.nanos
  le_trans _ _ _ := Nat.le_trans
  le_antisymm := fun ⟨_⟩ ⟨_⟩ hab hba => congrArg Instant.mk (Nat.le_antisymm hab hba)
  le_total a b := Nat.le_total a.nanos b.nanos

instance : Std.LawfulOrderMin Instant where
  min_eq_or a b := by
    show (if a ≤ b then a else b) = a ∨ (if a ≤ b then a else b) = b
    split <;> simp
  le_min_iff a b c := by
    show a ≤ (if b ≤ c then b else c) ↔ a ≤ b ∧ a ≤ c
    simp only [le_iff]
    split <;> omega

/-- An instant that can be represented is reached. -/
theorem checkedAdd_of_le {t : Instant} {d : Duration} (h : t.nanos + d ≤ MAX) :
    t.checkedAdd d = some ⟨t.nanos + d⟩ := if_pos h

end Instant

/-- The initial, minimum and maximum retransmission timeouts. -/
structure RtoConfig where
  initial : Duration
  min : Duration
  max : Duration
  min_le_max : min ≤ max

def TCP_RTO_MIN : Duration := Duration.fromMillis 200

def TCP_RTO_MAX : Duration := Duration.fromMillis 120000

/-! ### Pending segments -/

/-- A sent segment that consumed sequence numbers and hasn't yet been acknowledged. -/
structure PendingSegment where
  /-- The values and data the segment was sent with, frozen at send time. -/
  sendInfo : SendInfo
  /-- One past the last byte or flag consumed by the segment. -/
  endSeq : SeqPoint .Out
  lastSentAt : Instant
  retries : UInt8
  deriving DecidableEq

/-- The sequence numbers a segment consumes: one for SYN or FIN, one for each byte. -/
def SendInfo.consumed (info : SendInfo) : Nat :=
  (if info.flags = .Syn ∨ info.flags = .SynAck ∨ info.flags = .FinAck then 1 else 0)
    + TcpPayload.lenOrDefault info.payload

namespace PendingSegment

/-- Creates a new unacked segment covering the sequence numbers it consumes. -/
def new (sendInfo : SendInfo) (sentAt : Instant) : PendingSegment where
  sendInfo := sendInfo
  endSeq := sendInfo.seqNum + sendInfo.consumed
  lastSentAt := sentAt
  retries := 0

@[simp] theorem new_sendInfo (i : SendInfo) (t : Instant) : (new i t).sendInfo = i := rfl

@[simp] theorem new_endSeq (i : SendInfo) (t : Instant) :
    (new i t).endSeq = i.seqNum + i.consumed := rfl

/-- `2u32.saturating_pow`. -/
def backoff (retries : UInt8) : Nat := min (2 ^ retries.toNat) (2 ^ 32 - 1)

/-- The time at which the segment is due, or the clock's reading `now` if the instant
    overflows. -/
def timeDue (self : PendingSegment) (rto : RtoConfig) (now : Instant) : Instant :=
  let delay := (rto.initial.saturatingMul (backoff self.retries)).clamp rto.min rto.max
    rto.min_le_max
  (self.lastSentAt.checkedAdd delay).getD now

/-- How long after it was last sent the segment is due. -/
def delay (self : PendingSegment) (rto : RtoConfig) : Duration :=
  (rto.initial.saturatingMul (backoff self.retries)).clamp rto.min rto.max rto.min_le_max

/-- A due time that overflows is read off the clock. -/
theorem timeDue_eq (self : PendingSegment) (rto : RtoConfig) (now : Instant) :
    self.timeDue rto now = (self.lastSentAt.checkedAdd (self.delay rto)).getD now := rfl

/-- A delay is never shorter than the least one. -/
theorem min_le_delay (self : PendingSegment) (rto : RtoConfig) : rto.min ≤ self.delay rto := by
  unfold delay Duration.clamp
  split
  case isTrue => exact Nat.le_refl _
  case isFalse hmin =>
    split
    case isTrue => exact rto.min_le_max
    case isFalse => exact Nat.le_of_not_lt hmin

/-- Nor longer than the longest. -/
theorem delay_le_max (self : PendingSegment) (rto : RtoConfig) : self.delay rto ≤ rto.max := by
  unfold delay Duration.clamp
  split
  case isTrue => exact rto.min_le_max
  case isFalse =>
    split
    case isTrue => exact Nat.le_refl _
    case isFalse hmax => exact Nat.le_of_not_lt hmax

/-- Whether the segment is fully covered by `ackNum`. -/
def isCoveredBy (self : PendingSegment) (ackNum : SeqPoint .Out) : Bool :=
  self.endSeq.precedesOrEq ackNum

def exhaustedRetries (self : PendingSegment) (maxRetries : UInt8) : Bool :=
  decide (maxRetries ≤ self.retries)

/-- Records that the segment is being retransmitted `now`. -/
def retransmitted (self : PendingSegment) (now : Instant) : PendingSegment :=
  { self with retries := if self.retries = 255 then 255 else self.retries + 1, lastSentAt := now }

@[simp] theorem retransmitted_sendInfo (p : PendingSegment) (t : Instant) :
    (p.retransmitted t).sendInfo = p.sendInfo := rfl

@[simp] theorem retransmitted_endSeq (p : PendingSegment) (t : Instant) :
    (p.retransmitted t).endSeq = p.endSeq := rfl

end PendingSegment

end Typenet

import Typenet.Connection.Session

namespace Typenet

/-!
# Shifting the sequence spaces

The two streams of a connection are numbered from arbitrary points.  A `SeqShift` renumbers both
of them, in segments, in queued segments, in the reassembly buffer and in the state of a
connection.  Only the SEG.ACK of a bare RST, which is the constant 0, is no sequence number.

Every comparison of the code is of two points of one stream, so renumbering changes none
(`precedes_shift` and its kin), and every handler commutes with it
(`SendInfo.handleKnownConn_shift`).
-/

/-- A shift of the peer's stream and of our own. -/
structure SeqShift where
  peer : BitVec 32
  own : BitVec 32

/-- The shift of the stream that flows in direction `D`. -/
def SeqShift.along (r : SeqShift) : Direction → BitVec 32
  | .In => r.peer
  | .Out => r.own

variable (r : SeqShift)

/-! ### Points -/

namespace SeqPoint

variable {D : Direction}

/-- The point after renumbering. -/
def shift (p : SeqPoint D) : SeqPoint D := ⟨p.wrapping + r.along D⟩

@[simp] theorem shift_add (p : SeqPoint D) (n : Nat) : p.shift r + n = (p + n).shift r := by
  show (⟨p.wrapping + r.along D + BitVec.ofNat 32 n⟩ : SeqPoint D)
    = ⟨p.wrapping + BitVec.ofNat 32 n + r.along D⟩
  congr 1
  grind

@[simp] theorem shift_inj {p q : SeqPoint D} : p.shift r = q.shift r ↔ p = q := by
  obtain ⟨p⟩ := p
  obtain ⟨q⟩ := q
  simp [shift]

@[simp] theorem shift_sub (p q : SeqPoint D) : (p.shift r).sub (q.shift r) = p.sub q := by
  have h : p.wrapping + r.along D - (q.wrapping + r.along D) = p.wrapping - q.wrapping := by grind
  unfold sub shift
  rw [h]

@[simp] theorem precedes_shift (p q : SeqPoint D) :
    (p.shift r).precedes (q.shift r) = p.precedes q := by
  unfold precedes
  rw [shift_sub]

@[simp] theorem beq_shift (p q : SeqPoint D) : (p.shift r == q.shift r) = (p == q) := by
  apply Bool.eq_iff_iff.mpr
  rw [beq_iff_eq, beq_iff_eq, shift_inj]

@[simp] theorem precedesOrEq_shift (p q : SeqPoint D) :
    (p.shift r).precedesOrEq (q.shift r) = p.precedesOrEq q := by
  unfold precedesOrEq
  rw [beq_shift, precedes_shift]

@[simp] theorem inWindow_shift (p start : SeqPoint D) (len : Nat) :
    (p.shift r).inWindow (start.shift r) len = p.inWindow start len := by
  unfold inWindow
  rw [precedesOrEq_shift, shift_add, precedes_shift]

end SeqPoint

/-! ### Segments -/

/-- An incoming segment after renumbering. -/
def TcpSegment.shift (seg : TcpSegment .In) : TcpSegment .In :=
  { seg with seqNum := seg.seqNum.shift r, ackNum := SeqPoint.shift (D := .Out) r seg.ackNum }

namespace TcpSegment

variable (seg : TcpSegment .In)

@[simp] theorem shift_ipPair : (seg.shift r).ipPair = seg.ipPair := rfl
@[simp] theorem shift_ports : (seg.shift r).ports = seg.ports := rfl
@[simp] theorem shift_seqNum : (seg.shift r).seqNum = seg.seqNum.shift r := rfl
@[simp] theorem shift_ackNum :
    (seg.shift r).ackNum = SeqPoint.shift (D := .Out) r seg.ackNum := rfl
@[simp] theorem shift_flags : (seg.shift r).flags = seg.flags := rfl
@[simp] theorem shift_payload : (seg.shift r).payload = seg.payload := rfl

end TcpSegment

namespace SendInfo

/-- A segment to be sent, after renumbering; the SEG.ACK of a bare RST is a constant. -/
def shift (info : SendInfo) : SendInfo where
  seqNum := info.seqNum.shift r
  ackNum := if info.flags = .Rst then info.ackNum else info.ackNum.shift r
  flags := info.flags
  payload := info.payload

@[simp] theorem shift_consumed (info : SendInfo) : (info.shift r).consumed = info.consumed := rfl

@[simp] theorem rst_shift (seg : TcpSegment .In) : rst (seg.shift r) = (rst seg).shift r := rfl

end SendInfo

namespace PendingSegment

/-- A queued segment after renumbering. -/
def shift (p : PendingSegment) : PendingSegment :=
  { p with sendInfo := p.sendInfo.shift r, endSeq := p.endSeq.shift r }

@[simp] theorem new_shift (info : SendInfo) (now : Instant) :
    new (info.shift r) now = (new info now).shift r := by
  unfold new shift
  congr 1
  exact SeqPoint.shift_add r info.seqNum info.consumed

@[simp] theorem isCoveredBy_shift (p : PendingSegment) (ackNum : SeqPoint .Out) :
    (p.shift r).isCoveredBy (ackNum.shift r) = p.isCoveredBy ackNum :=
  SeqPoint.precedesOrEq_shift r p.endSeq ackNum

end PendingSegment

/-! ### Reassembly -/

namespace TcpReassembly

/-- The buffered segments after renumbering. -/
def shiftSegments (segments : List (SeqPoint .In × TcpPayload)) :
    List (SeqPoint .In × TcpPayload) :=
  segments.map fun e => (e.1.shift r, e.2)

/-- The buffer after renumbering. -/
def shift (self : TcpReassembly) : TcpReassembly where
  segments := shiftSegments r self.segments
  finSeq := self.finSeq.map (·.shift r)

@[simp] theorem markFin_shift (self : TcpReassembly) (seq : SeqPoint .In) :
    (self.shift r).markFin (seq.shift r) = (self.markFin seq).shift r := by
  unfold markFin shift
  cases self.finSeq <;> rfl

@[simp] theorem finReached_shift (self : TcpReassembly) (rcvNxt : SeqPoint .In) :
    (self.shift r).finReached (rcvNxt.shift r) = self.finReached rcvNxt := by
  unfold finReached shift
  cases self.finSeq with
  | none => rfl
  | some finSeq => exact SeqPoint.precedesOrEq_shift r finSeq rcvNxt

/-- Inserting a shifted segment is inserting the segment and shifting. -/
theorem insertSegment_shift (seq : SeqPoint .In) (payload : TcpPayload)
    (segments : List (SeqPoint .In × TcpPayload)) :
    insertSegment (seq.shift r) payload (shiftSegments r segments)
      = shiftSegments r (insertSegment seq payload segments) := by
  induction segments with
  | nil => rfl
  | cons e rest ih =>
    obtain ⟨start, existing⟩ := e
    show (if start.shift r = seq.shift r then _ else _)
      = shiftSegments r (if start = seq then _ else _)
    by_cases h : start = seq
    · rw [if_pos h, if_pos ((SeqPoint.shift_inj r).mpr h)]; rfl
    · rw [if_neg h, if_neg (mt (SeqPoint.shift_inj r).mp h)]
      exact congrArg _ ih

@[simp] theorem insert_shift (self : TcpReassembly) (seq : SeqPoint .In) (payload : TcpPayload) :
    (self.shift r).insert (seq.shift r) payload = (self.insert seq payload).shift r := by
  unfold insert shift
  rw [insertSegment_shift]

/-- One round of the iterator extracts the same payload. -/
theorem nextContiguous_shift (rcvNxt : SeqPoint .In)
    (segments : List (SeqPoint .In × TcpPayload)) :
    nextContiguous (rcvNxt.shift r) (shiftSegments r segments)
      = ((nextContiguous rcvNxt segments).1,
        shiftSegments r (nextContiguous rcvNxt segments).2) := by
  induction segments with
  | nil => rfl
  | cons e rest ih =>
    obtain ⟨start, payload⟩ := e
    show nextContiguous _ ((start.shift r, payload) :: shiftSegments r rest) = _
    unfold nextContiguous
    rw [SeqPoint.precedesOrEq_shift, ih]
    by_cases hle : start.precedesOrEq rcvNxt = true
    · rw [if_pos hle, if_pos hle]
      by_cases heq : start = rcvNxt
      · rw [if_pos heq, if_pos ((SeqPoint.shift_inj r).mpr heq)]
      · rw [if_neg heq, if_neg (mt (SeqPoint.shift_inj r).mp heq)]
    · rw [if_neg hle, if_neg hle]
      rfl

/-- The rounds of draining pick the same segments whatever the origin. -/
theorem drainRounds_shift (fuel : Nat) (segments : List (SeqPoint .In × TcpPayload))
    (rcvNxt : SeqPoint .In) :
    drainRounds fuel (shiftSegments r segments) (rcvNxt.shift r)
      = ((drainRounds fuel segments rcvNxt).1,
        shiftSegments r (drainRounds fuel segments rcvNxt).2.1,
        (drainRounds fuel segments rcvNxt).2.2.shift r) := by
  induction fuel generalizing segments rcvNxt with
  | zero => rfl
  | succ fuel ih =>
    unfold drainRounds
    rw [nextContiguous_shift]
    obtain ⟨_ | payload, kept⟩ := nextContiguous rcvNxt segments
    · rfl
    · simp only [SeqPoint.shift_add, ih]

@[simp] theorem drainContiguous_shift (self : TcpReassembly) (rcvNxt : SeqPoint .In) :
    (self.shift r).drainContiguous (rcvNxt.shift r)
      = ((self.drainContiguous rcvNxt).1, (self.drainContiguous rcvNxt).2.1.shift r,
        (self.drainContiguous rcvNxt).2.2.shift r) := by
  have hseg : (self.shift r).segments = shiftSegments r self.segments := rfl
  have hlen : (shiftSegments r self.segments).length = self.segments.length := List.length_map ..
  unfold drainContiguous
  simp only [hseg, hlen, drainRounds_shift]
  rfl

end TcpReassembly

/-! ### Connections -/

/-- SND.WL1 and SND.WL2 after renumbering. -/
def WindowState.shift (w : WindowState) : WindowState :=
  { w with sndWl1 := w.sndWl1.shift r, sndWl2 := w.sndWl2.shift r }

def SyncedState.shift {T : Synced} (s : SyncedState T) : SyncedState T :=
  ⟨s.windowState.shift r⟩

@[simp] theorem SyncedState.rcvFin_shift (s : SyncedState .Established) :
    (s.shift r).rcvFin = s.rcvFin.shift r := rfl

/-- The same state, with its window renumbered. -/
def TcpState.shift : TcpState → TcpState
  | .SynReceived => .SynReceived
  | .Established s => .Established (s.shift r)
  | .FinWait1 s => .FinWait1 (s.shift r)
  | .FinWait2 s => .FinWait2 (s.shift r)
  | .CloseWait s => .CloseWait (s.shift r)
  | .Closing s => .Closing (s.shift r)
  | .LastAck s => .LastAck (s.shift r)

/-- The connection after renumbering. -/
def ConnState.shift (conn : ConnState) : ConnState where
  tcpState := conn.tcpState.shift r
  sndNxt := conn.sndNxt.shift r
  rcvNxt := conn.rcvNxt.shift r
  sndUna := conn.sndUna.shift r
  pending := conn.pending.map (PendingSegment.shift r)
  sendBuffer := conn.sendBuffer
  reassembly := conn.reassembly.shift r

/-- What a handler leaves behind, after renumbering. -/
def Handled.shift {σ : Type} (h : Handled σ) : Handled σ where
  app := h.app
  conn := h.conn.shift r
  result := h.result.map fun out => (out.1.map (SendInfo.shift r), out.2)

namespace ConnState

variable (conn : ConnState)

@[simp] theorem shift_tcpState : (conn.shift r).tcpState = conn.tcpState.shift r := rfl
@[simp] theorem shift_sndNxt : (conn.shift r).sndNxt = conn.sndNxt.shift r := rfl
@[simp] theorem shift_rcvNxt : (conn.shift r).rcvNxt = conn.rcvNxt.shift r := rfl
@[simp] theorem shift_sndUna : (conn.shift r).sndUna = conn.sndUna.shift r := rfl
@[simp] theorem shift_pending :
    (conn.shift r).pending = conn.pending.map (PendingSegment.shift r) := rfl
@[simp] theorem shift_sendBuffer : (conn.shift r).sendBuffer = conn.sendBuffer := rfl
@[simp] theorem shift_reassembly : (conn.shift r).reassembly = conn.reassembly.shift r := rfl

@[simp] theorem ackInRange_shift (ackNum : SeqPoint .Out) :
    (conn.shift r).ackInRange (ackNum.shift r) = conn.ackInRange ackNum := by
  simp [ackInRange]

/-- A renumbered connection with another RCV.NXT. -/
theorem shift_setRcvNxt (m : SeqPoint .In) :
    ConnState.mk (conn.shift r).tcpState (conn.shift r).sndNxt (m.shift r) (conn.shift r).sndUna
        (conn.shift r).pending (conn.shift r).sendBuffer (conn.shift r).reassembly
      = ({ conn with rcvNxt := m } : ConnState).shift r := rfl

/-- A renumbered connection that moves to ESTABLISHED. -/
theorem shift_setEstablished (est : SyncedState .Established) :
    ConnState.mk (.Established (est.shift r)) (conn.shift r).sndNxt (conn.shift r).rcvNxt
        (conn.shift r).sndUna (conn.shift r).pending (conn.shift r).sendBuffer
        (conn.shift r).reassembly
      = ({ conn with tcpState := .Established est } : ConnState).shift r := rfl

/-- Queueing commutes with renumbering. -/
theorem shift_queue (info : SendInfo) (now : Instant) :
    conn.pending.map (PendingSegment.shift r) ++ [PendingSegment.new (info.shift r) now]
      = (conn.pending ++ [PendingSegment.new info now]).map (PendingSegment.shift r) := by
  rw [List.map_append, PendingSegment.new_shift]
  rfl

end ConnState

@[simp] theorem SeqCheck.check_shift (seg : TcpSegment .In) (conn : ConnState) :
    check (seg.shift r) (conn.shift r) = check seg conn := by
  simp [check]

@[simp] theorem WindowState.staleGuard_shift (w : WindowState) (seg : TcpSegment .In) :
    (w.shift r).staleGuard (seg.shift r) = w.staleGuard seg := by
  simp [staleGuard, shift]

@[simp] theorem WindowState.updated_shift (w : WindowState) (conn : ConnState)
    (seg : TcpSegment .In) :
    (w.shift r).updated (conn.shift r) (seg.shift r) = (w.updated conn seg).shift r := by
  unfold updated
  rw [TcpSegment.shift_ackNum, ConnState.ackInRange_shift, staleGuard_shift]
  split <;> rfl

/-- **Acknowledgments commute with renumbering.** -/
@[simp] theorem SyncedState.incomingAckUpdate_shift {T : Synced} (self : SyncedState T)
    (conn : ConnState) (seg : TcpSegment .In) :
    (self.shift r).incomingAckUpdate (conn.shift r) (seg.shift r)
      = ((self.incomingAckUpdate conn seg).1.shift r,
        (self.incomingAckUpdate conn seg).2.shift r) := by
  have hcovered : (conn.pending.map (PendingSegment.shift r)).filter
        (fun p => !p.isCoveredBy (SeqPoint.shift (D := .Out) r seg.ackNum))
      = (conn.pending.filter fun p => !p.isCoveredBy seg.ackNum).map (PendingSegment.shift r) := by
    rw [List.filter_map]
    refine congrArg _ (List.filter_congr fun p _ => ?_)
    exact congrArg _ (PendingSegment.isCoveredBy_shift r p seg.ackNum)
  have hacked : (conn.shift r).acked (SeqPoint.shift (D := .Out) r seg.ackNum)
      = (conn.acked seg.ackNum).shift r := by
    unfold ConnState.acked ConnState.ackedUna ConnState.ackedPending
    simp only [ConnState.ackInRange_shift, ConnState.shift_sndUna, SeqPoint.precedes_shift,
      ConnState.shift_pending, hcovered]
    split <;> rfl
  rw [incomingAckUpdate_eq, incomingAckUpdate_eq, TcpSegment.shift_ackNum, hacked]
  show ((⟨(self.windowState.shift r).updated _ _⟩ : SyncedState T), _) = _
  rw [WindowState.updated_shift]
  rfl

/-- Draining commutes with renumbering. -/
@[simp] theorem SyncedState.drainTransmittable_shift {T : Synced} [SyncedState.SendSideOpen T]
    (self : SyncedState T) (conn : ConnState) :
    (self.shift r).drainTransmittable (conn.shift r)
      = ((self.drainTransmittable conn).1, (self.drainTransmittable conn).2.shift r) := by
  unfold drainTransmittable
  simp only [ConnState.shift_sndNxt, ConnState.shift_sndUna, SeqPoint.shift_sub]
  split <;> rfl

/-! ### Handlers -/

namespace SendInfo

variable {σ : Type} (A : Application σ) (app : σ) (seg : TcpSegment .In) (conn : ConnState)
  (now : Instant)

/-- A pure ACK of a shifted connection is the shifted one. -/
theorem pureAck_shift : pureAck (conn.shift r) = (pureAck conn).shift r := rfl

/-- The common fallback answers a shifted segment as it answers the segment. -/
theorem knownConnCommonFallback_shift :
    knownConnCommonFallback (seg.shift r) (conn.shift r)
      = ((knownConnCommonFallback seg conn).1.map (shift r),
        (knownConnCommonFallback seg conn).2) := by
  have hsyn : (conn.shift r).tcpState ≠ .SynReceived ↔ conn.tcpState ≠ .SynReceived := by
    rw [ConnState.shift_tcpState]
    cases conn.tcpState <;> simp [TcpState.shift]
  unfold knownConnCommonFallback
  simp only [TcpSegment.shift_flags, SeqCheck.check_shift, hsyn, rst_shift, pureAck_shift]
  split
  all_goals first | rfl | (split <;> rfl)

/-- Completing the handshake keeps the shift. -/
theorem completeHandshake_shift :
    completeHandshake (seg.shift r) (conn.shift r)
      = ((completeHandshake seg conn).1.shift r, (completeHandshake seg conn).2.shift r) := rfl

/-- What is delivered does not depend on the origin. -/
theorem deliverPayload_shift (p : Option TcpPayload) :
    deliverPayload A app (conn.shift r) p
      = ((deliverPayload A app conn p).1, (deliverPayload A app conn p).2.shift r) := by
  cases p with
  | none => rfl
  | some payload =>
    unfold deliverPayload
    simp only [ConnState.shift_rcvNxt, SeqPoint.shift_add]
    rfl

/-- Nor does what reassembly delivers. -/
theorem deliverReassembled_shift :
    deliverReassembled A app (conn.shift r)
      = ((deliverReassembled A app conn).1, (deliverReassembled A app conn).2.shift r) := by
  unfold deliverReassembled
  simp only [ConnState.shift_rcvNxt, ConnState.shift_reassembly,
    TcpReassembly.drainContiguous_shift]
  rfl

/-- A segment of data is sent at the shifted point. -/
theorem dataPayload_shift (p : TcpPayload) :
    dataPayload (conn.shift r) p now
      = ((dataPayload conn p now).1.shift r, (dataPayload conn p now).2.shift r) := by
  unfold dataPayload ConnState.shift
  simp only [SeqPoint.shift_add, ← ConnState.shift_queue]
  rfl

/-- The passive close keeps the shift. -/
theorem closeWaitOrLastAck_shift (cw : SyncedState .CloseWait) :
    closeWaitOrLastAck (conn.shift r) (cw.shift r) now
      = ((closeWaitOrLastAck conn cw now).1.map (shift r),
        (closeWaitOrLastAck conn cw now).2.shift r) := by
  unfold closeWaitOrLastAck
  rw [SyncedState.drainTransmittable_shift]
  obtain ⟨_ | toSend, conn⟩ := cw.drainTransmittable conn
  · rfl
  · by_cases hempty : conn.sendBuffer = []
    · have hempty' : (conn.shift r).sendBuffer = [] := hempty
      -- the FIN goes out with what is left
      simp only [if_pos hempty, if_pos hempty', ConnState.shift_sndNxt, SeqPoint.shift_add]
      apply congrArg (Prod.mk _)
      apply congrArg (ConnState.mk _ _ _ _ · _ _)
      exact ConnState.shift_queue r conn ⟨conn.sndNxt, conn.rcvNxt, .FinAck, toSend⟩ now
    · have hempty' : ¬ (conn.shift r).sendBuffer = [] := hempty
      simp only [if_neg hempty, if_neg hempty']
      cases toSend with
      | none => rfl
      | some payload =>
        have hdata := dataPayload_shift r { conn with tcpState := .CloseWait cw } now payload
        exact congrArg (fun out : SendInfo × ConnState => (Except.ok out.1, out.2)) hdata

/-- The outcome of passive close, as the handlers return it. -/
theorem map_closeWaitOrLastAck_shift (cw : SyncedState .CloseWait) :
    (⟨app, (closeWaitOrLastAck (conn.shift r) (cw.shift r) now).2,
      (closeWaitOrLastAck (conn.shift r) (cw.shift r) now).1.map fun info => (some info, false)⟩ :
        Handled σ)
      = Handled.shift r ⟨app, (closeWaitOrLastAck conn cw now).2,
        (closeWaitOrLastAck conn cw now).1.map fun info => (some info, false)⟩ := by
  rw [closeWaitOrLastAck_shift]
  unfold Handled.shift
  cases (closeWaitOrLastAck conn cw now).1 <;> rfl

/-- A FIN in order closes a shifted connection in the same way. -/
theorem closeOnInOrderFin_shift (p : Option TcpPayload) (est : SyncedState .Established) :
    closeOnInOrderFin A app (seg.shift r) (conn.shift r) p (est.shift r) now
      = (closeOnInOrderFin A app seg conn p est now).shift r := by
  unfold closeOnInOrderFin
  rw [deliverPayload_shift]
  obtain ⟨app, conn⟩ := deliverPayload A app conn p
  simp only [ConnState.shift_rcvNxt, SeqPoint.shift_add, ConnState.shift_setRcvNxt,
    SyncedState.incomingAckUpdate_shift, SyncedState.rcvFin_shift]
  exact map_closeWaitOrLastAck_shift r app _ now _

/-- So does the reply after a delivery. -/
theorem replyAfterDelivery_shift (est : SyncedState .Established) :
    replyAfterDelivery app (conn.shift r) (est.shift r) now
      = (replyAfterDelivery app conn est now).shift r := by
  unfold replyAfterDelivery
  simp only [ConnState.shift_rcvNxt, SeqPoint.shift_add, ConnState.shift_setRcvNxt,
    SyncedState.drainTransmittable_shift, SyncedState.rcvFin_shift]
  rw [ConnState.shift_reassembly, TcpReassembly.finReached_shift]
  split
  · exact map_closeWaitOrLastAck_shift r app _ now est.rcvFin
  · obtain ⟨_ | _ | toSend, conn⟩ := est.drainTransmittable conn
    · rfl
    · rfl
    · simp only [dataPayload_shift]; rfl

/-- What a handler that cannot fail leaves behind, after renumbering. -/
def shiftOut (out : (Option SendInfo × Bool) × ConnState) :
    (Option SendInfo × Bool) × ConnState :=
  ((out.1.1.map (shift r), out.1.2), out.2.shift r)

/-- Comparing SEG.ACK with SND.NXT commutes with renumbering. -/
theorem ackNum_eq_sndNxt_shift :
    decide ((seg.shift r).ackNum = (conn.shift r).sndNxt)
      = decide (seg.ackNum = conn.sndNxt) := by
  rw [decide_eq_decide]
  exact SeqPoint.shift_inj (D := .Out) r

/-- FIN-WAIT-1 does not depend on the origin. -/
theorem handleFinWait1_shift (s : SyncedState .FinWait1) :
    handleFinWait1 (seg.shift r) (conn.shift r) (s.shift r)
      = shiftOut r (handleFinWait1 seg conn s) := by
  unfold handleFinWait1
  rw [ackNum_eq_sndNxt_shift]
  simp only [TcpSegment.shift_flags, TcpSegment.shift_payload,
    SeqCheck.check_shift, ConnState.shift_rcvNxt, SeqPoint.shift_add, ConnState.shift_setRcvNxt,
    SyncedState.incomingAckUpdate_shift, knownConnCommonFallback_shift]
  split <;> rfl

/-- FIN-WAIT-2 does not depend on the origin. -/
theorem handleFinWait2_shift (s : SyncedState .FinWait2) :
    handleFinWait2 (seg.shift r) (conn.shift r) (s.shift r)
      = shiftOut r (handleFinWait2 seg conn s) := by
  unfold handleFinWait2
  simp only [TcpSegment.shift_flags, TcpSegment.shift_payload, SeqCheck.check_shift,
    ConnState.shift_rcvNxt, SeqPoint.shift_add, ConnState.shift_setRcvNxt,
    SyncedState.incomingAckUpdate_shift, knownConnCommonFallback_shift]
  split <;> rfl

/-- CLOSING does not depend on the origin. -/
theorem handleClosing_shift (s : SyncedState .Closing) :
    handleClosing (seg.shift r) (conn.shift r) (s.shift r)
      = shiftOut r (handleClosing seg conn s) := by
  unfold handleClosing
  rw [ackNum_eq_sndNxt_shift]
  simp only [TcpSegment.shift_flags, TcpSegment.shift_payload,
    SeqCheck.check_shift, SyncedState.incomingAckUpdate_shift, knownConnCommonFallback_shift]
  split <;> rfl

/-- LAST-ACK does not depend on the origin. -/
theorem handleLastAck_shift (s : SyncedState .LastAck) :
    handleLastAck (seg.shift r) (conn.shift r) (s.shift r)
      = shiftOut r (handleLastAck seg conn s) := by
  unfold handleLastAck
  rw [ackNum_eq_sndNxt_shift]
  simp only [TcpSegment.shift_flags, TcpSegment.shift_payload,
    SeqCheck.check_shift, SyncedState.incomingAckUpdate_shift, knownConnCommonFallback_shift]
  split <;> rfl

/-- CLOSE-WAIT does not depend on the origin. -/
theorem handleCloseWait_shift (s : SyncedState .CloseWait) :
    (⟨app, (handleCloseWait (seg.shift r) (conn.shift r) (s.shift r) now).2,
      (handleCloseWait (seg.shift r) (conn.shift r) (s.shift r) now).1⟩ : Handled σ)
      = Handled.shift r ⟨app, (handleCloseWait seg conn s now).2,
        (handleCloseWait seg conn s now).1⟩ := by
  unfold handleCloseWait
  simp only [TcpSegment.shift_flags, TcpSegment.shift_payload, SeqCheck.check_shift,
    SyncedState.incomingAckUpdate_shift, knownConnCommonFallback_shift]
  split
  · exact map_closeWaitOrLastAck_shift r app _ now _
  · exact map_closeWaitOrLastAck_shift r app _ now _
  · rfl

/-- SYN-RECEIVED does not depend on the origin. -/
theorem handleSynRcv_shift :
    handleSynRcv A app (seg.shift r) (conn.shift r) now
      = (handleSynRcv A app seg conn now).shift r := by
  unfold handleSynRcv
  simp only [TcpSegment.shift_flags, TcpSegment.shift_payload, TcpSegment.shift_seqNum,
    TcpSegment.shift_ackNum, ConnState.shift_sndUna, ConnState.shift_sndNxt,
    SeqPoint.precedes_shift, SeqPoint.precedesOrEq_shift, SeqCheck.check_shift,
    completeHandshake_shift, deliverPayload_shift, deliverReassembled_shift,
    knownConnCommonFallback_shift]
  split
  case h_1 =>
    simp only [SeqPoint.shift_add]
    apply congrArg (Handled.mk app · _)
    apply congrArg (ConnState.mk _ _ _ _ · _ _)
    exact ConnState.shift_queue r conn ⟨conn.sndUna, seg.seqNum + SYN_BYTE, .SynAck, none⟩ now
  case h_2 =>
    obtain ⟨app, conn⟩ := deliverReassembled A _ _
    simp only [ConnState.shift_reassembly, ConnState.shift_rcvNxt, ConnState.shift_sendBuffer,
      TcpReassembly.finReached_shift]
    split
    · rfl
    · exact replyAfterDelivery_shift r app conn now _
  case h_3 => exact closeOnInOrderFin_shift r A app seg _ now _ _
  case h_4 | h_5 =>
    -- with or without a payload, with or without a FIN
    cases seg.payload
    all_goals
      simp only [SeqPoint.shift_add, ConnState.shift_reassembly, TcpReassembly.insert_shift,
        TcpReassembly.markFin_shift]
      split <;> rfl
  case h_6 => rfl

/-- ESTABLISHED does not depend on the origin. -/
theorem handleEstablished_shift (est : SyncedState .Established) :
    handleEstablished A app (seg.shift r) (conn.shift r) (est.shift r) now
      = (handleEstablished A app seg conn est now).shift r := by
  have hahead : (conn.shift r).sndNxt.precedes (seg.shift r).ackNum
      = conn.sndNxt.precedes seg.ackNum := SeqPoint.precedes_shift (D := .Out) r _ _
  unfold handleEstablished
  rw [hahead]
  simp only [TcpSegment.shift_flags, TcpSegment.shift_payload, TcpSegment.shift_seqNum,
    SeqCheck.check_shift, SyncedState.incomingAckUpdate_shift, knownConnCommonFallback_shift]
  split
  · rfl
  · generalize est.incomingAckUpdate conn seg = updated
    obtain ⟨est', conn'⟩ := updated
    simp only [ConnState.shift_setEstablished, SyncedState.drainTransmittable_shift,
      deliverPayload_shift, deliverReassembled_shift]
    split
    case h_1 | h_2 =>
      obtain ⟨_ | _ | toSend, conn⟩ := est'.drainTransmittable _
      · rfl
      · rfl
      · simp only [dataPayload_shift]; rfl
    case h_3 => exact replyAfterDelivery_shift r _ _ now est'
    case h_4 =>
      simp only [ConnState.shift_reassembly, TcpReassembly.insert_shift]
      rfl
    case h_5 => exact closeOnInOrderFin_shift r A app seg conn now _ est
    case h_6 =>
      cases seg.payload
      all_goals
        simp only [SeqPoint.shift_add, ConnState.shift_reassembly, TcpReassembly.insert_shift,
          TcpReassembly.markFin_shift]
        rfl
    case h_7 => rfl

/-- **Every handler commutes with renumbering.** -/
theorem handleKnownConn_shift :
    handleKnownConn A app (seg.shift r) (conn.shift r) now
      = (handleKnownConn A app seg conn now).shift r := by
  unfold handleKnownConn
  rw [ConnState.shift_tcpState]
  cases conn.tcpState with
  | SynReceived => exact handleSynRcv_shift r A app seg conn now
  | Established est => exact handleEstablished_shift r A app seg conn now est
  | FinWait1 s => exact congrArg (infallible app) (handleFinWait1_shift r seg conn s)
  | FinWait2 s => exact congrArg (infallible app) (handleFinWait2_shift r seg conn s)
  | CloseWait s => exact handleCloseWait_shift r app seg conn now s
  | Closing s => exact congrArg (infallible app) (handleClosing_shift r seg conn s)
  | LastAck s => exact congrArg (infallible app) (handleLastAck_shift r seg conn s)

end SendInfo

/-! ### Sweeps -/

namespace ConnState

variable (conn : ConnState)

/-- Being due and out of retries are no matters of numbering. -/
theorem retransmit_shift (rto : RtoConfig) (maxRetries : UInt8) (now late : Instant) :
    (conn.shift r).retransmit rto maxRetries now late
      = (conn.retransmit rto maxRetries now late).map fun out =>
          (out.1.shift r, out.2.map (SendInfo.shift r)) := by
  have hany : ((conn.shift r).pending.any fun p => isDue rto now late p &&
      p.exhaustedRetries maxRetries) = conn.pending.any fun p => isDue rto now late p &&
        p.exhaustedRetries maxRetries := List.any_map
  have hmap : (conn.shift r).pending.map (fun p =>
        if isDue rto now late p then p.retransmitted now else p)
      = (conn.pending.map fun p => if isDue rto now late p then p.retransmitted now else p).map
          (PendingSegment.shift r) := by
    rw [shift_pending, List.map_map, List.map_map]
    apply List.map_congr_left
    intro p _
    have hdue : isDue rto now late (p.shift r) = isDue rto now late p := rfl
    rw [Function.comp_apply, Function.comp_apply, hdue]
    split <;> rfl
  have hfilter : ((conn.shift r).pending.filter (isDue rto now late)).map (·.sendInfo)
      = ((conn.pending.filter (isDue rto now late)).map (·.sendInfo)).map (SendInfo.shift r) := by
    rw [shift_pending, List.filter_map, List.map_map, List.map_map]
    rfl
  unfold retransmit
  rw [hany, hmap, hfilter]
  split <;> rfl

/-- An active close keeps the shift. -/
theorem close_shift (now : Instant) :
    (conn.shift r).close now
      = (conn.close now).map fun out => (out.1.shift r, out.2.shift r) := by
  unfold close
  rw [shift_tcpState]
  cases conn.tcpState with
  | Established est =>
    simp only [TcpState.shift, shift_sndNxt, SeqPoint.shift_add]
    apply congrArg (fun pending => some (ConnState.mk _ _ _ _ pending _ _, _))
    exact shift_queue r conn ⟨conn.sndNxt, conn.rcvNxt, .FinAck, none⟩ now
  | _ => rfl

/-- A SYN-ACK carries shifted points. -/
theorem synAck_shift (iss : SeqPoint .Out) (irs : SeqPoint .In) :
    synAck (iss.shift r) (irs.shift r) = (synAck iss irs).shift r := by
  unfold synAck
  rw [SeqPoint.shift_add]
  rfl

/-- A connection opened by a SYN, after renumbering. -/
theorem opened_shift (iss : SeqPoint .Out) (irs : SeqPoint .In) (now : Instant) :
    opened (iss.shift r) (irs.shift r) now = (opened iss irs now).shift r := by
  unfold opened
  rw [synAck_shift, SeqPoint.shift_add, SeqPoint.shift_add, PendingSegment.new_shift]
  rfl

end ConnState

end Typenet

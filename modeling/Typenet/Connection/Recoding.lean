import Typenet.Connection.Session

namespace Typenet

/-!
# Recoding the two streams

A `Recoding` replaces every byte of the peer's stream and every byte of our own by another one, in
segments, in queued segments, in the reassembly buffer and in the send buffer.  The number of
bytes stays the same.

The handlers count bytes and never look at them.  So every handler commutes with recoding
(`SendInfo.handleKnownConn_recode`), provided that the application does: `Translates` says that
one application answers the recoded data by the recoded answer of another.
-/

/-- What the bytes of the peer's stream and those of our own are replaced by. -/
structure Recoding where
  peer : UInt8 → UInt8
  own : UInt8 → UInt8

variable (m : Recoding)

/-! ### Payloads -/

namespace TcpPayload

variable (f : UInt8 → UInt8)

/-- The payload after recoding. -/
def recode (p : TcpPayload) : TcpPayload where
  data := p.data.map f
  nonempty := mt List.map_eq_nil_iff.mp p.nonempty
  le_max := by rw [List.length_map]; exact p.le_max

@[simp] theorem recode_data (p : TcpPayload) : (p.recode f).data = p.data.map f := rfl

@[simp] theorem recode_len (p : TcpPayload) : (p.recode f).len = p.len := List.length_map ..

@[simp] theorem lenOrDefault_recode (p : Option TcpPayload) :
    lenOrDefault (p.map (recode f)) = lenOrDefault p := by
  cases p <;> simp

@[simp] theorem tryFromIter_recode (iter : List UInt8) :
    tryFromIter (iter.map f) = (tryFromIter iter).map (Option.map (recode f)) := by
  unfold tryFromIter
  by_cases hempty : iter = []
  · subst hempty
    rfl
  · have hempty' : iter.map f ≠ [] := mt List.map_eq_nil_iff.mp hempty
    rw [dif_neg hempty, dif_neg hempty']
    by_cases hlen : iter.length < 2 ^ 16
    · rw [dif_pos hlen, dif_pos (by rw [List.length_map]; exact hlen)]
      rfl
    · rw [dif_neg hlen, dif_neg (by rw [List.length_map]; exact hlen)]
      rfl

end TcpPayload

/-! ### Segments -/

/-- An incoming segment after recoding. -/
def TcpSegment.recode (seg : TcpSegment .In) : TcpSegment .In :=
  { seg with payload := seg.payload.map (TcpPayload.recode m.peer) }

namespace TcpSegment

variable (seg : TcpSegment .In)

@[simp] theorem recode_ipPair : (seg.recode m).ipPair = seg.ipPair := rfl
@[simp] theorem recode_ports : (seg.recode m).ports = seg.ports := rfl
@[simp] theorem recode_seqNum : (seg.recode m).seqNum = seg.seqNum := rfl
@[simp] theorem recode_ackNum : (seg.recode m).ackNum = seg.ackNum := rfl
@[simp] theorem recode_flags : (seg.recode m).flags = seg.flags := rfl
@[simp] theorem recode_payload :
    (seg.recode m).payload = seg.payload.map (TcpPayload.recode m.peer) := rfl

end TcpSegment

namespace SendInfo

/-- A segment to be sent, after recoding. -/
def recode (info : SendInfo) : SendInfo :=
  { info with payload := info.payload.map (TcpPayload.recode m.own) }

@[simp] theorem recode_seqNum (info : SendInfo) : (info.recode m).seqNum = info.seqNum := rfl

@[simp] theorem recode_consumed (info : SendInfo) : (info.recode m).consumed = info.consumed :=
  congrArg ((if info.flags = .Syn ∨ info.flags = .SynAck ∨ info.flags = .FinAck then 1 else 0) + ·)
    (TcpPayload.lenOrDefault_recode m.own info.payload)

end SendInfo

namespace PendingSegment

/-- A queued segment after recoding. -/
def recode (p : PendingSegment) : PendingSegment := { p with sendInfo := p.sendInfo.recode m }

@[simp] theorem new_recode (info : SendInfo) (now : Instant) :
    new (info.recode m) now = (new info now).recode m := by
  simp [new, recode]

@[simp] theorem isCoveredBy_recode (p : PendingSegment) (ackNum : SeqPoint .Out) :
    (p.recode m).isCoveredBy ackNum = p.isCoveredBy ackNum := rfl

end PendingSegment

/-! ### Reassembly -/

namespace TcpReassembly

/-- The buffered segments after recoding. -/
def recodeSegments (segments : List (SeqPoint .In × TcpPayload)) :
    List (SeqPoint .In × TcpPayload) :=
  segments.map fun e => (e.1, e.2.recode m.peer)

/-- The buffer after recoding. -/
def recode (self : TcpReassembly) : TcpReassembly :=
  { self with segments := recodeSegments m self.segments }

@[simp] theorem markFin_recode (self : TcpReassembly) (seq : SeqPoint .In) :
    (self.recode m).markFin seq = (self.markFin seq).recode m := rfl

@[simp] theorem finReached_recode (self : TcpReassembly) (rcvNxt : SeqPoint .In) :
    (self.recode m).finReached rcvNxt = self.finReached rcvNxt := rfl

/-- Which of two payloads is kept depends on their lengths only. -/
theorem insertSegment_recode (seq : SeqPoint .In) (payload : TcpPayload)
    (segments : List (SeqPoint .In × TcpPayload)) :
    insertSegment seq (payload.recode m.peer) (recodeSegments m segments)
      = recodeSegments m (insertSegment seq payload segments) := by
  induction segments with
  | nil => rfl
  | cons e rest ih =>
    obtain ⟨start, existing⟩ := e
    show (if start = seq then _ else _) = recodeSegments m (if start = seq then _ else _)
    by_cases h : start = seq
    · rw [if_pos h, if_pos h, TcpPayload.recode_len, TcpPayload.recode_len]
      by_cases hlen : existing.len < payload.len <;> simp [recodeSegments, hlen]
    · rw [if_neg h, if_neg h]
      exact congrArg _ ih

@[simp] theorem insert_recode (self : TcpReassembly) (seq : SeqPoint .In) (payload : TcpPayload) :
    (self.recode m).insert seq (payload.recode m.peer) = (self.insert seq payload).recode m := by
  unfold insert recode
  rw [insertSegment_recode]

/-- One round of the iterator extracts the recoded payload. -/
theorem nextContiguous_recode (rcvNxt : SeqPoint .In)
    (segments : List (SeqPoint .In × TcpPayload)) :
    nextContiguous rcvNxt (recodeSegments m segments)
      = ((nextContiguous rcvNxt segments).1.map (TcpPayload.recode m.peer),
        recodeSegments m (nextContiguous rcvNxt segments).2) := by
  induction segments with
  | nil => rfl
  | cons e rest ih =>
    obtain ⟨start, payload⟩ := e
    show nextContiguous rcvNxt ((start, payload.recode m.peer) :: recodeSegments m rest) = _
    unfold nextContiguous
    rw [ih]
    by_cases hle : start.precedesOrEq rcvNxt = true
    · rw [if_pos hle, if_pos hle]
      by_cases heq : start = rcvNxt
      · rw [if_pos heq, if_pos heq]
        rfl
      · rw [if_neg heq, if_neg heq]
    · rw [if_neg hle, if_neg hle]
      rfl

/-- The rounds of draining look at no payload byte. -/
theorem drainRounds_recode (fuel : Nat) (segments : List (SeqPoint .In × TcpPayload))
    (rcvNxt : SeqPoint .In) :
    drainRounds fuel (recodeSegments m segments) rcvNxt
      = ((drainRounds fuel segments rcvNxt).1.map (TcpPayload.recode m.peer),
        recodeSegments m (drainRounds fuel segments rcvNxt).2.1,
        (drainRounds fuel segments rcvNxt).2.2) := by
  induction fuel generalizing segments rcvNxt with
  | zero => rfl
  | succ fuel ih =>
    unfold drainRounds
    rw [nextContiguous_recode]
    obtain ⟨_ | payload, kept⟩ := nextContiguous rcvNxt segments
    · rfl
    · simp [ih]

@[simp] theorem drainContiguous_recode (self : TcpReassembly) (rcvNxt : SeqPoint .In) :
    (self.recode m).drainContiguous rcvNxt
      = ((self.drainContiguous rcvNxt).1.map (TcpPayload.recode m.peer),
        (self.drainContiguous rcvNxt).2.1.recode m, (self.drainContiguous rcvNxt).2.2) := by
  have hseg : (self.recode m).segments = recodeSegments m self.segments := rfl
  have hlen : (recodeSegments m self.segments).length = self.segments.length :=
    List.length_map ..
  unfold drainContiguous
  rw [hseg, hlen, drainRounds_recode]
  rfl

end TcpReassembly

/-! ### Connections -/

/-- The connection after recoding. -/
def ConnState.recode (conn : ConnState) : ConnState :=
  { conn with
    pending := conn.pending.map (PendingSegment.recode m)
    sendBuffer := conn.sendBuffer.map m.own
    reassembly := conn.reassembly.recode m }

namespace ConnState

variable (conn : ConnState)

@[simp] theorem recode_tcpState : (conn.recode m).tcpState = conn.tcpState := rfl
@[simp] theorem recode_sndNxt : (conn.recode m).sndNxt = conn.sndNxt := rfl
@[simp] theorem recode_rcvNxt : (conn.recode m).rcvNxt = conn.rcvNxt := rfl
@[simp] theorem recode_sndUna : (conn.recode m).sndUna = conn.sndUna := rfl
@[simp] theorem recode_pending :
    (conn.recode m).pending = conn.pending.map (PendingSegment.recode m) := rfl
@[simp] theorem recode_sendBuffer :
    (conn.recode m).sendBuffer = conn.sendBuffer.map m.own := rfl
@[simp] theorem recode_reassembly : (conn.recode m).reassembly = conn.reassembly.recode m := rfl

@[simp] theorem recode_sendBuffer_eq_nil :
    (conn.recode m).sendBuffer = [] ↔ conn.sendBuffer = [] := List.map_eq_nil_iff

/-- A recoded connection with another RCV.NXT. -/
theorem recode_setRcvNxt (n : SeqPoint .In) :
    ({ conn.recode m with rcvNxt := n } : ConnState)
      = ({ conn with rcvNxt := n } : ConnState).recode m := rfl

/-- A recoded connection in another state. -/
theorem recode_setTcpState (s : TcpState) :
    ({ conn.recode m with tcpState := s } : ConnState)
      = ({ conn with tcpState := s } : ConnState).recode m := rfl

/-- Queueing commutes with recoding. -/
theorem recode_queue (info : SendInfo) (now : Instant) :
    conn.pending.map (PendingSegment.recode m) ++ [PendingSegment.new (info.recode m) now]
      = (conn.pending ++ [PendingSegment.new info now]).map (PendingSegment.recode m) := by
  simp

end ConnState

@[simp] theorem SeqCheck.check_recode (seg : TcpSegment .In) (conn : ConnState) :
    check (seg.recode m) (conn.recode m) = check seg conn := rfl

/-- **Acknowledgments commute with recoding.** -/
@[simp] theorem SyncedState.incomingAckUpdate_recode {T : Synced} (self : SyncedState T)
    (conn : ConnState) (seg : TcpSegment .In) :
    self.incomingAckUpdate (conn.recode m) (seg.recode m)
      = ((self.incomingAckUpdate conn seg).1, (self.incomingAckUpdate conn seg).2.recode m) := by
  have hpending : (conn.recode m).ackedPending seg.ackNum
      = (conn.ackedPending seg.ackNum).map (PendingSegment.recode m) := by
    unfold ConnState.ackedPending
    show (if conn.ackInRange seg.ackNum && conn.sndUna.precedes seg.ackNum then _ else _) = _
    split
    · rw [ConnState.recode_pending, List.filter_map]
      rfl
    · rfl
  rw [incomingAckUpdate_eq, incomingAckUpdate_eq, TcpSegment.recode_ackNum]
  unfold ConnState.acked
  rw [hpending]
  rfl

/-- **Draining commutes with recoding.**  How much goes out is a matter of lengths. -/
@[simp] theorem SyncedState.drainTransmittable_recode {T : Synced} [SyncedState.SendSideOpen T]
    (self : SyncedState T) (conn : ConnState) :
    self.drainTransmittable (conn.recode m)
      = ((self.drainTransmittable conn).1.map (Option.map (TcpPayload.recode m.own)),
        (self.drainTransmittable conn).2.recode m) := by
  unfold drainTransmittable drainFront
  simp only [ConnState.recode_sndNxt, ConnState.recode_sndUna, ConnState.recode_sendBuffer,
    List.length_map, ← List.map_take, ← List.map_drop, TcpPayload.tryFromIter_recode]
  split <;> rfl

/-! ### Applications -/

/-- `B` answers the recoded data by the recoded answer of `A`, where `f` follows the state. -/
structure Translates {σ τ : Type} (f : σ → τ) (A : Application σ) (B : Application τ) : Prop where
  state : ∀ app data, (B.handleTcp (f app) (data.map m.peer)).1 = f (A.handleTcp app data).1
  output : ∀ app data,
    (B.handleTcp (f app) (data.map m.peer)).2 = (A.handleTcp app data).2.map m.own

/-- What a handler leaves behind, after recoding. -/
def Handled.recode {σ τ : Type} (f : σ → τ) (h : Handled σ) : Handled τ where
  app := f h.app
  conn := h.conn.recode m
  result := h.result.map fun out => (out.1.map (SendInfo.recode m), out.2)

namespace Translates

variable {m} {σ τ : Type} {f : σ → τ} {A : Application σ} {B : Application τ}

/-- A translated application makes of translated slices what the other makes of the slices. -/
theorem feed (h : Translates m f A B) (app : σ) (slices : List (List UInt8)) :
    B.feed (f app) (slices.map (List.map m.peer))
      = (f (A.feed app slices).1, (A.feed app slices).2.map m.own) := by
  induction slices generalizing app with
  | nil => rfl
  | cons data rest ih =>
    rw [List.map_cons, Application.feed_cons, Application.feed_cons, h.state, h.output, ih,
      List.map_append]

/-- What is queued to be sent is translated with what has come. -/
theorem handleTcp (h : Translates m f A B) (app : σ) (conn : ConnState)
    (slices : List (List UInt8)) :
    SendInfo.handleTcp B (f app) (conn.recode m) (slices.map (List.map m.peer))
      = (f (SendInfo.handleTcp A app conn slices).1,
        (SendInfo.handleTcp A app conn slices).2.recode m) := by
  unfold SendInfo.handleTcp
  simp only [h.feed, ConnState.recode_sendBuffer, ← List.map_append]
  rfl

/-- Delivering a payload commutes with the translation. -/
theorem deliverPayload (h : Translates m f A B) (app : σ) (conn : ConnState)
    (p : Option TcpPayload) :
    SendInfo.deliverPayload B (f app) (conn.recode m) (p.map (TcpPayload.recode m.peer))
      = (f (SendInfo.deliverPayload A app conn p).1,
        (SendInfo.deliverPayload A app conn p).2.recode m) := by
  cases p with
  | none => rfl
  | some payload =>
    have hfeed := h.handleTcp app { conn with rcvNxt := conn.rcvNxt + payload.len } [payload.data]
    simp only [Option.map_some, SendInfo.deliverPayload, TcpPayload.recode_len]
    exact hfeed

/-- So does delivering what reassembly has ready. -/
theorem deliverReassembled (h : Translates m f A B) (app : σ) (conn : ConnState) :
    SendInfo.deliverReassembled B (f app) (conn.recode m)
      = (f (SendInfo.deliverReassembled A app conn).1,
        (SendInfo.deliverReassembled A app conn).2.recode m) := by
  unfold SendInfo.deliverReassembled
  simp only [ConnState.recode_rcvNxt, ConnState.recode_reassembly,
    TcpReassembly.drainContiguous_recode, List.map_map]
  obtain ⟨payloads, reassembly, rcvNxt⟩ := conn.reassembly.drainContiguous conn.rcvNxt
  have hfeed := h.handleTcp app { conn with reassembly := reassembly, rcvNxt := rcvNxt }
    (payloads.map (·.data))
  rw [List.map_map] at hfeed
  exact hfeed

end Translates

/-! ### Handlers -/

namespace SendInfo

variable {σ τ : Type} {f : σ → τ} {A : Application σ} {B : Application τ} (app : σ)
  (seg : TcpSegment .In) (conn : ConnState) (now : Instant)

@[simp] theorem pureAck_recode : pureAck (conn.recode m) = (pureAck conn).recode m := rfl

@[simp] theorem rst_recode : rst (seg.recode m) = (rst seg).recode m := rfl

/-- The common fallback looks at no payload byte. -/
theorem knownConnCommonFallback_recode :
    knownConnCommonFallback (seg.recode m) (conn.recode m)
      = ((knownConnCommonFallback seg conn).1.map (recode m),
        (knownConnCommonFallback seg conn).2) := by
  unfold knownConnCommonFallback
  simp only [TcpSegment.recode_flags, SeqCheck.check_recode, ConnState.recode_tcpState]
  split
  case h_8 | h_9 =>
    -- a stray SYN or SYN-ACK
    by_cases hsyn : conn.tcpState = .SynReceived <;> simp [hsyn]
  all_goals rfl

/-- Nor does completing the handshake. -/
theorem completeHandshake_recode :
    completeHandshake (seg.recode m) (conn.recode m)
      = ((completeHandshake seg conn).1, (completeHandshake seg conn).2.recode m) := rfl

/-- A segment of data carries the translated bytes. -/
theorem dataPayload_recode (p : TcpPayload) :
    dataPayload (conn.recode m) (p.recode m.own) now
      = ((dataPayload conn p now).1.recode m, (dataPayload conn p now).2.recode m) := by
  unfold dataPayload ConnState.recode
  simp only [TcpPayload.recode_len, ← ConnState.recode_queue]
  rfl

/-- The passive close translates what it sends. -/
theorem closeWaitOrLastAck_recode (cw : SyncedState .CloseWait) :
    closeWaitOrLastAck (conn.recode m) cw now
      = ((closeWaitOrLastAck conn cw now).1.map (recode m),
        (closeWaitOrLastAck conn cw now).2.recode m) := by
  unfold closeWaitOrLastAck
  rw [SyncedState.drainTransmittable_recode]
  obtain ⟨_ | toSend, conn⟩ := cw.drainTransmittable conn
  · rfl
  · by_cases hempty : conn.sendBuffer = []
    · have hempty' := (ConnState.recode_sendBuffer_eq_nil m conn).mpr hempty
      -- the FIN goes out with what is left
      simp only [Except.map, if_pos hempty, if_pos hempty', TcpPayload.lenOrDefault_recode]
      apply congrArg (Prod.mk _)
      apply congrArg (ConnState.mk _ _ _ _ · _ _)
      exact ConnState.recode_queue m conn ⟨conn.sndNxt, conn.rcvNxt, .FinAck, toSend⟩ now
    · have hempty' := mt (ConnState.recode_sendBuffer_eq_nil m conn).mp hempty
      simp only [Except.map, if_neg hempty, if_neg hempty']
      cases toSend with
      | none => rfl
      | some payload =>
        have hdata := dataPayload_recode m { conn with tcpState := .CloseWait cw } now payload
        exact congrArg (fun out : SendInfo × ConnState => (Except.ok out.1, out.2)) hdata

/-- The outcome of passive close, as the handlers return it. -/
theorem map_closeWaitOrLastAck_recode (f : σ → τ) (cw : SyncedState .CloseWait) :
    (⟨f app, (closeWaitOrLastAck (conn.recode m) cw now).2,
      (closeWaitOrLastAck (conn.recode m) cw now).1.map fun info => (some info, false)⟩ :
        Handled τ)
      = Handled.recode m f ⟨app, (closeWaitOrLastAck conn cw now).2,
        (closeWaitOrLastAck conn cw now).1.map fun info => (some info, false)⟩ := by
  rw [closeWaitOrLastAck_recode]
  unfold Handled.recode
  cases (closeWaitOrLastAck conn cw now).1 <;> rfl

/-- What a handler that cannot fail leaves behind, after recoding. -/
def recodeOut (out : (Option SendInfo × Bool) × ConnState) :
    (Option SendInfo × Bool) × ConnState :=
  ((out.1.1.map (recode m), out.1.2), out.2.recode m)

/-- FIN-WAIT-1 looks at no payload byte. -/
theorem handleFinWait1_recode (s : SyncedState .FinWait1) :
    handleFinWait1 (seg.recode m) (conn.recode m) s = recodeOut m (handleFinWait1 seg conn s) := by
  have hacked : decide ((seg.recode m).ackNum = (conn.recode m).sndNxt)
      = decide (seg.ackNum = conn.sndNxt) := rfl
  unfold handleFinWait1
  simp only [hacked, TcpSegment.recode_flags, TcpSegment.recode_payload, SeqCheck.check_recode,
    ConnState.recode_rcvNxt, ConnState.recode_setRcvNxt, SyncedState.incomingAckUpdate_recode,
    knownConnCommonFallback_recode]
  generalize SeqCheck.check seg conn = check
  generalize decide (seg.ackNum = conn.sndNxt) = acked
  generalize seg.flags = flags
  cases flags <;> cases seg.payload <;> cases check <;> cases acked <;>
    simp only [Option.map_none, Option.map_some, TcpPayload.lenOrDefault_some,
      TcpPayload.recode_len] <;> rfl

/-- FIN-WAIT-2 looks at no payload byte. -/
theorem handleFinWait2_recode (s : SyncedState .FinWait2) :
    handleFinWait2 (seg.recode m) (conn.recode m) s = recodeOut m (handleFinWait2 seg conn s) := by
  unfold handleFinWait2
  simp only [TcpSegment.recode_flags, TcpSegment.recode_payload, SeqCheck.check_recode,
    ConnState.recode_rcvNxt, ConnState.recode_setRcvNxt, SyncedState.incomingAckUpdate_recode,
    knownConnCommonFallback_recode]
  generalize SeqCheck.check seg conn = check
  generalize seg.flags = flags
  cases flags <;> cases seg.payload <;> cases check <;>
    simp only [Option.map_none, Option.map_some, TcpPayload.lenOrDefault_some,
      TcpPayload.recode_len] <;> rfl

/-- CLOSING looks at no payload byte. -/
theorem handleClosing_recode (s : SyncedState .Closing) :
    handleClosing (seg.recode m) (conn.recode m) s = recodeOut m (handleClosing seg conn s) := by
  have hacked : decide ((seg.recode m).ackNum = (conn.recode m).sndNxt)
      = decide (seg.ackNum = conn.sndNxt) := rfl
  unfold handleClosing
  simp only [hacked, TcpSegment.recode_flags, TcpSegment.recode_payload, SeqCheck.check_recode,
    SyncedState.incomingAckUpdate_recode, knownConnCommonFallback_recode]
  generalize SeqCheck.check seg conn = check
  generalize decide (seg.ackNum = conn.sndNxt) = acked
  generalize seg.flags = flags
  cases flags <;> cases seg.payload <;> cases check <;> cases acked <;> rfl

/-- LAST-ACK looks at no payload byte. -/
theorem handleLastAck_recode (s : SyncedState .LastAck) :
    handleLastAck (seg.recode m) (conn.recode m) s = recodeOut m (handleLastAck seg conn s) := by
  have hacked : decide ((seg.recode m).ackNum = (conn.recode m).sndNxt)
      = decide (seg.ackNum = conn.sndNxt) := rfl
  unfold handleLastAck
  simp only [hacked, TcpSegment.recode_flags, TcpSegment.recode_payload, SeqCheck.check_recode,
    SyncedState.incomingAckUpdate_recode, knownConnCommonFallback_recode]
  generalize SeqCheck.check seg conn = check
  generalize decide (seg.ackNum = conn.sndNxt) = acked
  generalize seg.flags = flags
  cases flags <;> cases seg.payload <;> cases check <;> cases acked <;> rfl

/-- CLOSE-WAIT translates what it sends. -/
theorem handleCloseWait_recode (f : σ → τ) (s : SyncedState .CloseWait) :
    (⟨f app, (handleCloseWait (seg.recode m) (conn.recode m) s now).2,
      (handleCloseWait (seg.recode m) (conn.recode m) s now).1⟩ : Handled τ)
      = Handled.recode m f ⟨app, (handleCloseWait seg conn s now).2,
        (handleCloseWait seg conn s now).1⟩ := by
  unfold handleCloseWait
  simp only [TcpSegment.recode_flags, TcpSegment.recode_payload, SeqCheck.check_recode,
    SyncedState.incomingAckUpdate_recode, knownConnCommonFallback_recode]
  have hpassive := map_closeWaitOrLastAck_recode m app (s.incomingAckUpdate conn seg).2 now f
    (s.incomingAckUpdate conn seg).1
  generalize SeqCheck.check seg conn = check
  generalize seg.flags = flags
  cases flags <;> cases seg.payload <;> cases check <;> first | rfl | exact hpassive

/-- The reply after a delivery is translated. -/
theorem replyAfterDelivery_recode (f : σ → τ) (est : SyncedState .Established) :
    replyAfterDelivery (f app) (conn.recode m) est now
      = (replyAfterDelivery app conn est now).recode m f := by
  unfold replyAfterDelivery
  simp only [ConnState.recode_rcvNxt, ConnState.recode_reassembly,
    TcpReassembly.finReached_recode, SyncedState.drainTransmittable_recode]
  split
  · exact map_closeWaitOrLastAck_recode m app { conn with rcvNxt := conn.rcvNxt + FIN_BYTE } now f
      est.rcvFin
  · obtain ⟨_ | _ | toSend, conn⟩ := est.drainTransmittable conn
    · rfl
    · rfl
    · simp only [Except.map, Option.map_some, dataPayload_recode]
      rfl

/-- An acknowledgment without data lets out what the window allows. -/
theorem replyAfterAck_recode (f : σ → τ) (est : SyncedState .Established) :
    (match est.drainTransmittable (conn.recode m) with
      | (.error e, conn) => ⟨f app, conn, .error e⟩
      | (.ok (some toSend), conn) =>
        ⟨f app, (dataPayload conn toSend now).2,
          .ok (some (dataPayload conn toSend now).1, false)⟩
      | (.ok none, conn) => ⟨f app, conn, .ok (none, false)⟩ : Handled τ)
      = Handled.recode m f (match est.drainTransmittable conn with
      | (.error e, conn) => ⟨app, conn, .error e⟩
      | (.ok (some toSend), conn) =>
        ⟨app, (dataPayload conn toSend now).2, .ok (some (dataPayload conn toSend now).1, false)⟩
      | (.ok none, conn) => ⟨app, conn, .ok (none, false)⟩) := by
  rw [SyncedState.drainTransmittable_recode]
  obtain ⟨_ | _ | toSend, conn⟩ := est.drainTransmittable conn
  · rfl
  · rfl
  · simp only [Except.map, Option.map_some, dataPayload_recode]
    rfl

section Delivering

variable {m} (h : Translates m f A B)
include h

/-- A FIN in order closes a translated connection in the same way. -/
theorem closeOnInOrderFin_recode (p : Option TcpPayload) (est : SyncedState .Established) :
    closeOnInOrderFin B (f app) (seg.recode m) (conn.recode m)
        (p.map (TcpPayload.recode m.peer)) est now
      = (closeOnInOrderFin A app seg conn p est now).recode m f := by
  unfold closeOnInOrderFin
  rw [h.deliverPayload]
  obtain ⟨app, conn⟩ := deliverPayload A app conn p
  simp only [ConnState.recode_rcvNxt, ConnState.recode_setRcvNxt,
    SyncedState.incomingAckUpdate_recode]
  exact map_closeWaitOrLastAck_recode m app _ now f _

/-- ESTABLISHED translates what it delivers and what it sends. -/
theorem handleEstablished_recode (est : SyncedState .Established) :
    handleEstablished B (f app) (seg.recode m) (conn.recode m) est now
      = (handleEstablished A app seg conn est now).recode m f := by
  have hnxt : (conn.recode m).sndNxt.precedes (seg.recode m).ackNum
      = conn.sndNxt.precedes seg.ackNum := rfl
  have hfin := closeOnInOrderFin_recode (m := m) app seg conn now h seg.payload est
  unfold handleEstablished
  rw [hnxt]
  simp only [TcpSegment.recode_flags, TcpSegment.recode_payload, TcpSegment.recode_seqNum,
    SeqCheck.check_recode, SyncedState.incomingAckUpdate_recode, knownConnCommonFallback_recode]
  by_cases hahead : seg.flags = .Ack ∧ SeqCheck.check seg conn ≠ .Unacceptable
      ∧ conn.sndNxt.precedes seg.ackNum = true
  · rw [if_pos hahead, if_pos hahead]
    rfl
  · rw [if_neg hahead, if_neg hahead]
    generalize est.incomingAckUpdate conn seg = updated
    obtain ⟨est', conn'⟩ := updated
    simp only [ConnState.recode_setTcpState]
    generalize SeqCheck.check seg conn = check
    generalize seg.flags = flags
    cases flags
    case Ack =>
      cases seg.payload with
      | none =>
        cases check
        case InOrder | OutOfOrder => exact replyAfterAck_recode m app _ now f est'
        case Unacceptable => rfl
      | some payload =>
        cases check
        case InOrder =>
          have hdata := h.deliverPayload app { conn' with tcpState := .Established est' }
            (some payload)
          simp only [Option.map_some] at hdata ⊢
          simp only [hdata, h.deliverReassembled, replyAfterDelivery_recode]
        case OutOfOrder =>
          simp only [Option.map_some, ConnState.recode_reassembly, TcpReassembly.insert_recode]
          rfl
        case Unacceptable => rfl
    case FinAck =>
      cases check
      case InOrder => exact hfin
      case OutOfOrder =>
        cases seg.payload
        all_goals
          simp only [Option.map_none, Option.map_some, ConnState.recode_reassembly,
            TcpReassembly.insert_recode, TcpReassembly.markFin_recode,
            TcpPayload.lenOrDefault_some, TcpPayload.recode_len]
          rfl
      case Unacceptable => rfl
    all_goals cases check <;> rfl

/-- So does SYN-RECEIVED, which may deliver at once. -/
theorem handleSynRcv_recode :
    handleSynRcv B (f app) (seg.recode m) (conn.recode m) now
      = (handleSynRcv A app seg conn now).recode m f := by
  have hacceptable : ((conn.recode m).sndUna.precedes (seg.recode m).ackNum
        && (seg.recode m).ackNum.precedesOrEq (conn.recode m).sndNxt)
      = (conn.sndUna.precedes seg.ackNum && seg.ackNum.precedesOrEq conn.sndNxt) := rfl
  have hfin := closeOnInOrderFin_recode (m := m) app seg (completeHandshake seg conn).2 now h
    seg.payload (completeHandshake seg conn).1
  have hdata := h.deliverPayload app (completeHandshake seg conn).2 seg.payload
  unfold handleSynRcv
  simp only [hacceptable, TcpSegment.recode_flags, TcpSegment.recode_payload,
    TcpSegment.recode_seqNum, SeqCheck.check_recode, completeHandshake_recode,
    knownConnCommonFallback_recode]
  generalize (conn.sndUna.precedes seg.ackNum && seg.ackNum.precedesOrEq conn.sndNxt) = acceptable
  generalize SeqCheck.check seg conn = check
  obtain ⟨flags, hflags⟩ : ∃ flags, seg.flags = flags := ⟨_, rfl⟩
  cases flags <;> simp only [hflags]
  case Syn =>
    apply congrArg (Handled.mk (f app) · _)
    apply congrArg (ConnState.mk _ _ _ _ · _ _)
    exact ConnState.recode_queue m conn ⟨conn.sndUna, seg.seqNum + SYN_BYTE, .SynAck, none⟩ now
  case Ack =>
    cases acceptable with
    | false => cases check <;> rfl
    | true =>
      cases check
      case InOrder =>
        simp only [hdata, h.deliverReassembled]
        obtain ⟨app, conn⟩ := deliverReassembled A _ _
        have hempty : (conn.recode m).sendBuffer.isEmpty = conn.sendBuffer.isEmpty :=
          List.isEmpty_map
        simp only [hempty, ConnState.recode_reassembly, ConnState.recode_rcvNxt,
          TcpReassembly.finReached_recode]
        split
        · rfl
        · exact replyAfterDelivery_recode m app conn now f _
      case OutOfOrder =>
        cases seg.payload
        all_goals
          simp only [Option.map_none, Option.map_some, ConnState.recode_reassembly,
            TcpReassembly.insert_recode, TcpReassembly.markFin_recode,
            TcpPayload.lenOrDefault_some, TcpPayload.recode_len]
          rfl
      case Unacceptable => rfl
  case FinAck =>
    cases acceptable with
    | false => cases check <;> rfl
    | true =>
      cases check
      case InOrder => exact hfin
      case OutOfOrder =>
        cases seg.payload
        all_goals
          simp only [Option.map_none, Option.map_some, ConnState.recode_reassembly,
            TcpReassembly.insert_recode, TcpReassembly.markFin_recode,
            TcpPayload.lenOrDefault_some, TcpPayload.recode_len]
          rfl
      case Unacceptable => rfl
  all_goals rfl

/-- **Every handler commutes with recoding.** -/
theorem handleKnownConn_recode :
    handleKnownConn B (f app) (seg.recode m) (conn.recode m) now
      = (handleKnownConn A app seg conn now).recode m f := by
  unfold handleKnownConn
  rw [ConnState.recode_tcpState]
  cases conn.tcpState with
  | SynReceived => exact handleSynRcv_recode app seg conn now h
  | Established est => exact handleEstablished_recode app seg conn now h est
  | FinWait1 s => exact congrArg (infallible (f app)) (handleFinWait1_recode m seg conn s)
  | FinWait2 s => exact congrArg (infallible (f app)) (handleFinWait2_recode m seg conn s)
  | CloseWait s => exact handleCloseWait_recode m app seg conn now f s
  | Closing s => exact congrArg (infallible (f app)) (handleClosing_recode m seg conn s)
  | LastAck s => exact congrArg (infallible (f app)) (handleLastAck_recode m seg conn s)

end Delivering

end SendInfo

/-! ### Sweeps -/

namespace ConnState

variable (conn : ConnState)

/-- Being due and out of retries are no matters of content. -/
theorem retransmit_recode (rto : RtoConfig) (maxRetries : UInt8) (now late : Instant) :
    (conn.recode m).retransmit rto maxRetries now late
      = (conn.retransmit rto maxRetries now late).map fun out =>
          (out.1.recode m, out.2.map (SendInfo.recode m)) := by
  have hany : ((conn.recode m).pending.any fun p => isDue rto now late p &&
      p.exhaustedRetries maxRetries) = conn.pending.any fun p => isDue rto now late p &&
        p.exhaustedRetries maxRetries := List.any_map
  have hmap : (conn.recode m).pending.map (fun p =>
        if isDue rto now late p then p.retransmitted now else p)
      = (conn.pending.map fun p => if isDue rto now late p then p.retransmitted now else p).map
          (PendingSegment.recode m) := by
    rw [recode_pending, List.map_map, List.map_map]
    apply List.map_congr_left
    intro p _
    have hdue : isDue rto now late (p.recode m) = isDue rto now late p := rfl
    rw [Function.comp_apply, Function.comp_apply, hdue]
    split <;> rfl
  have hfilter : ((conn.recode m).pending.filter (isDue rto now late)).map (·.sendInfo)
      = ((conn.pending.filter (isDue rto now late)).map (·.sendInfo)).map (SendInfo.recode m) := by
    rw [recode_pending, List.filter_map, List.map_map, List.map_map]
    rfl
  unfold retransmit
  rw [hany, hmap, hfilter]
  split <;> rfl

/-- An active close looks at no payload byte. -/
theorem close_recode (now : Instant) :
    (conn.recode m).close now
      = (conn.close now).map fun out => (out.1.recode m, out.2.recode m) := by
  unfold close
  rw [recode_tcpState]
  cases conn.tcpState with
  | Established est =>
    apply congrArg (fun pending => some (ConnState.mk _ _ _ _ pending _ _, _))
    exact recode_queue m conn ⟨conn.sndNxt, conn.rcvNxt, .FinAck, none⟩ now
  | _ => rfl

/-- A connection that a SYN opens has no data yet. -/
theorem opened_recode (iss : SeqPoint .Out) (irs : SeqPoint .In) (now : Instant) :
    (opened iss irs now).recode m = opened iss irs now := rfl

end ConnState

end Typenet

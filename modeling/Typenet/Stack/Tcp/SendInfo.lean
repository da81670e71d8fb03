import Typenet.Stack.Tcp.State
import Typenet.Stack.Application

namespace Typenet

/-!
# Reply logic

The state handlers, arm by arm as in the code.  A handler takes the application's state
and the connection, changes both in place, and may fail after some of the changes have
been made; `Handled` therefore returns both together with the outcome, on every path.
The outcome is the reply, if any, and whether the connection is to be removed.  The clock
reading for a newly queued segment is the argument `now`.
-/

/-- Possible outcomes after checking SEG.SEQ for acceptability. -/
inductive SeqCheck
  /-- SEG.SEQ is exactly RCV.NXT. -/
  | InOrder
  /-- SEG.SEQ is in RCV.WND but not in order. -/
  | OutOfOrder
  /-- SEG.SEQ is out of RCV.WND. -/
  | Unacceptable
  deriving DecidableEq, Repr

/-- Determines where SEG.SEQ falls relative to RCV.NXT and RCV.WND. -/
def SeqCheck.check (seg : TcpSegment .In) (conn : ConnState) : SeqCheck :=
  if seg.seqNum = conn.rcvNxt then .InOrder
  else if seg.seqNum.inWindow conn.rcvNxt RCV_WND.toNat then .OutOfOrder
  else .Unacceptable

/-! ### Exactness of sequence decisions -/

/-- **The check is a comparison of distances.** -/
theorem SeqCheck.check_eq (seg : TcpSegment .In) (conn : ConnState) :
    check seg conn = if conn.rcvNxt.dist seg.seqNum = 0 then .InOrder
      else if conn.rcvNxt.dist seg.seqNum < 65535 then .OutOfOrder else .Unacceptable := by
  have hin : seg.seqNum.inWindow conn.rcvNxt RCV_WND.toNat = true
      ↔ conn.rcvNxt.dist seg.seqNum < 65535 :=
    SeqPoint.inWindow_iff _ _ (by decide) (by decide)
  unfold check
  simp only [SeqPoint.dist_eq_zero, hin]

/-- **Serial arithmetic is exact on half the circle.**  Offsets from a base order points and
    subtract as numbers do, windows of up to half the circle are tested by the distance, and so
    is every SEG.SEQ. -/
theorem serial_arithmetic_exact (D : Direction) :
    (∀ b x y : SeqPoint D, b.dist x < 2 ^ 31 → b.dist y < 2 ^ 31 →
      (x.precedes y = true ↔ b.dist x < b.dist y) ∧
      (x.precedesOrEq y = true ↔ b.dist x ≤ b.dist y) ∧
      y.sub x = (b.dist y : Int) - b.dist x) ∧
    (∀ (start x : SeqPoint D) (wndLen : Nat), 1 ≤ wndLen → wndLen ≤ 2 ^ 31 →
      (x.inWindow start wndLen = true ↔ start.dist x < wndLen)) ∧
    ∀ (seg : TcpSegment .In) (conn : ConnState),
      (SeqCheck.check seg conn = .InOrder ↔ conn.rcvNxt.dist seg.seqNum = 0) ∧
      (SeqCheck.check seg conn = .OutOfOrder ↔
        1 ≤ conn.rcvNxt.dist seg.seqNum ∧ conn.rcvNxt.dist seg.seqNum ≤ 65534) ∧
      (SeqCheck.check seg conn = .Unacceptable ↔ 65534 < conn.rcvNxt.dist seg.seqNum) := by
  refine ⟨fun b x y hx hy => ?_, fun start x wndLen hpos hlen => ?_, fun seg conn => ?_⟩
  · exact ⟨SeqPoint.precedes_iff_dist_lt hx hy, SeqPoint.precedesOrEq_iff_dist_le hx hy,
      SeqPoint.sub_eq_dist_sub hx hy⟩
  · exact SeqPoint.inWindow_iff x start hpos hlen
  · rw [SeqCheck.check_eq]
    generalize conn.rcvNxt.dist seg.seqNum = d
    by_cases h0 : d = 0
    · simp [h0]
    · by_cases hd : d < 65535
      · simp [h0, hd]
        omega
      · simp [h0, hd]
        omega

/-- Offsets on both sides of the point where the sequence space wraps. -/
theorem serial_arithmetic_exact_wrapping :
    (SeqPoint.new 4294967290 : SeqPoint .In).precedes (SeqPoint.new 5) = true ∧
      (SeqPoint.new 5 : SeqPoint .In).sub (SeqPoint.new 4294967290) = 11 := by
  obtain ⟨hlt, -, hsub⟩ := (serial_arithmetic_exact .In).1 (SeqPoint.new 4294967286)
    (SeqPoint.new 4294967290) (SeqPoint.new 5) (by decide) (by decide)
  exact ⟨hlt.mpr (by decide), hsub.trans (by decide)⟩

/-- What a handler leaves behind: the application, the connection and the outcome. -/
structure Handled (σ : Type) where
  app : σ
  conn : ConnState
  result : TraceableResult (Option SendInfo × Bool)

namespace SendInfo

/-- A pure ACK with SEG.SEQ=SND.NXT and SEG.ACK=RCV.NXT. -/
def pureAck (conn : ConnState) : SendInfo where
  seqNum := conn.sndNxt
  ackNum := conn.rcvNxt
  flags := .Ack
  payload := none

/-- A RST with its SEG.SEQ set to the incoming SEG.ACK. -/
def rst (seg : TcpSegment .In) : SendInfo where
  seqNum := seg.ackNum
  ackNum := SeqPoint.new 0
  flags := .Rst
  payload := none

/-! ### Shared steps of the handlers -/

/-- Common fallback cases among known connections. -/
def knownConnCommonFallback (seg : TcpSegment .In) (conn : ConnState) :
    Option SendInfo × Bool :=
  let challengeAck := (some (pureAck conn), false)
  match seg.flags, SeqCheck.check seg conn with
  -- RST: outside the window dropped, at RCV.NXT obeyed, elsewhere challenged
  | .Rst, .Unacceptable | .RstAck, .Unacceptable => (none, false)
  | .Rst, .InOrder | .RstAck, .InOrder => (none, true)
  | .Rst, .OutOfOrder | .RstAck, .OutOfOrder => challengeAck
  -- Non-RST with unacceptable SEG.SEQ
  | _, .Unacceptable => challengeAck
  -- Stray SYN or SYN-ACK, challenged on a synchronized connection
  | .Syn, _ | .SynAck, _ =>
    if conn.tcpState ≠ .SynReceived then challengeAck else (some (rst seg), false)
  -- Acceptable SEG.SEQ refused at every previous point
  | .Ack, _ | .FinAck, _ => (some (rst seg), false)

/-- Completes the initial three-way handshake. -/
def completeHandshake (seg : TcpSegment .In) (conn : ConnState) :
    SyncedState .Established × ConnState :=
  let established := establish seg
  (established, { conn with
    tcpState := .Established established
    sndUna := seg.ackNum
    pending := [] })

/-- Hands slices to the application one after the other, queueing what it appends. -/
def handleTcp {σ : Type} (A : Application σ) (app : σ) (conn : ConnState)
    (slices : List (List UInt8)) : σ × ConnState :=
  let (app, out) := A.feed app slices
  (app, { conn with sendBuffer := conn.sendBuffer ++ out })

/-- `if let Some(payload)`: advances RCV.NXT past the payload and delivers it. -/
def deliverPayload {σ : Type} (A : Application σ) (app : σ) (conn : ConnState)
    (maybePayload : Option TcpPayload) : σ × ConnState :=
  match maybePayload with
  | some payload =>
    handleTcp A app { conn with rcvNxt := conn.rcvNxt + payload.len } [payload.data]
  | none => (app, conn)

/-- Delivers every buffered segment that has become contiguous with RCV.NXT. -/
def deliverReassembled {σ : Type} (A : Application σ) (app : σ) (conn : ConnState) :
    σ × ConnState :=
  let (payloads, reassembly, rcvNxt) := conn.reassembly.drainContiguous conn.rcvNxt
  handleTcp A app { conn with reassembly := reassembly, rcvNxt := rcvNxt }
    (payloads.map (·.data))

/-- The segment carrying `toSend`, advancing SND.NXT and recording it as pending. -/
def dataPayload (conn : ConnState) (toSend : TcpPayload) (now : Instant) :
    SendInfo × ConnState :=
  let sendInfo : SendInfo :=
    { seqNum := conn.sndNxt, ackNum := conn.rcvNxt, flags := .Ack, payload := some toSend }
  (sendInfo, { conn with
    sndNxt := conn.sndNxt + toSend.len
    pending := conn.pending ++ [PendingSegment.new sendInfo now] })

/-- Drains what the window allows; if that empties the buffer, our FIN is sent with it and
    `conn` moves to LAST-ACK, otherwise `conn` is left in CLOSE-WAIT. -/
def closeWaitOrLastAck (conn : ConnState) (closeWait : SyncedState .CloseWait)
    (now : Instant) : TraceableResult SendInfo × ConnState :=
  match closeWait.drainTransmittable conn with
  | (.error e, conn) => (.error e, conn)
  | (.ok toSend, conn) =>
    if conn.sendBuffer = [] then
      let sendInfo : SendInfo :=
        { seqNum := conn.sndNxt, ackNum := conn.rcvNxt, flags := .FinAck, payload := toSend }
      (.ok sendInfo, { conn with
        tcpState := .LastAck closeWait.sendFin
        sndNxt := conn.sndNxt + TcpPayload.lenOrDefault toSend + FIN_BYTE
        pending := conn.pending ++ [PendingSegment.new sendInfo now] })
    else
      let conn := { conn with tcpState := .CloseWait closeWait }
      match toSend with
      | some payload =>
        let (sendInfo, conn) := dataPayload conn payload now
        (.ok sendInfo, conn)
      | none => (.ok (pureAck conn), conn)

/-- Handles a FIN arriving in order: delivers any trailing payload, advances RCV.NXT past it
    and the FIN, updates the send side and proceeds to CLOSE-WAIT or LAST-ACK. -/
def closeOnInOrderFin {σ : Type} (A : Application σ) (app : σ) (seg : TcpSegment .In)
    (conn : ConnState) (maybePayload : Option TcpPayload)
    (oldEstablished : SyncedState .Established) (now : Instant) : Handled σ :=
  let (app, conn) := deliverPayload A app conn maybePayload
  let conn := { conn with rcvNxt := conn.rcvNxt + FIN_BYTE }
  let (newEstablished, conn) := oldEstablished.incomingAckUpdate conn seg
  let (sendInfo, conn) := closeWaitOrLastAck conn newEstablished.rcvFin now
  ⟨app, conn, sendInfo.map fun info => (some info, false)⟩

/-- The reply once in-order data has been delivered: passive close if the peer's buffered FIN
    has been reached, otherwise whatever the window allows, or a pure ACK. -/
def replyAfterDelivery {σ : Type} (app : σ) (conn : ConnState)
    (established : SyncedState .Established) (now : Instant) : Handled σ :=
  if conn.reassembly.finReached conn.rcvNxt then
    let conn := { conn with rcvNxt := conn.rcvNxt + FIN_BYTE }
    let (sendInfo, conn) := closeWaitOrLastAck conn established.rcvFin now
    ⟨app, conn, sendInfo.map fun info => (some info, false)⟩
  else
    match established.drainTransmittable conn with
    | (.error e, conn) => ⟨app, conn, .error e⟩
    | (.ok (some toSend), conn) =>
      let (sendInfo, conn) := dataPayload conn toSend now
      ⟨app, conn, .ok (some sendInfo, false)⟩
    | (.ok none, conn) => ⟨app, conn, .ok (some (pureAck conn), false)⟩

/-! ### The state handlers -/

/-- SYN-RECEIVED. -/
def handleSynRcv {σ : Type} (A : Application σ) (app : σ) (seg : TcpSegment .In)
    (conn : ConnState) (now : Instant) : Handled σ :=
  let acceptableAck :=
    conn.sndUna.precedes seg.ackNum && seg.ackNum.precedesOrEq conn.sndNxt
  match seg.flags, seg.payload, SeqCheck.check seg conn, acceptableAck with
  -- Duplicate SYN: resend the same SYN-ACK using the already-stored ISN
  | .Syn, _, _, _ =>
    let sendInfo : SendInfo :=
      { seqNum := conn.sndUna, ackNum := seg.seqNum + SYN_BYTE, flags := .SynAck, payload := none }
    ⟨app, { conn with pending := conn.pending ++ [PendingSegment.new sendInfo now] },
      .ok (some sendInfo, false)⟩
  -- Handshake-completing ACK, arriving in order
  | .Ack, maybePayload, .InOrder, true =>
    let (established, conn) := completeHandshake seg conn
    let (app, conn) := deliverPayload A app conn maybePayload
    let (app, conn) := deliverReassembled A app conn
    -- nothing to close and nothing to send: no reply
    if !conn.reassembly.finReached conn.rcvNxt && conn.sendBuffer.isEmpty then
      ⟨app, conn, .ok (none, false)⟩
    else replyAfterDelivery app conn established now
  -- Handshake-completing FIN-ACK, arriving in order
  | .FinAck, maybePayload, .InOrder, true =>
    let (established, conn) := completeHandshake seg conn
    closeOnInOrderFin A app seg conn maybePayload established now
  -- Handshake-completing ACK or FIN-ACK, arriving out of order
  | .Ack, maybePayload, .OutOfOrder, true | .FinAck, maybePayload, .OutOfOrder, true =>
    let (_, conn) := completeHandshake seg conn
    let reassembly := match maybePayload with
      | some payload => conn.reassembly.insert seg.seqNum payload
      | none => conn.reassembly
    let reassembly :=
      if seg.flags = .FinAck then
        reassembly.markFin (seg.seqNum + TcpPayload.lenOrDefault maybePayload)
      else reassembly
    let conn := { conn with reassembly := reassembly }
    ⟨app, conn, .ok (some (pureAck conn), false)⟩
  | _, _, _, _ => ⟨app, conn, .ok (knownConnCommonFallback seg conn)⟩

/-- ESTABLISHED. -/
def handleEstablished {σ : Type} (A : Application σ) (app : σ) (seg : TcpSegment .In)
    (conn : ConnState) (established : SyncedState .Established) (now : Instant) : Handled σ :=
  -- ACK acknowledging data the server has not yet sent: drop it, reply with the current state
  if seg.flags = .Ack ∧ SeqCheck.check seg conn ≠ .Unacceptable
      ∧ conn.sndNxt.precedes seg.ackNum = true then
    ⟨app, conn, .ok (some (pureAck conn), false)⟩
  else
    match seg.flags, seg.payload, SeqCheck.check seg conn with
    -- Pure ACK: advance SND.UNA, then send however much the window allows
    | .Ack, none, .InOrder | .Ack, none, .OutOfOrder =>
      let (newEstablished, conn) := established.incomingAckUpdate conn seg
      let conn := { conn with tcpState := .Established newEstablished }
      match newEstablished.drainTransmittable conn with
      | (.error e, conn) => ⟨app, conn, .error e⟩
      | (.ok (some toSend), conn) =>
        let (sendInfo, conn) := dataPayload conn toSend now
        ⟨app, conn, .ok (some sendInfo, false)⟩
      | (.ok none, conn) => ⟨app, conn, .ok (none, false)⟩
    -- In-order data
    | .Ack, some payload, .InOrder =>
      let (newEstablished, conn) := established.incomingAckUpdate conn seg
      let conn := { conn with tcpState := .Established newEstablished }
      let (app, conn) := deliverPayload A app conn (some payload)
      let (app, conn) := deliverReassembled A app conn
      replyAfterDelivery app conn newEstablished now
    -- Out-of-order data still within the receive window: buffer it
    | .Ack, some payload, .OutOfOrder =>
      let (newEstablished, conn) := established.incomingAckUpdate conn seg
      let conn := { conn with
        tcpState := .Established newEstablished
        reassembly := conn.reassembly.insert seg.seqNum payload }
      ⟨app, conn, .ok (some (pureAck conn), false)⟩
    -- FIN-ACK, arriving in order
    | .FinAck, maybePayload, .InOrder =>
      closeOnInOrderFin A app seg conn maybePayload established now
    -- Out-of-order FIN-ACK still within the receive window: remember the FIN's position
    | .FinAck, maybePayload, .OutOfOrder =>
      let (newEstablished, conn) := established.incomingAckUpdate conn seg
      let reassembly := match maybePayload with
        | some payload => conn.reassembly.insert seg.seqNum payload
        | none => conn.reassembly
      let conn := { conn with
        tcpState := .Established newEstablished
        reassembly := reassembly.markFin (seg.seqNum + TcpPayload.lenOrDefault maybePayload) }
      ⟨app, conn, .ok (some (pureAck conn), false)⟩
    | _, _, _ => ⟨app, conn, .ok (knownConnCommonFallback seg conn)⟩

/-- FIN-WAIT-1. -/
def handleFinWait1 (seg : TcpSegment .In) (conn : ConnState)
    (finWait1 : SyncedState .FinWait1) : (Option SendInfo × Bool) × ConnState :=
  let ourFinAcked := decide (seg.ackNum = conn.sndNxt)
  match seg.flags, seg.payload, SeqCheck.check seg conn, ourFinAcked with
  -- In-order data after our own FIN: ACK it, don't deliver it
  | .Ack, some payload, .InOrder, _ =>
    let conn := { conn with rcvNxt := conn.rcvNxt + payload.len }
    let sendInfo := pureAck conn
    let (finWait1, conn) := finWait1.incomingAckUpdate conn seg
    ((some sendInfo, false), { conn with tcpState := .FinWait1 finWait1 })
  -- Our FIN has been acknowledged
  | .Ack, none, .InOrder, true | .Ack, none, .OutOfOrder, true =>
    let (finWait1, conn) := finWait1.incomingAckUpdate conn seg
    ((none, false), { conn with tcpState := .FinWait2 finWait1.rcvAckOfFin })
  -- Partial ACK not yet covering our FIN
  | .Ack, none, .InOrder, false | .Ack, none, .OutOfOrder, false =>
    let (finWait1, conn) := finWait1.incomingAckUpdate conn seg
    ((none, false), { conn with tcpState := .FinWait1 finWait1 })
  -- Peer's FIN, which also acknowledges our FIN
  | .FinAck, maybePayload, .InOrder, true =>
    let conn := { conn with
      rcvNxt := conn.rcvNxt + TcpPayload.lenOrDefault maybePayload + FIN_BYTE }
    ((some (pureAck conn), true), conn)
  -- Peer's FIN before ours is acknowledged
  | .FinAck, maybePayload, .InOrder, false =>
    let conn := { conn with
      rcvNxt := conn.rcvNxt + TcpPayload.lenOrDefault maybePayload + FIN_BYTE }
    let sendInfo := pureAck conn
    let (finWait1, conn) := finWait1.incomingAckUpdate conn seg
    ((some sendInfo, false), { conn with tcpState := .Closing finWait1.rcvFinBeforeFinIsAcked })
  | _, _, _, _ => (knownConnCommonFallback seg conn, conn)

/-- FIN-WAIT-2. -/
def handleFinWait2 (seg : TcpSegment .In) (conn : ConnState)
    (finWait2 : SyncedState .FinWait2) : (Option SendInfo × Bool) × ConnState :=
  match seg.flags, seg.payload, SeqCheck.check seg conn with
  -- In-order data after our own FIN: ACK it, don't deliver it
  | .Ack, some payload, .InOrder =>
    let conn := { conn with rcvNxt := conn.rcvNxt + payload.len }
    let sendInfo := pureAck conn
    let (finWait2, conn) := finWait2.incomingAckUpdate conn seg
    ((some sendInfo, false), { conn with tcpState := .FinWait2 finWait2 })
  -- Plain ACK with nothing new
  | .Ack, none, .InOrder | .Ack, none, .OutOfOrder =>
    let (finWait2, conn) := finWait2.incomingAckUpdate conn seg
    ((none, false), { conn with tcpState := .FinWait2 finWait2 })
  -- Peer's FIN arrives in order
  | .FinAck, maybePayload, .InOrder =>
    let conn := { conn with
      rcvNxt := conn.rcvNxt + TcpPayload.lenOrDefault maybePayload + FIN_BYTE }
    ((some (pureAck conn), true), conn)
  | _, _, _ => (knownConnCommonFallback seg conn, conn)

/-- CLOSE-WAIT. -/
def handleCloseWait (seg : TcpSegment .In) (conn : ConnState)
    (closeWait : SyncedState .CloseWait) (now : Instant) :
    TraceableResult (Option SendInfo × Bool) × ConnState :=
  match seg.flags, seg.payload, SeqCheck.check seg conn with
  -- ACK of previously sent data or a window update while still draining the send buffer
  | .Ack, none, .InOrder | .Ack, none, .OutOfOrder =>
    let (newCloseWait, conn) := closeWait.incomingAckUpdate conn seg
    let (sendInfo, conn) := closeWaitOrLastAck conn newCloseWait now
    (sendInfo.map fun info => (some info, false), conn)
  | _, _, _ => (.ok (knownConnCommonFallback seg conn), conn)

/-- CLOSING. -/
def handleClosing (seg : TcpSegment .In) (conn : ConnState)
    (closing : SyncedState .Closing) : (Option SendInfo × Bool) × ConnState :=
  let ourFinAcked := decide (seg.ackNum = conn.sndNxt)
  match seg.flags, seg.payload, SeqCheck.check seg conn, ourFinAcked with
  -- Peer's ACK of our FIN
  | .Ack, none, .InOrder, true | .Ack, none, .OutOfOrder, true => ((none, true), conn)
  -- Partial ACK not yet covering our FIN
  | .Ack, none, .InOrder, false | .Ack, none, .OutOfOrder, false =>
    let (closing, conn) := closing.incomingAckUpdate conn seg
    ((none, false), { conn with tcpState := .Closing closing })
  | _, _, _, _ => (knownConnCommonFallback seg conn, conn)

/-- LAST-ACK. -/
def handleLastAck (seg : TcpSegment .In) (conn : ConnState)
    (lastAck : SyncedState .LastAck) : (Option SendInfo × Bool) × ConnState :=
  let ourFinAcked := decide (seg.ackNum = conn.sndNxt)
  match seg.flags, seg.payload, SeqCheck.check seg conn, ourFinAcked with
  -- Partial ACK not yet covering our FIN
  | .Ack, none, .InOrder, false | .Ack, none, .OutOfOrder, false =>
    let (lastAck, conn) := lastAck.incomingAckUpdate conn seg
    ((none, false), { conn with tcpState := .LastAck lastAck })
  -- Final ACK completing passive close
  | .Ack, none, .InOrder, true | .Ack, none, .OutOfOrder, true => ((none, true), conn)
  | _, _, _, _ => (knownConnCommonFallback seg conn, conn)

/-- A handler that neither touches the application nor fails. -/
def infallible {σ : Type} (app : σ) (out : (Option SendInfo × Bool) × ConnState) : Handled σ :=
  ⟨app, out.2, .ok out.1⟩

/-- Handles the reply decision and state updates for a known connection. -/
def handleKnownConn {σ : Type} (A : Application σ) (app : σ) (seg : TcpSegment .In)
    (conn : ConnState) (now : Instant) : Handled σ :=
  match conn.tcpState with
  | .SynReceived => handleSynRcv A app seg conn now
  | .Established established => handleEstablished A app seg conn established now
  | .FinWait1 finWait1 => infallible app (handleFinWait1 seg conn finWait1)
  | .FinWait2 finWait2 => infallible app (handleFinWait2 seg conn finWait2)
  | .CloseWait closeWait =>
    let (result, conn) := handleCloseWait seg conn closeWait now
    ⟨app, conn, result⟩
  | .Closing closing => infallible app (handleClosing seg conn closing)
  | .LastAck lastAck => infallible app (handleLastAck seg conn lastAck)

end SendInfo

end Typenet

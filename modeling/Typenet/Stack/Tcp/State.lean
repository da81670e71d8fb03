import Typenet.Stack.Tcp.PendingSegment
import Typenet.Stack.Tcp.Reassembly

namespace Typenet

/-!
# Connection state

A connection carries its TCP state, the usual sequence variables, the queue of
unacknowledged segments, the bytes waiting to be sent and the reassembly buffer.  A
synchronized state is tagged by its name, so that `drainTransmittable` exists only where
the send side is open, as in the code.

* `incomingAckUpdate` — the common treatment of SEG.ACK and SEG.WND;
* `drainTransmittable` — takes what the peer's window allows off the send buffer;
* `incomingAckUpdate_eq` and `Drained` — what each of the two can do, stated once and used by
  every invariant.
-/

/-! ### TCP states -/

/-- The SND.WND, SND.WL1 and SND.WL2 values of a connection. -/
structure WindowState where
  sndWnd : UInt16
  sndWl1 : SeqPoint .In
  sndWl2 : SeqPoint .Out
  deriving DecidableEq

/-- The window state read off a segment. -/
def WindowState.ofSegment (seg : TcpSegment .In) : WindowState where
  sndWnd := seg.window
  sndWl1 := seg.seqNum
  sndWl2 := seg.ackNum

/-- The names of the synchronized states. -/
inductive Synced
  | Established
  | FinWait1
  | FinWait2
  | CloseWait
  | Closing
  | LastAck
  deriving DecidableEq, Repr

/-- One of the synchronized TCP states, tagged by its name. -/
structure SyncedState (T : Synced) where
  windowState : WindowState
  deriving DecidableEq

/-- The set of states of a TCP connection. -/
inductive TcpState
  | SynReceived
  | Established (s : SyncedState .Established)
  | FinWait1 (s : SyncedState .FinWait1)
  | FinWait2 (s : SyncedState .FinWait2)
  | CloseWait (s : SyncedState .CloseWait)
  | Closing (s : SyncedState .Closing)
  | LastAck (s : SyncedState .LastAck)
  deriving DecidableEq

/-- `SynReceived::establish`. -/
def establish (seg : TcpSegment .In) : SyncedState .Established :=
  ⟨WindowState.ofSegment seg⟩

namespace SyncedState

def rcvFin (s : SyncedState .Established) : SyncedState .CloseWait := ⟨s.windowState⟩

def sendFin (s : SyncedState .CloseWait) : SyncedState .LastAck := ⟨s.windowState⟩

def close (s : SyncedState .Established) : SyncedState .FinWait1 := ⟨s.windowState⟩

def rcvAckOfFin (s : SyncedState .FinWait1) : SyncedState .FinWait2 := ⟨s.windowState⟩

def rcvFinBeforeFinIsAcked (s : SyncedState .FinWait1) : SyncedState .Closing := ⟨s.windowState⟩

end SyncedState

/-! ### Connections -/

/-- The state of a connection in the table. -/
structure ConnState where
  tcpState : TcpState
  sndNxt : SeqPoint .Out
  rcvNxt : SeqPoint .In
  sndUna : SeqPoint .Out
  /-- Unacked segments sent by the server, kept for retransmission purposes. -/
  pending : List PendingSegment
  /-- Bytes received from the application that are queued to be sent. -/
  sendBuffer : List UInt8
  /-- Segments received ahead of RCV.NXT. -/
  reassembly : TcpReassembly
  deriving DecidableEq

/-- Creates a connection in the state right after receiving a SYN and sending a SYN-ACK. -/
def ConnState.fromSynAck (sendInfo : SendInfo) (now : Instant) : TraceableResult ConnState :=
  if sendInfo.flags = .SynAck then
    .ok {
      tcpState := .SynReceived
      sndNxt := sendInfo.seqNum + SYN_BYTE
      rcvNxt := sendInfo.ackNum
      sndUna := sendInfo.seqNum
      pending := [PendingSegment.new sendInfo now]
      sendBuffer := []
      reassembly := TcpReassembly.new }
  else .error (.static
    "Attempted to create a new `ConnState` when sending something other than SYN-ACK")

/-- The number of sequence numbers sent and not yet acknowledged. -/
def ConnState.inFlight (conn : ConnState) : Nat := conn.sndUna.dist conn.sndNxt

/-! ### Processing an acknowledgment -/

/-- SND.UNA =< SEG.ACK =< SND.NXT, by the code's comparisons. -/
def ConnState.ackInRange (conn : ConnState) (ackNum : SeqPoint .Out) : Bool :=
  conn.sndUna.precedesOrEq ackNum && ackNum.precedesOrEq conn.sndNxt

/-- The guard against an old segment clobbering the window with stale data. -/
def WindowState.staleGuard (w : WindowState) (seg : TcpSegment .In) : Bool :=
  w.sndWl1.precedes seg.seqNum
    || w.sndWl1 == seg.seqNum && w.sndWl2.precedesOrEq seg.ackNum

namespace SyncedState

variable {T : Synced}

/-- Processes an incoming segment's acknowledgment against the send-side state, updating
    SND.WND, SND.WL1, SND.WL2, SND.UNA and the retransmission queue as necessary. -/
def incomingAckUpdate (self : SyncedState T) (conn : ConnState) (seg : TcpSegment .In) :
    SyncedState T × ConnState :=
  if conn.ackInRange seg.ackNum then
    let conn' :=
      -- Exclude duplicate ACKs: SND.UNA < SEG.ACK =< SND.NXT
      if conn.sndUna.precedes seg.ackNum then
        { conn with
          sndUna := seg.ackNum
          pending := conn.pending.filter fun p => !p.isCoveredBy seg.ackNum }
      else conn
    if self.windowState.staleGuard seg then (⟨WindowState.ofSegment seg⟩, conn')
    else (self, conn')
  else (self, conn)

/-- The states before our FIN has been sent, in which data may go out. -/
class SendSideOpen (T : Synced) : Prop where
  isOpen : T = .Established ∨ T = .CloseWait

instance : SendSideOpen .Established := ⟨.inl rfl⟩

instance : SendSideOpen .CloseWait := ⟨.inr rfl⟩

/-- The maximum number of bytes that a single TCP payload can have. -/
def MAX_PAYLOAD_LEN : Nat := ETHERNET_MTU - REPLY_HDR_LEN - TCP_HDR_MIN_LEN

/-- `usize::try_from` on an `i32` offset. -/
def usizeTryFrom (n : Int) : TraceableResult Nat :=
  if 0 ≤ n then .ok n.toNat else .error .tryFromInt

/-- `VecDeque::drain(..n)` as the bytes drained and the bytes left, where the assertion
    `n ≤ len` is the proof argument. -/
def drainFront (buffer : List UInt8) (n : Nat) (_ : n ≤ buffer.length) :
    List UInt8 × List UInt8 :=
  (buffer.take n, buffer.drop n)

/-- Removes and returns as many bytes as possible from the front of the send buffer,
    bounded by the peer's window and the maximum length of a segment. -/
def drainTransmittable [SendSideOpen T] (self : SyncedState T) (conn : ConnState) :
    TraceableResult (Option TcpPayload) × ConnState :=
  match usizeTryFrom (conn.sndNxt.sub conn.sndUna) with
  | .error e => (.error e, conn)
  | .ok sentButNotAcked =>
    let spaceInWindow := self.windowState.sndWnd.toNat - sentButNotAcked
    let bytesToSend := min (min spaceInWindow conn.sendBuffer.length) MAX_PAYLOAD_LEN
    let (drained, left) := drainFront conn.sendBuffer bytesToSend (by omega)
    (TcpPayload.tryFromIter drained, { conn with sendBuffer := left })

end SyncedState

/-! ### What the two operations can do -/

/-- SND.UNA after processing an acknowledgment. -/
def ConnState.ackedUna (conn : ConnState) (ackNum : SeqPoint .Out) : SeqPoint .Out :=
  if conn.ackInRange ackNum && conn.sndUna.precedes ackNum then ackNum else conn.sndUna

/-- The retransmission queue after processing an acknowledgment. -/
def ConnState.ackedPending (conn : ConnState) (ackNum : SeqPoint .Out) : List PendingSegment :=
  if conn.ackInRange ackNum && conn.sndUna.precedes ackNum then
    conn.pending.filter fun p => !p.isCoveredBy ackNum
  else conn.pending

/-- The connection after processing an acknowledgment: only SND.UNA and the
    retransmission queue move. -/
def ConnState.acked (conn : ConnState) (ackNum : SeqPoint .Out) : ConnState :=
  { conn with sndUna := conn.ackedUna ackNum, pending := conn.ackedPending ackNum }

/-- The window state after processing an acknowledgment. -/
def WindowState.updated (w : WindowState) (conn : ConnState) (seg : TcpSegment .In) :
    WindowState :=
  if conn.ackInRange seg.ackNum && w.staleGuard seg then WindowState.ofSegment seg else w

/-- **What an acknowledgment does**, as one equation: the send window is refreshed and
    the connection is `acked`. -/
theorem SyncedState.incomingAckUpdate_eq {T : Synced} (self : SyncedState T)
    (conn : ConnState) (seg : TcpSegment .In) :
    self.incomingAckUpdate conn seg
      = (⟨self.windowState.updated conn seg⟩, conn.acked seg.ackNum) := by
  unfold incomingAckUpdate WindowState.updated ConnState.acked ConnState.ackedUna
    ConnState.ackedPending
  cases conn.ackInRange seg.ackNum <;> cases conn.sndUna.precedes seg.ackNum <;>
    cases self.windowState.staleGuard seg <;> rfl

/-- The number of bytes `drainTransmittable` takes off the send buffer. -/
def ConnState.transmittable (conn : ConnState) (w : WindowState) : Nat :=
  min (min (w.sndWnd.toNat - conn.inFlight) conn.sendBuffer.length) SyncedState.MAX_PAYLOAD_LEN

/-- The window lets nothing out of a non-empty buffer exactly when it is full. -/
theorem ConnState.transmittable_eq_zero_iff (conn : ConnState) (w : WindowState)
    (hbuf : conn.sendBuffer ≠ []) :
    conn.transmittable w = 0 ↔ w.sndWnd.toNat ≤ conn.inFlight := by
  have hlen := List.length_pos_iff.mpr hbuf
  have hmax : 0 < SyncedState.MAX_PAYLOAD_LEN := by decide
  unfold ConnState.transmittable
  omega

/-- **What draining can do.** It fails with half the circle in flight, lets nothing out, or takes
    the front `transmittable` bytes off the send buffer; otherwise the connection stays. -/
inductive Drained (w : WindowState) (conn : ConnState) :
    TraceableResult (Option TcpPayload) × ConnState → Prop
  /-- The conversion of the number of bytes in flight fails. -/
  | failed : 2 ^ 31 ≤ conn.inFlight → Drained w conn (.error .tryFromInt, conn)
  /-- The window or the buffer has nothing left. -/
  | nothing : conn.inFlight < 2 ^ 31 → conn.transmittable w = 0 → Drained w conn (.ok none, conn)
  | data {p : TcpPayload} {left : List UInt8} : conn.inFlight < 2 ^ 31 →
      p.len = conn.transmittable w → p.data ++ left = conn.sendBuffer →
      Drained w conn (.ok (some p), { conn with sendBuffer := left })

theorem SyncedState.drainTransmittable_drained {T : Synced} [SyncedState.SendSideOpen T]
    (self : SyncedState T) (conn : ConnState) :
    Drained self.windowState conn (self.drainTransmittable conn) := by
  have hsub := SeqPoint.sub_eq conn.sndNxt conn.sndUna
  have hlt := SeqPoint.dist_lt conn.sndUna conn.sndNxt
  rcases Nat.lt_or_ge conn.inFlight (2 ^ 31) with h | h
  · have hd : usizeTryFrom (conn.sndNxt.sub conn.sndUna) = .ok conn.inFlight := by
      have h' : conn.sndUna.dist conn.sndNxt < 2 ^ 31 := h
      rw [hsub, if_pos h', usizeTryFrom, if_pos (by omega)]; rfl
    have htake : (conn.sendBuffer.take (conn.transmittable self.windowState)).length
        = conn.transmittable self.windowState := by
      rw [List.length_take, Nat.min_eq_left]
      unfold ConnState.transmittable
      omega
    have hmax : MAX_PAYLOAD_LEN < 2 ^ 16 := by decide
    have hlen : conn.transmittable self.windowState < 2 ^ 16 := by
      unfold ConnState.transmittable
      omega
    obtain ⟨p, hp, hbytes⟩ := TcpPayload.tryFromIter_ok (by rw [htake]; exact hlen)
    have hdrain : self.drainTransmittable conn = (.ok p, { conn with
        sendBuffer := conn.sendBuffer.drop (conn.transmittable self.windowState) }) := by
      rw [drainTransmittable, hd, ← hp]; rfl
    rw [hdrain]
    cases p with
    | none =>
      have hzero : conn.transmittable self.windowState = 0 := by
        rw [← htake, ← hbytes]
        rfl
      rw [hzero]
      exact .nothing h hzero
    | some p =>
      have hdata : p.data = conn.sendBuffer.take (conn.transmittable self.windowState) := hbytes
      refine .data h ?_ ?_
      · rw [← htake, ← hdata]
        rfl
      · rw [hdata, List.take_append_drop]
  · have hd : usizeTryFrom (conn.sndNxt.sub conn.sndUna) = .error .tryFromInt := by
      unfold ConnState.inFlight at h
      rw [hsub, if_neg (by omega), usizeTryFrom, if_neg (by omega)]
    rw [drainTransmittable, hd]
    exact .failed h

end Typenet

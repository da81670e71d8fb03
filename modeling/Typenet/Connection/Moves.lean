import Typenet.Stack.Tcp.SendInfo

namespace Typenet

/-!
# What one segment can do to a connection

Seven handlers with some thirty arms move a connection in only a few ways.  This file says
them once, separately for the two halves of a connection:

* `SendMove` — what may happen to the state name, SND.NXT, SND.UNA, the retransmission
  queue and the send buffer, and what is put on the wire for it;
* `RecvMove` — what may happen to RCV.NXT and the reassembly buffer, and which slices are
  handed to the application for it.

`Moves` pairs the two with the application's part, and every invariant of a connection is
proved from it.  The handlers are shown to make such moves in the next file.
-/

/-! ### Names of states -/

/-- The name of a TCP state; `none` is SYN-RECEIVED. -/
def TcpState.name : TcpState → Option Synced
  | .SynReceived => none
  | .Established _ => some .Established
  | .FinWait1 _ => some .FinWait1
  | .FinWait2 _ => some .FinWait2
  | .CloseWait _ => some .CloseWait
  | .Closing _ => some .Closing
  | .LastAck _ => some .LastAck

/-- The send window of a synchronized state. -/
def TcpState.window : TcpState → Option WindowState
  | .SynReceived => none
  | .Established s => some s.windowState
  | .FinWait1 s => some s.windowState
  | .FinWait2 s => some s.windowState
  | .CloseWait s => some s.windowState
  | .Closing s => some s.windowState
  | .LastAck s => some s.windowState

/-- The name of a connection's state. -/
def ConnState.name (conn : ConnState) : Option Synced := conn.tcpState.name

/-- Only SYN-RECEIVED has no synchronized name. -/
theorem ConnState.name_eq_none {conn : ConnState} :
    conn.name = none ↔ conn.tcpState = .SynReceived := by
  unfold ConnState.name TcpState.name
  cases conn.tcpState <;> simp

/-- ESTABLISHED is a state of its own. -/
theorem ConnState.name_eq_established {conn : ConnState} (h : conn.name = some .Established) :
    ∃ est, conn.tcpState = .Established est := by
  unfold ConnState.name TcpState.name at h
  cases hst : conn.tcpState with
  | Established est => exact ⟨est, rfl⟩
  | _ => rw [hst] at h; cases h

/-- SYN-RECEIVED and ESTABLISHED: the peer's FIN has not been processed and ours has not
    been sent, so data still reaches the application. -/
def Receiving (n : Option Synced) : Prop := n = none ∨ n = some .Established

/-- The states in which data may still be sent. -/
def Sending (n : Option Synced) : Prop := Receiving n ∨ n = some .CloseWait

/-- The states after passive close has begun. -/
def PassiveClosed (n : Option Synced) : Prop := n = some .CloseWait ∨ n = some .LastAck

/-- The states after our FIN has been sent. -/
def FinSent (n : Option Synced) : Prop := ¬ Sending n

instance (n : Option Synced) : Decidable (Receiving n) := inferInstanceAs (Decidable (_ ∨ _))

instance (n : Option Synced) : Decidable (Sending n) := inferInstanceAs (Decidable (_ ∨ _))

instance (n : Option Synced) : Decidable (PassiveClosed n) := inferInstanceAs (Decidable (_ ∨ _))

instance (n : Option Synced) : Decidable (FinSent n) := inferInstanceAs (Decidable (¬ _))

/-- Our FIN has been sent in FIN-WAIT-1, FIN-WAIT-2, CLOSING and LAST-ACK. -/
theorem finSent_iff (n : Option Synced) :
    FinSent n ↔ n = some .FinWait1 ∨ n = some .FinWait2 ∨ n = some .Closing
      ∨ n = some .LastAck := by
  rcases n with _ | (_ | _ | _ | _ | _ | _) <;> decide

/-- After the peer's FIN nothing more is received. -/
theorem PassiveClosed.not_receiving {n : Option Synced} (h : PassiveClosed n) :
    ¬ Receiving n := by
  rcases h with rfl | rfl <;> decide

/-- CLOSE-WAIT does not receive. -/
theorem Receiving.ne_closeWait {n : Option Synced} (h : Receiving n) : n ≠ some .CloseWait := by
  rcases h with rfl | rfl <;> decide

/-! ### Taking an acknowledgment -/

/-- Whether the handler of `conn` processes the acknowledgment of `seg` through
    `incomingAckUpdate`.  ESTABLISHED compares SEG.ACK with SND.NXT first, but only for
    plain ACKs. -/
def ConnState.takesAck (conn : ConnState) (seg : TcpSegment .In) : Bool :=
  let check := SeqCheck.check seg conn
  match conn.tcpState, seg.flags, seg.payload with
  | .Established _, .Ack, _ => check != .Unacceptable && !conn.sndNxt.precedes seg.ackNum
  | .Established _, .FinAck, _ => check != .Unacceptable
  | .FinWait1 _, .Ack, some _ => check == .InOrder
  | .FinWait1 _, .Ack, none => check != .Unacceptable
  | .FinWait1 _, .FinAck, _ => check == .InOrder && seg.ackNum != conn.sndNxt
  | .FinWait2 _, .Ack, some _ => check == .InOrder
  | .FinWait2 _, .Ack, none => check != .Unacceptable
  | .CloseWait _, .Ack, none => check != .Unacceptable
  | .Closing _, .Ack, none => check != .Unacceptable && seg.ackNum != conn.sndNxt
  | .LastAck _, .Ack, none => check != .Unacceptable && seg.ackNum != conn.sndNxt
  | _, _, _ => false

/-- An ACK or FIN-ACK that gets past the guard of ESTABLISHED has its acknowledgment taken. -/
theorem ConnState.takesAck_established {conn : ConnState} {seg : TcpSegment .In}
    {est : SyncedState .Established} (hst : conn.tcpState = .Established est)
    (hguard : ¬ (seg.flags = .Ack ∧ SeqCheck.check seg conn ≠ .Unacceptable
      ∧ conn.sndNxt.precedes seg.ackNum = true))
    (hflags : seg.flags = .Ack ∨ seg.flags = .FinAck)
    (hcheck : SeqCheck.check seg conn ≠ .Unacceptable) : conn.takesAck seg = true := by
  rcases hflags with hflags | hflags
  · have hprec : conn.sndNxt.precedes seg.ackNum = false := by
      by_contra hp
      exact hguard ⟨hflags, hcheck, by simpa using hp⟩
    simp [takesAck, hst, hflags, hcheck, hprec]
  · simp [takesAck, hst, hflags, hcheck]

/-- How a segment's acknowledgment may move SND.UNA and the retransmission queue. -/
inductive AckStage (seg : TcpSegment .In) (conn : ConnState) :
    SeqPoint .Out → List PendingSegment → Prop
  /-- `incomingAckUpdate` of a synchronized connection. -/
  | update : conn.takesAck seg = true →
      AckStage seg conn (conn.ackedUna seg.ackNum) (conn.ackedPending seg.ackNum)
  /-- `completeHandshake`, which requires SND.UNA < SEG.ACK =< SND.NXT. -/
  | handshake : conn.tcpState = .SynReceived → conn.sndUna.precedes seg.ackNum = true →
      seg.ackNum.precedesOrEq conn.sndNxt = true → AckStage seg conn seg.ackNum []

/-- Taking an acknowledgment only removes from the retransmission queue. -/
theorem AckStage.sublist {seg : TcpSegment .In} {conn : ConnState} {una : SeqPoint .Out}
    {pend : List PendingSegment} (h : AckStage seg conn una pend) :
    pend.Sublist conn.pending := by
  cases h with
  | update =>
    unfold ConnState.ackedPending
    split
    · exact List.filter_sublist
    · exact List.Sublist.refl _
  | handshake => exact List.nil_sublist _

/-- An acknowledgment only takes entries off the queue. -/
theorem AckStage.subset {seg : TcpSegment .In} {conn : ConnState} {una : SeqPoint .Out}
    {pend : List PendingSegment} (h : AckStage seg conn una pend) :
    ∀ p ∈ pend, p ∈ conn.pending := fun _ hp => h.sublist.subset hp

/-! ### Moves of the send side -/

/-- A reply that puts no data and no FIN on the wire. -/
def Quiet (reply : Option SendInfo) : Prop :=
  ∀ info ∈ reply, info.payload = none ∧ (info.flags = .Ack ∨ info.flags = .Rst)

/-- The send side of two connections agrees. -/
structure SameSend (conn conn' : ConnState) : Prop where
  tcpState : conn'.tcpState = conn.tcpState
  sndNxt : conn'.sndNxt = conn.sndNxt
  sndUna : conn'.sndUna = conn.sndUna
  pending : conn'.pending = conn.pending
  sendBuffer : conn'.sendBuffer = conn.sendBuffer

/-- The changes of state that go with an acknowledgment when nothing is sent. -/
inductive Shift : Option Synced → Option Synced → Prop
  | stay (n : Option Synced) : Shift n n
  | establish : Shift none (some .Established)
  | passive {n : Option Synced} : Receiving n → Shift n (some .CloseWait)
  | finAcked : Shift (some .FinWait1) (some .FinWait2)
  | simultaneous : Shift (some .FinWait1) (some .Closing)

/-- Once our FIN is out, only FIN-WAIT-1 is left by an acknowledgment. -/
theorem Shift.eq_of_finSent {n n' : Option Synced} (h : Shift n n') (hsent : FinSent n)
    (hne : n ≠ some .FinWait1) : n' = n := by
  cases h with
  | stay => rfl
  | establish => exact absurd hsent (by decide)
  | passive hr => exact absurd (.inl hr) hsent
  | finAcked | simultaneous => exact absurd rfl hne

/-- Taking an acknowledgment neither sends our FIN nor takes it back. -/
theorem Shift.finSent_iff {n n' : Option Synced} (h : Shift n n') : FinSent n' ↔ FinSent n := by
  cases h with
  | stay => rfl
  | establish => decide
  | passive hr => exact ⟨fun h => absurd h (by decide), fun h => absurd (.inl hr) h⟩
  | finAcked => decide
  | simultaneous => decide

/-- The payload `p` is what the window `w` lets out of `buffer`, with SND.UNA at `una` and
    SND.NXT at `nxt`; `left` stays queued. -/
structure Transmits (w : WindowState) (una nxt : SeqPoint .Out) (buffer : List UInt8)
    (p : Option TcpPayload) (left : List UInt8) : Prop where
  inFlight : una.dist nxt < 2 ^ 31
  split : TcpPayload.bytes p ++ left = buffer
  length : TcpPayload.lenOrDefault p
    = min (min (w.sndWnd.toNat - una.dist nxt) buffer.length) SyncedState.MAX_PAYLOAD_LEN

/-- A payload let out by the window fits one packet. -/
theorem Transmits.le_max {w : WindowState} {una nxt : SeqPoint .Out} {buffer left : List UInt8}
    {p : Option TcpPayload} (h : Transmits w una nxt buffer p left) :
    TcpPayload.lenOrDefault p ≤ 1460 := by
  have hmax : SyncedState.MAX_PAYLOAD_LEN = 1460 := rfl
  rw [h.length]; omega

/-- What one segment may do to the send side of `conn` when the application appends
    `extra`, and the reply it gives. -/
inductive SendMove (seg : TcpSegment .In) (now : Instant) (conn : ConnState)
    (extra : List UInt8) (conn' : ConnState) : Option SendInfo → Prop
  /-- Nothing happens. -/
  | idle {reply : Option SendInfo} : SameSend conn conn' → extra = [] → Quiet reply →
      SendMove seg now conn extra conn' reply
  /-- A duplicate SYN: the SYN-ACK goes out again and is queued again. -/
  | resend {info : SendInfo} : conn.tcpState = .SynReceived → extra = [] →
      info = ⟨conn.sndUna, seg.seqNum + SYN_BYTE, .SynAck, none⟩ →
      conn'.tcpState = .SynReceived → conn'.sndNxt = conn.sndNxt →
      conn'.sndUna = conn.sndUna → conn'.sendBuffer = conn.sendBuffer →
      conn'.pending = conn.pending ++ [PendingSegment.new info now] →
      SendMove seg now conn extra conn' (some info)
  /-- The acknowledgment is taken, output is queued, nothing is sent. -/
  | ack {reply : Option SendInfo} : AckStage seg conn conn'.sndUna conn'.pending →
      Shift conn.name conn'.name → conn'.name ≠ none → (extra ≠ [] → Receiving conn.name) →
      (conn'.name = some .CloseWait → conn.name = some .CloseWait ∨ conn'.sendBuffer ≠ []) →
      conn'.sndNxt = conn.sndNxt → conn'.sendBuffer = conn.sendBuffer ++ extra →
      Quiet reply → SendMove seg now conn extra conn' reply
  /-- The acknowledgment is taken and data goes out. -/
  | data {w : WindowState} {pend : List PendingSegment} {p : TcpPayload} {info : SendInfo} :
      AckStage seg conn conn'.sndUna pend → Sending conn.name →
      (conn.name = some .CloseWait → extra = []) →
      conn'.name = some .Established ∨ conn'.name = some .CloseWait →
      (conn'.name = some .CloseWait → conn'.sendBuffer ≠ []) →
      conn'.tcpState.window = some w →
      Transmits w conn'.sndUna conn.sndNxt (conn.sendBuffer ++ extra) (some p)
        conn'.sendBuffer →
      info = ⟨conn.sndNxt, conn'.rcvNxt, .Ack, some p⟩ →
      conn'.sndNxt = conn.sndNxt + p.len →
      conn'.pending = pend ++ [PendingSegment.new info now] →
      SendMove seg now conn extra conn' (some info)
  /-- The acknowledgment is taken and our FIN goes out with all remaining data. -/
  | fin {w : WindowState} {pend : List PendingSegment} {p : Option TcpPayload}
      {info : SendInfo} :
      AckStage seg conn conn'.sndUna pend → Sending conn.name →
      (conn.name = some .CloseWait → extra = []) →
      conn'.name = some .LastAck → conn'.tcpState.window = some w →
      conn'.sendBuffer = [] →
      Transmits w conn'.sndUna conn.sndNxt (conn.sendBuffer ++ extra) p [] →
      info = ⟨conn.sndNxt, conn'.rcvNxt, .FinAck, p⟩ →
      conn'.sndNxt = conn.sndNxt + TcpPayload.lenOrDefault p + FIN_BYTE →
      conn'.pending = pend ++ [PendingSegment.new info now] →
      SendMove seg now conn extra conn' (some info)

/-- A reply carries at most the payload of one packet. -/
theorem SendMove.payload_le {seg : TcpSegment .In} {now : Instant} {conn conn' : ConnState}
    {extra : List UInt8} {reply : Option SendInfo} (h : SendMove seg now conn extra conn' reply) :
    ∀ info ∈ reply, TcpPayload.lenOrDefault info.payload ≤ 1460 := by
  have hquiet : ∀ reply, Quiet reply → ∀ info ∈ reply,
      TcpPayload.lenOrDefault info.payload ≤ 1460 := by
    intro reply hq info hinfo
    rw [(hq info hinfo).1]
    decide
  cases h with
  | idle hsame hextra hq => exact hquiet _ hq
  | resend hst hextra hinfo => rintro _ ⟨⟩; rw [hinfo]; exact Nat.zero_le _
  | ack hack hshift hsync hextra hcw hnxt hbuf hq => exact hquiet _ hq
  | data hack hsend hsilent hname hleft hwin htrans hinfo =>
    rintro _ ⟨⟩; rw [hinfo]; exact htrans.le_max
  | fin hack hsend hsilent hname hwin hempty htrans hinfo =>
    rintro _ ⟨⟩; rw [hinfo]; exact htrans.le_max

/-! ### Moves of the receive side -/

/-- The slice an optional payload is handed to the application as. -/
def TcpPayload.slices (p : Option TcpPayload) : List (List UInt8) := p.toList.map (·.data)

/-- What one segment may do to the receive side of `conn`, with the slices it hands to the
    application and whether processing it failed. -/
inductive RecvMove (seg : TcpSegment .In) (conn : ConnState) (conn' : ConnState) :
    List (List UInt8) → Bool → Prop
  /-- Nothing is received. -/
  | idle {failed : Bool} : conn'.rcvNxt = conn.rcvNxt → conn'.reassembly = conn.reassembly →
      (Receiving conn'.name → conn'.name = conn.name) →
      (PassiveClosed conn'.name → PassiveClosed conn.name) →
      RecvMove seg conn conn' [] failed
  /-- A segment ahead of RCV.NXT is buffered, its FIN remembered. -/
  | buffer : SeqCheck.check seg conn = .OutOfOrder → Receiving conn.name →
      seg.flags = .Ack ∨ seg.flags = .FinAck →
      conn'.name = some .Established → conn'.rcvNxt = conn.rcvNxt →
      conn'.reassembly.segments = (match seg.payload with
        | some p => TcpReassembly.insertSegment seg.seqNum p conn.reassembly.segments
        | none => conn.reassembly.segments) →
      conn'.reassembly.finSeq = (if seg.flags = .FinAck then
        some (conn.reassembly.finSeq.getD
          (seg.seqNum + TcpPayload.lenOrDefault seg.payload))
        else conn.reassembly.finSeq) →
      RecvMove seg conn conn' [] false
  /-- In-order data is delivered together with what it makes contiguous; a FIN reached
      that way is consumed. -/
  | data {payloads : List TcpPayload} {reassembly : TcpReassembly} {rcvNxt : SeqPoint .In}
      {failed : Bool} :
      seg.seqNum = conn.rcvNxt → Receiving conn.name → seg.flags = .Ack →
      (conn.name = some .Established → seg.payload ≠ none) →
      conn.reassembly.drainContiguous (conn.rcvNxt + TcpPayload.lenOrDefault seg.payload)
        = (payloads, reassembly, rcvNxt) →
      conn'.reassembly = reassembly →
      (reassembly.finReached rcvNxt = false → conn'.rcvNxt = rcvNxt ∧
        conn'.name = some .Established) →
      (reassembly.finReached rcvNxt = true → conn'.rcvNxt = rcvNxt + FIN_BYTE ∧
        (failed = false → PassiveClosed conn'.name) ∧
        (failed = true → conn'.name = some .Established)) →
      RecvMove seg conn conn' (TcpPayload.slices seg.payload ++ payloads.map (·.data)) failed
  /-- An in-order FIN is consumed, with its payload. -/
  | fin {failed : Bool} : seg.seqNum = conn.rcvNxt → Receiving conn.name →
      seg.flags = .FinAck →
      conn'.rcvNxt = conn.rcvNxt + TcpPayload.lenOrDefault seg.payload + FIN_BYTE →
      conn'.reassembly = conn.reassembly →
      (failed = false → PassiveClosed conn'.name) →
      (failed = true → conn'.name = some .Established) →
      RecvMove seg conn conn' (TcpPayload.slices seg.payload) failed
  /-- After our own FIN, in-order data and the peer's FIN are acknowledged but not
      delivered. -/
  | halfClosed {n : Nat} : seg.seqNum = conn.rcvNxt → ¬ Sending conn.name →
      ¬ PassiveClosed conn'.name → ¬ Receiving conn'.name →
      conn'.rcvNxt = conn.rcvNxt + n → conn'.reassembly = conn.reassembly →
      RecvMove seg conn conn' [] false

/-! ### A whole step -/

/-- Whether an outcome is an error. -/
def failed {α : Type} : TraceableResult α → Bool
  | .ok _ => false
  | .error _ => true

/-- The reply of an outcome. -/
def replyOf : TraceableResult (Option SendInfo × Bool) → Option SendInfo
  | .ok (reply, _) => reply
  | .error _ => none

/-- The conversion of SND.NXT - SND.UNA fails once the acknowledgment has been taken. -/
def Stuck (seg : TcpSegment .In) (conn : ConnState) : Prop :=
  ∃ una pend, AckStage seg conn una pend ∧ Sending conn.name ∧ 2 ^ 31 ≤ una.dist conn.sndNxt

/-- A step either ends the connection with a quiet reply, or moves both its sides while
    the application is fed the delivered slices; it fails only where the conversion does. -/
def Moves {σ : Type} (A : Application σ) (app : σ) (seg : TcpSegment .In) (now : Instant)
    (conn : ConnState) (h : Handled σ) : Prop :=
  (∃ reply, h.result = .ok (reply, true) ∧ Quiet reply ∧ h.app = app) ∨
  ((∀ reply, h.result ≠ .ok (reply, true)) ∧ (failed h.result = true → Stuck seg conn) ∧
    ∃ slices extra, A.feed app slices = (h.app, extra) ∧
      SendMove seg now conn extra h.conn (replyOf h.result) ∧
      RecvMove seg conn h.conn slices (failed h.result))

end Typenet
